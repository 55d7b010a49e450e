import SectorChain.Lib.Slots
import SectorChain.Proofs.Mnemonics

/-!
# Stored keys

Lookups reach the first `MAX_KEYS + 1` slots, an addition any.
-/

namespace SectorChain.Keychain

open Lib List
open Function (update update_apply update_of_ne update_eq_self)

variable {env : Env} {kc : Keychain} {s s' : Keyring} {t : ℕ → Option (G1Element × Bytes)}
variable {e : G1Element × Bytes} {fp i index n : ℕ} {passphrases : List PyStr}

lemma decimal_injective : Function.Injective decimal := by
  intro n n' h
  have hchar : Function.Injective ofChar := by
    intro c c' hc
    have hval : (ofChar c).val = (ofChar c').val := congrArg Fin.val hc
    exact Char.toNat_inj.mp hval
  have hdigits := map_injective_iff.mpr hchar h
  rw [← @Nat.ofDigitChars_ten_toDigits n, hdigits, Nat.ofDigitChars_ten_toDigits]

def slotName (kc : Keychain) (index : ℕ) : PyStr × PyStr := (getService kc, getPrivateKeyUser kc index)

lemma slotName_injective (kc : Keychain) : Function.Injective (slotName kc) := by
  intro i j h
  have huser : getPrivateKeyUser kc i = getPrivateKeyUser kc j := congrArg Prod.snd h
  unfold getPrivateKeyUser at huser
  apply decimal_injective
  split at huser
  · exact append_cancel_left huser
  · exact append_cancel_left huser

def slot (env : Env) (kc : Keychain) (s : Keyring) (index : ℕ) : Except PyError (Option (G1Element × Bytes)) :=
  readEntry env (s.get? (slotName kc index))

@[simp] lemma exec_getPkAndEntropy (s : Keyring) (index : ℕ) :
    exec (getPkAndEntropy env kc (getPrivateKeyUser kc index)) s = (slot env kc s index, s) := by
  rfl

lemma readEntry_stored (env : Env) (key : PrivateKey) (entropy : Bytes) :
    readEntry env (some (hexStr (env.getG1 key).toBytes ++ hexStr entropy)) = .ok (some (env.getG1 key, entropy)) := by
  have hpos : (hexStr (env.getG1 key).toBytes ++ hexStr entropy).length ≠ 0 := by
    have hlength := SizedBytes.length_toBytes (env.getG1 key)
    cases hbytes : (env.getG1 key).toBytes with
    | nil =>
      rw [hbytes] at hlength
      cases hlength
    | cons b bs => simp [hexStr, hex]
  have htake : ((env.getG1 key).toBytes ++ entropy).take 48 = (env.getG1 key).toBytes :=
    take_left' (SizedBytes.length_toBytes _)
  have hdrop : ((env.getG1 key).toBytes ++ entropy).drop 48 = entropy := drop_left' (SizedBytes.length_toBytes _)
  change (if _ then _ else _) = _
  rw [if_neg hpos, ← hexStr_append, fromhex_hexStr, ok_bind, htake, hdrop]
  unfold g1FromBytes SizedBytes.ofBytes
  rw [if_pos (env.isG1Element_getG1 key), dif_pos (SizedBytes.length_toBytes _)]
  rfl

/-- The slots of a keychain hold the entries of a table. -/
structure Holds (env : Env) (kc : Keychain) (s : Keyring) (t : ℕ → Option (G1Element × Bytes)) : Prop where
  slot_eq : ∀ index, slot env kc s index = .ok (t index)
  absent : ∀ index, t index = none → s.get? (slotName kc index) = none

lemma Holds.present (h : Holds env kc s t) (he : t index = some e) :
    ∃ password, s.get? (slotName kc index) = some password := by
  cases hget : s.get? (slotName kc index) with
  | some password => exact ⟨password, rfl⟩
  | none =>
    have hslot := h.slot_eq index
    unfold slot at hslot
    rw [hget, he] at hslot
    cases hslot

lemma Holds.put (h : Holds env kc s t) {index : ℕ} {password : Option PyStr} {e : Option (G1Element × Bytes)}
    (hget : ∀ name, s'.get? name = if name = slotName kc index then password else s.get? name)
    (hread : readEntry env password = .ok e) (hnone : e = none → password = none) :
    Holds env kc s' (update t index e) := by
  have hslot : ∀ i, s'.get? (slotName kc i) = if i = index then password else s.get? (slotName kc i) := fun i => by
    simp only [hget, (slotName_injective kc).eq_iff]
  constructor
  · intro i
    unfold slot
    rw [hslot, update_apply]
    split
    · exact hread
    · exact h.slot_eq i
  · intro i hi
    rw [update_apply] at hi
    rw [hslot]
    split at hi
    · rename_i heq
      rw [if_pos heq, hnone hi]
    · rename_i hne
      rw [if_neg hne, h.absent i hi]

lemma Holds.set (h : Holds env kc s t) (index : ℕ) (key : PrivateKey) (entropy : Bytes) :
    Holds env kc (s.set (slotName kc index) (hexStr (env.getG1 key).toBytes ++ hexStr entropy))
      (update t index (some (env.getG1 key, entropy))) :=
  h.put (fun name => Dict.get?_set s _ name _) (readEntry_stored env key entropy) nofun

lemma Holds.erase (h : Holds env kc s t) (index : ℕ) :
    Holds env kc (s.erase (slotName kc index)) (update t index none) :=
  h.put (fun name => Dict.get?_erase s _ name) rfl fun _ => rfl

section Walks

variable {α : Type} {visit : ℕ → G1Element → Bytes → α → KeyringM (ForInStep α)}

lemma exec_walkFrom {f : α → G1Element × Bytes → α} (h : Holds env kc s t)
    (hvisit : ∀ i e acc, t i = some e → exec (visit i e.1 e.2 acc) s = (.ok (.yield (f acc e)), s))
    (left index : ℕ) (acc : α) :
    exec (walkFrom env kc visit left index (t index) acc) s =
      (.ok (((List.range' index left).filterMap t).foldl f acc), s) := by
  induction left generalizing index acc with
  | zero => rfl
  | succ left ih =>
    have hslot : exec (visitSlot visit index acc (t index)) s = (.ok (.yield (((t index).toList).foldl f acc)), s) := by
      cases hentry : t index with
      | none => rfl
      | some e => exact hvisit index e acc hentry
    unfold walkFrom
    rw [exec_bind_of_ok hslot]
    rw [exec_bind_of_ok (by rw [exec_getPkAndEntropy, h.slot_eq]), ih, range'_succ, filterMap_cons]
    cases t index with
    | none => rfl
    | some e => rfl

lemma exec_walk {f : α → G1Element × Bytes → α} (h : Holds env kc s t)
    (hvisit : ∀ i e acc, t i = some e → exec (visit i e.1 e.2 acc) s = (.ok (.yield (f acc e)), s)) (init : α) :
    exec (walk env kc visit init) s = (.ok ((entries (MAX_KEYS + 1) t).foldl f init), s) := by
  unfold walk entries
  rw [exec_bind_of_ok (by rw [exec_getPkAndEntropy, h.slot_eq]), exec_walkFrom h hvisit, range_eq_range']

end Walks

lemma exec_getAllPublicKeys (h : Holds env kc s t) :
    exec (getAllPublicKeys env kc) s = (.ok ((entries (MAX_KEYS + 1) t).map Prod.fst), s) := by
  unfold getAllPublicKeys
  rw [@exec_walk _ _ _ _ _ _ (fun allKeys e => allKeys ++ [e.1]) h fun i e acc _ => rfl, ← flatMap_eq_foldl]
  rw [map_eq_flatMap]

lemma exec_getAllPrivateKeys {keys : Bytes → List PrivateKey} (h : Holds env kc s t)
    (hkeys : ∀ i e, t i = some e → passphrases.mapM (deriveKey env e.2) = .ok (keys e.2)) :
    exec (getAllPrivateKeys env kc passphrases) s = (.ok ((entries (MAX_KEYS + 1) t).flatMap fun e =>
        ((keys e.2).filter fun key => env.getG1 key = e.1).map fun key => (key, e.2)), s) := by
  rw [flatMap_eq_foldl]
  refine exec_walk h ?_ []
  intro i e acc he
  rw [hkeys i e he]
  rfl

lemma exec_freeIndexFrom (h : Holds env kc s t) (hfree : FirstFree t i) {fuel : ℕ} (hle : index ≤ i)
    (hfuel : i < index + fuel) : exec (freeIndexFrom env kc fuel index) s = (.ok i, s) := by
  induction fuel generalizing index with
  | zero => omega
  | succ fuel ih =>
    unfold freeIndexFrom
    rw [exec_bind_of_ok (by rw [exec_getPkAndEntropy, h.slot_eq])]
    rcases Nat.eq_or_lt_of_le hle with rfl | hlt
    · rw [hfree.1]
      rfl
    · obtain ⟨e, he⟩ := hfree.2 index hlt
      rw [he]
      exact ih hlt (by omega)

lemma exec_getFreePrivateKeyIndex (h : Holds env kc s t) (hfree : FirstFree t i) :
    exec (getFreePrivateKeyIndex env kc) s = (.ok i, s) := by
  have hle : i ≤ s.entries.length := by
    refine le_length_of_contains (slotName_injective kc) fun j hj => ?_
    obtain ⟨e, he⟩ := hfree.2 j hj
    exact h.present he
  exact exec_freeIndexFrom h hfree (Nat.zero_le i) (by omega)

section Additions

variable {mnemonic phrase : PyStr} {seed entropy : Bytes}

lemma exec_addPrivateKey (h : Holds env kc s t) (hseed : mnemonicToSeed env mnemonic phrase = .ok seed)
    (hentropy : bytesFromMnemonic env mnemonic = .ok entropy) (hfree : FirstFree t i) :
    exec (addPrivateKey env kc mnemonic phrase) s = (.ok (env.keyGen seed),
        if env.getFingerprint (env.getG1 (env.keyGen seed)) ∈
          ((entries (MAX_KEYS + 1) t).map Prod.fst).map env.getFingerprint then s
        else s.set (slotName kc i) (hexStr (env.getG1 (env.keyGen seed)).toBytes ++ hexStr entropy)) := by
  unfold addPrivateKey
  rw [hseed, hentropy, exec_lift_ok_bind, exec_lift_ok_bind, exec_bind_of_ok (exec_getFreePrivateKeyIndex h hfree)]
  rw [exec_bind_of_ok (exec_getAllPublicKeys h)]
  split
  · rfl
  · rfl

lemma exec_addPrivateKey_error {e : PyError} (h : exec (addPrivateKey env kc mnemonic phrase) s = (.error e, s'))
    (hholds : Holds env kc s t) (hfree : FirstFree t i) : s' = s := by
  unfold addPrivateKey at h
  cases hseed : mnemonicToSeed env mnemonic phrase with
  | error e =>
    rw [hseed] at h
    cases h
    rfl
  | ok seed =>
    cases hentropy : bytesFromMnemonic env mnemonic with
    | error e =>
      rw [hseed, hentropy] at h
      cases h
      rfl
    | ok entropy =>
      have hrun := exec_addPrivateKey hholds hseed hentropy hfree
      unfold addPrivateKey at hrun
      rw [h] at hrun
      cases hrun

end Additions

lemma exec_deletePassword (h : Holds env kc s t) (he : t index = some e) :
    exec (deletePassword (getService kc) (getPrivateKeyUser kc index)) s = (.ok (), s.erase (slotName kc index)) := by
  have hcontains : s.contains (slotName kc index) = true := Dict.contains_iff.mpr (h.present he)
  change exec (if s.contains (slotName kc index) then _ else _) s = _
  rw [if_pos hcontains]
  rfl

def other (env : Env) (fingerprint : ℕ) (e : G1Element × Bytes) : Bool := env.getFingerprint e.1 ≠ fingerprint

lemma exec_deleteKeyFrom (left index : ℕ) (h : Holds env kc s t) :
    ∃ s', exec (walkFrom env kc (fun index pk _ acc => do
        if env.getFingerprint pk = fp then deletePassword (getService kc) (getPrivateKeyUser kc index)
        return .yield acc) left index (t index) ()) s = (.ok (), s') ∧
      Holds env kc s' fun i => if index ≤ i ∧ i < index + left then (t i).filter (other env fp) else t i := by
  induction left generalizing index s t with
  | zero =>
    refine ⟨s, rfl, ?_⟩
    simp only [show ∀ i, ¬ (index ≤ i ∧ i < index + 0) from fun i => by omega, if_false]
    exact h
  | succ left ih =>
    -- the slot is emptied if it has the fingerprint
    have hslot : ∃ s₁, exec (visitSlot (fun index pk _ acc => do
          if env.getFingerprint pk = fp then deletePassword (getService kc) (getPrivateKeyUser kc index)
          return .yield acc) index () (t index)) s = (.ok (.yield ()), s₁) ∧
        Holds env kc s₁ (update t index ((t index).filter (other env fp))) := by
      cases hentry : t index with
      | none =>
        refine ⟨s, rfl, ?_⟩
        rw [Option.filter_none, ← hentry, update_eq_self]
        exact h
      | some e =>
        by_cases hsame : env.getFingerprint e.1 = fp
        · refine ⟨s.erase (slotName kc index), ?_, ?_⟩
          · change exec (if env.getFingerprint e.1 = fp then _ else _) s = _
            rw [if_pos hsame, exec_bind_of_ok (exec_deletePassword h hentry)]
            rfl
          · rw [Option.filter_some_neg (by simp [other, hsame])]
            exact h.erase index
        refine ⟨s, ?_, ?_⟩
        · change exec (if env.getFingerprint e.1 = fp then _ else _) s = _
          rw [if_neg hsame]
          rfl
        · rw [Option.filter_some_pos (by simp [other, hsame]), ← hentry, update_eq_self]
          exact h
    obtain ⟨s₁, hrun₁, hholds₁⟩ := hslot
    obtain ⟨s₂, hrun₂, hholds₂⟩ := ih (index + 1) hholds₁
    refine ⟨s₂, ?_, ?_⟩
    · unfold walkFrom
      rw [exec_bind_of_ok hrun₁]
      rw [exec_bind_of_ok (by rw [exec_getPkAndEntropy, hholds₁.slot_eq])]
      exact hrun₂
    convert hholds₂ using 2 with i
    rw [update_apply]
    by_cases hi : i = index
    · subst hi
      simp
    · rw [if_neg hi]
      simp only [show (index ≤ i ∧ i < index + (left + 1)) ↔ (index + 1 ≤ i ∧ i < index + 1 + left) by omega]

abbrev KeySlots (env : Env) := Slots (fun e : G1Element × Bytes => env.getFingerprint e.1) (MAX_KEYS + 1)

variable {T : KeySlots env}

lemma exec_deleteKeyByFingerprint (h : Holds env kc s T.entry) (fp : ℕ) :
    ∃ s', exec (deleteKeyByFingerprint env kc fp) s = (.ok (), s') ∧ Holds env kc s' (T.removeKey fp).entry := by
  obtain ⟨s', hrun, hholds⟩ := exec_deleteKeyFrom (MAX_KEYS + 1) 0 h
  refine ⟨s', ?_, ?_⟩
  · unfold deleteKeyByFingerprint walk
    rw [exec_bind_of_ok (by rw [exec_getPkAndEntropy, h.slot_eq])]
    exact hrun
  convert hholds using 2 with i
  by_cases hi : i < MAX_KEYS + 1
  · rw [if_pos ⟨Nat.zero_le i, by omega⟩]
    rfl
  · rw [if_neg (by omega)]
    change (T.entry i).filter _ = T.entry i
    rw [T.within i (by omega), Option.filter_none]

lemma exec_deleteSlot (h : Holds env kc s t) (index : ℕ) (pkent : Option (G1Element × Bytes)) (deleteException : Bool) :
    ∃ s', exec (deleteSlot env kc index pkent deleteException) s =
        (.ok (t index, (t index).isNone || deleteException), s') ∧
      Holds env kc s' (update t index none) := by
  cases hentry : t index with
  | none =>
    refine ⟨s, ?_, ?_⟩
    · have hcontains : ¬ s.contains (slotName kc index) = true := by
        intro hcontains
        obtain ⟨password, hpassword⟩ := Dict.contains_iff.mp hcontains
        rw [h.absent index hentry] at hpassword
        cases hpassword
      have hdelete : exec (deletePassword (getService kc) (getPrivateKeyUser kc index)) s =
          (.error .passwordDeleteError, s) := by
        change exec (if s.contains (slotName kc index) then _ else _) s = _
        rw [if_neg hcontains]
        rfl
      unfold deleteSlot
      rw [exec_tryCatch, exec_bind_of_ok (by rw [exec_getPkAndEntropy, h.slot_eq]), exec_tryCatch,
        exec_bind_of_error hdelete, hentry]
      rfl
    · rw [← hentry, update_eq_self]
      exact h
  | some e =>
    refine ⟨s.erase (slotName kc index), ?_, h.erase index⟩
    unfold deleteSlot
    rw [exec_tryCatch, exec_bind_of_ok (by rw [exec_getPkAndEntropy, h.slot_eq]), exec_tryCatch,
      exec_bind_of_ok (exec_deletePassword h hentry), hentry]
    rfl

lemma exec_deleteFrom (h : Holds env kc s t) (hwithin : ∀ i, MAX_KEYS + 1 ≤ i → t i = none) (fuel index : ℕ)
    (hle : index ≤ MAX_KEYS + 1) (hfuel : MAX_KEYS + 2 ≤ index + fuel) (pkent : Option (G1Element × Bytes))
    (deleteException : Bool) :
    ∃ s', exec (deleteFrom env kc fuel index pkent deleteException) s = (.ok (), s') ∧
      Holds env kc s' fun i => if i < index then t i else none := by
  induction fuel generalizing s t index pkent deleteException with
  | zero => omega
  | succ fuel ih =>
    obtain ⟨s₁, hrun₁, hholds₁⟩ := exec_deleteSlot h index pkent deleteException
    unfold deleteFrom
    rw [exec_bind_of_ok hrun₁]
    dsimp only
    by_cases hlast : index = MAX_KEYS + 1
    · have hnone : t index = none := hwithin index (by omega)
      rw [if_pos ⟨.inl (by rw [hnone]; rfl), by omega⟩]
      refine ⟨s₁, rfl, ?_⟩
      convert hholds₁ using 2 with i
      rw [update_apply]
      by_cases hi : i < index
      · rw [if_pos hi, if_neg (by omega)]
      · rw [if_neg hi]
        split
        · rfl
        · exact (hwithin i (by omega)).symm
    · rw [if_neg (by omega)]
      have hwithin₁ : ∀ i, MAX_KEYS + 1 ≤ i → update t index none i = none := by
        intro i hi
        rw [update_of_ne (by omega)]
        exact hwithin i hi
      obtain ⟨s₂, hrun₂, hholds₂⟩ := ih hholds₁ hwithin₁ (index + 1) (by omega) (by omega) (t index)
        ((t index).isNone || deleteException)
      refine ⟨s₂, hrun₂, ?_⟩
      convert hholds₂ using 2 with i
      rw [update_apply]
      by_cases hi : i = index
      · simp [hi]
      · rw [if_neg hi]
        simp only [show i < index ↔ i < index + 1 by omega]

lemma exec_deleteAllKeys (h : Holds env kc s T.entry) :
    ∃ s', exec (deleteAllKeys env kc) s = (.ok (), s') ∧ Holds env kc s' (Slots.empty : KeySlots env).entry := by
  obtain ⟨s₁, hrun₁, hholds₁⟩ := exec_deleteFrom h T.within (s.entries.length + MAX_KEYS + 2) 0 (Nat.zero_le _)
    (by omega) none false
  obtain ⟨s₂, hrun₂, hholds₂⟩ := exec_deleteFrom hholds₁ (fun _ _ => rfl) (s₁.entries.length + MAX_KEYS + 2) 0
    (Nat.zero_le _) (by omega) none true
  refine ⟨s₂, ?_, hholds₂⟩
  unfold deleteAllKeys
  rw [exec_get_bind, exec_bind_of_ok hrun₁, exec_get_bind, hrun₂]

structure AddedKey where
  key : PrivateKey
  entropy : Bytes
  passphrase : PyStr

variable {live : List AddedKey}

/-- There is a free slot in reach, and no other key is stored with the fingerprint. -/
structure Room (env : Env) (kc : Keychain) (s : Keyring) (mnemonic passphrase : PyStr) : Prop where
  free : ∃ index, index ≤ MAX_KEYS ∧ slot env kc s index = .ok none
  distinct : ∀ seed entropy index pk ent, mnemonicToSeed env mnemonic passphrase = .ok seed →
    bytesFromMnemonic env mnemonic = .ok entropy → slot env kc s index = .ok (some (pk, ent)) →
    env.getFingerprint pk = env.getFingerprint (env.getG1 (env.keyGen seed)) →
    pk = env.getG1 (env.keyGen seed) ∧ ent = entropy

/-- Keyrings after additions and deletions, with the keys that were added and not deleted. -/
inductive Reached (env : Env) (kc : Keychain) (Ok : Keyring → PyStr → PyStr → Prop) : Keyring → List AddedKey → Prop
  | start {s : Keyring} : (∀ index, s.get? (slotName kc index) = none) → Reached env kc Ok s []
  | add {s s' : Keyring} {live mnemonic passphrase key entropy} : Reached env kc Ok s live → Ok s mnemonic passphrase →
      exec (addPrivateKey env kc mnemonic passphrase) s = (.ok key, s') → bytesFromMnemonic env mnemonic = .ok entropy →
      Reached env kc Ok s' (⟨key, entropy, passphrase⟩ :: live)
  | rejected {s s' : Keyring} {live mnemonic passphrase e} : Reached env kc Ok s live → Ok s mnemonic passphrase →
      exec (addPrivateKey env kc mnemonic passphrase) s = (.error e, s') → Reached env kc Ok s' live
  | delete {s s' : Keyring} {live fingerprint r} : Reached env kc Ok s live →
      exec (deleteKeyByFingerprint env kc fingerprint) s = (r, s') →
      Reached env kc Ok s' (live.filter fun a => env.getFingerprint (env.getG1 a.key) ≠ fingerprint)
  | deleteAll {s s' : Keyring} {live r} : Reached env kc Ok s live → exec (deleteAllKeys env kc) s = (r, s') →
      Reached env kc Ok s' []

/-- Entropy whose keys can be derived with every passphrase that can be encoded. -/
def Readable (env : Env) (entropy : Bytes) : Prop :=
  ∃ mnemonic bs, bytesToMnemonic env entropy = .ok mnemonic ∧ encodeUtf8 (env.normalize mnemonic) = .ok bs

/-- A table that a keychain holds and that has the keys. -/
structure Stores (env : Env) (kc : Keychain) (s : Keyring) (T : KeySlots env) (live : List AddedKey) : Prop where
  holds : Holds env kc s T.entry
  readable : ∀ i e, T.entry i = some e → Readable env e.2
  stored : ∀ a ∈ live, ∃ i, T.entry i = some (env.getG1 a.key, a.entropy)
  derived : ∀ a ∈ live, deriveKey env a.entropy a.passphrase = .ok a.key

lemma mnemonicToSeed_ok {mnemonic phrase : PyStr} {seed : Bytes} (h : mnemonicToSeed env mnemonic phrase = .ok seed) :
    ∃ bs, encodeUtf8 (env.normalize mnemonic) = .ok bs := by
  obtain ⟨salt, -, h⟩ := bind_eq_ok.mp h
  obtain ⟨bs, hbs, -⟩ := bind_eq_ok.mp h
  exact ⟨bs, hbs⟩

lemma deriveKey_of_mnemonic {mnemonic phrase : PyStr} {seed entropy : Bytes}
    (hseed : mnemonicToSeed env mnemonic phrase = .ok seed) (hentropy : bytesFromMnemonic env mnemonic = .ok entropy) :
    deriveKey env entropy phrase = .ok (env.keyGen seed) := by
  unfold deriveKey
  rw [bytesToMnemonic_iff.mpr hentropy, ok_bind, hseed]
  rfl

lemma Stores.add (h : Stores env kc s T live) {mnemonic phrase : PyStr}
    {key : PrivateKey} {entropy : Bytes} (hroom : Room env kc s mnemonic phrase)
    (hrun : exec (addPrivateKey env kc mnemonic phrase) s = (.ok key, s'))
    (hentropy : bytesFromMnemonic env mnemonic = .ok entropy) :
    ∃ T', Stores env kc s' T' (⟨key, entropy, phrase⟩ :: live) := by
  obtain ⟨k, hk, hfree⟩ := hroom.free
  rw [h.holds.slot_eq, Except.ok.injEq] at hfree
  obtain ⟨i, hfirst, hle⟩ := exists_firstFree hfree
  obtain ⟨seed, hseed⟩ : ∃ seed, mnemonicToSeed env mnemonic phrase = .ok seed := by
    cases hseed : mnemonicToSeed env mnemonic phrase with
    | error e =>
      unfold addPrivateKey at hrun
      rw [hseed] at hrun
      cases hrun
    | ok seed => exact ⟨seed, rfl⟩
  obtain ⟨hkey, hs'⟩ := Prod.mk.injEq .. ▸ (exec_addPrivateKey h.holds hseed hentropy hfirst).symm.trans hrun
  rw [Except.ok.injEq] at hkey
  subst hkey
  have hderived : ∀ a ∈ (⟨env.keyGen seed, entropy, phrase⟩ :: live : List AddedKey),
      deriveKey env a.entropy a.passphrase = .ok a.key :=
    forall_mem_cons.mpr ⟨deriveKey_of_mnemonic hseed hentropy, h.derived⟩
  split at hs'
  · rename_i hknown
    subst hs'
    rw [map_map] at hknown
    obtain ⟨e, he, hsame⟩ := mem_map.mp hknown
    obtain ⟨j, -, hj⟩ := mem_entries.mp he
    have hslot := h.holds.slot_eq j
    rw [hj] at hslot
    obtain ⟨hpk, hent⟩ := hroom.distinct seed entropy j e.1 e.2 hseed hentropy hslot hsame
    exact ⟨T, h.holds, h.readable, forall_mem_cons.mpr ⟨⟨j, by rw [hj, ← hpk, ← hent]⟩, h.stored⟩, hderived⟩
  · rename_i hnew
    subst hs'
    have hfresh : ∀ j e, T.entry j = some e →
        env.getFingerprint e.1 ≠ env.getFingerprint (env.getG1 (env.keyGen seed)) := by
      intro j e he hsame
      refine hnew ?_
      rw [map_map]
      exact mem_map.mpr ⟨e, mem_entries.mpr ⟨j, T.lt_of_entry he, he⟩, hsame⟩
    refine ⟨T.put i (env.getG1 (env.keyGen seed), entropy) (by omega) hfresh, h.holds.set i _ _, ?_,
      forall_mem_cons.mpr ⟨⟨i, Function.update_self ..⟩, ?_⟩, hderived⟩
    · intro j e he
      change update T.entry i _ j = some e at he
      rw [update_apply] at he
      split at he
      · cases he
        obtain ⟨bs, hbs⟩ := mnemonicToSeed_ok hseed
        exact ⟨mnemonic, bs, bytesToMnemonic_iff.mpr hentropy, hbs⟩
      · exact h.readable j e he
    · intro a ha
      obtain ⟨j, hj⟩ := h.stored a ha
      have hne : j ≠ i := by
        rintro rfl
        rw [hfirst.1] at hj
        cases hj
      exact ⟨j, by change update T.entry i _ j = _; rw [update_of_ne hne, hj]⟩

lemma Stores.delete (h : Stores env kc s T live) (hholds : Holds env kc s' (T.removeKey fp).entry) :
    Stores env kc s' (T.removeKey fp)
      (live.filter fun a => env.getFingerprint (env.getG1 a.key) ≠ fp) where
  holds := hholds
  readable := fun i e he => h.readable i e (Option.eq_some_of_filter_eq_some he)
  stored := by
    intro a ha
    obtain ⟨hlive, hother⟩ := mem_filter.mp ha
    obtain ⟨i, hi⟩ := h.stored a hlive
    refine ⟨i, ?_⟩
    change (T.entry i).filter _ = _
    rw [hi]
    exact Option.filter_some_pos hother
  derived := fun a ha => h.derived a (mem_filter.mp ha).1

lemma stores_empty (h : Holds env kc s (Slots.empty : KeySlots env).entry) : Stores env kc s .empty [] where
  holds := h
  readable := fun _ _ he => nomatch he
  stored := fun _ ha => nomatch ha
  derived := fun _ ha => nomatch ha

lemma stores_of_reached (h : Reached env kc (Room env kc) s live) : ∃ T, Stores env kc s T live := by
  induction h with
  | start hfree =>
    refine ⟨.empty, stores_empty ⟨fun index => ?_, fun index _ => hfree index⟩⟩
    unfold slot
    rw [hfree index]
    rfl
  | add _ hroom hrun hentropy ih =>
    obtain ⟨T, hT⟩ := ih
    exact hT.add hroom hrun hentropy
  | rejected _ hroom hrun ih =>
    obtain ⟨T, hT⟩ := ih
    obtain ⟨k, -, hfree⟩ := hroom.free
    rw [hT.holds.slot_eq, Except.ok.injEq] at hfree
    obtain ⟨i, hfirst, -⟩ := exists_firstFree hfree
    rw [exec_addPrivateKey_error hrun hT.holds hfirst]
    exact ⟨T, hT⟩
  | delete _ hrun ih =>
    obtain ⟨T, hT⟩ := ih
    obtain ⟨s₁, hrun₁, hholds⟩ := exec_deleteKeyByFingerprint hT.holds _
    cases hrun.symm.trans hrun₁
    exact ⟨_, hT.delete hholds⟩
  | deleteAll _ hrun ih =>
    obtain ⟨T, hT⟩ := ih
    obtain ⟨s₁, hrun₁, hholds⟩ := exec_deleteAllKeys hT.holds
    cases hrun.symm.trans hrun₁
    exact ⟨.empty, stores_empty hholds⟩

def Encodable (env : Env) (pp : PyStr) : Prop := ∃ salt, encodeUtf8 (env.normalize (text "mnemonic" ++ pp)) = .ok salt

/-- A key is listed and can be deleted, and one slot has it. -/
structure IsReachable (env : Env) (kc : Keychain) (s : Keyring) (a : AddedKey) : Prop where
  listed : ∃ pks, exec (getAllPublicKeys env kc) s = (.ok pks, s) ∧ env.getG1 a.key ∈ pks
  derivable : ∀ passphrases, a.passphrase ∈ passphrases → (∀ pp ∈ passphrases, Encodable env pp) →
    ∃ keys, exec (getAllPrivateKeys env kc passphrases) s = (.ok keys, s) ∧ (a.key, a.entropy) ∈ keys
  deletable : ∃ s', exec (deleteKeyByFingerprint env kc (env.getFingerprint (env.getG1 a.key))) s = (.ok (), s') ∧
    ∀ index, slot env kc s' index ≠ .ok (some (env.getG1 a.key, a.entropy))
  ownSlot : ∃! index, slot env kc s index = .ok (some (env.getG1 a.key, a.entropy))

lemma mapM_deriveKey {entropy : Bytes} (hreadable : Readable env entropy)
    (h : ∀ pp ∈ passphrases, Encodable env pp) : ∃ keys, passphrases.mapM (deriveKey env entropy) = .ok keys := by
  obtain ⟨mnemonic, bs, hmnemonic, hbs⟩ := hreadable
  induction passphrases with
  | nil => exact ⟨[], rfl⟩
  | cons pp passphrases ih =>
    rw [forall_mem_cons] at h
    obtain ⟨⟨salt, hsalt⟩, hrest⟩ := h
    obtain ⟨keys, hkeys⟩ := ih hrest
    refine ⟨env.keyGen (env.pbkdf2Hmac bs salt 2048).toBytes :: keys, ?_⟩
    have hderive : deriveKey env entropy pp = .ok (env.keyGen (env.pbkdf2Hmac bs salt 2048).toBytes) := by
      unfold deriveKey mnemonicToSeed
      dsimp only
      rw [hmnemonic, ok_bind, hsalt, hbs]
      rfl
    exact mapM_eq_ok.mpr (.cons hderive (mapM_eq_ok.mp hkeys))

lemma Stores.isReachable (h : Stores env kc s T live) {a : AddedKey} (ha : a ∈ live) : IsReachable env kc s a := by
  obtain ⟨i, hi⟩ := h.stored a ha
  have hmem : (env.getG1 a.key, a.entropy) ∈ entries (MAX_KEYS + 1) T.entry := T.mem_entries_iff.mpr ⟨i, hi⟩
  refine ⟨⟨_, exec_getAllPublicKeys h.holds, mem_map_of_mem hmem⟩, ?_, ?_, i, ?_, ?_⟩
  · intro passphrases hpass hencodable
    have hall : ∀ entropy, ∃ keys, Readable env entropy → passphrases.mapM (deriveKey env entropy) = .ok keys := by
      intro entropy
      by_cases hreadable : Readable env entropy
      · obtain ⟨keys, hkeys⟩ := mapM_deriveKey hreadable hencodable
        exact ⟨keys, fun _ => hkeys⟩
      · exact ⟨[], fun hr => absurd hr hreadable⟩
    choose keys hkeys using hall
    refine ⟨_, exec_getAllPrivateKeys h.holds fun j e he => hkeys e.2 (h.readable j e he), ?_⟩
    refine mem_flatMap.mpr ⟨_, hmem, mem_map.mpr ⟨a.key, mem_filter.mpr ⟨?_, decide_eq_true rfl⟩, rfl⟩⟩
    obtain ⟨key, hkey, hderived⟩ := exists_of_mem_left (mapM_eq_ok.mp (hkeys _ (h.readable i _ hi))) hpass
    rw [h.derived a ha, Except.ok.injEq] at hderived
    exact hderived ▸ hkey
  · obtain ⟨s₁, hrun, hholds⟩ := exec_deleteKeyByFingerprint h.holds (env.getFingerprint (env.getG1 a.key))
    refine ⟨s₁, hrun, fun index hslot => ?_⟩
    rw [hholds.slot_eq, Except.ok.injEq] at hslot
    obtain ⟨-, hother⟩ := Option.filter_eq_some_iff.mp hslot
    simp at hother
  · exact (h.holds.slot_eq i).trans (congrArg _ hi)
  · intro j hj
    rw [h.holds.slot_eq, Except.ok.injEq] at hj
    exact T.keyed j i _ _ hj hi rfl

/-- In a history in which every addition finds room, the keys that were added and not deleted stay reachable. -/
theorem added_keys_reachable (env : Env) (kc : Keychain) (s : Keyring) (live : List AddedKey)
    (h : Reached env kc (Room env kc) s live) : ∀ a ∈ live, IsReachable env kc s a := by
  obtain ⟨T, hT⟩ := stores_of_reached h
  exact fun a ha => hT.isReachable ha

def sampleKeychain : Keychain := ⟨text "user", false⟩

def samplePositions (n : ℕ) : List ℕ := n :: List.replicate 11 0

def sampleEntropy (n : ℕ) : Bytes := bytesOfBits ((packBits 11 (samplePositions n)).take 128)

def sampleMnemonic (n : ℕ) : PyStr := [SPACE].intercalate (sampleWord n :: List.replicate 11 (sampleWord 0))

def sampleKey (n : ℕ) : PrivateKey :=
  sampleBytes 32 (sampleBytes 64 (((encodeUtf8 (sampleMnemonic n)).toOption.getD []).take 16 ++
    ((encodeUtf8 (text "mnemonic")).toOption.getD []).take 16)).toBytes

lemma wordAt_sampleEnv (h : n < 2048) : wordAt sampleEnv n = .ok (sampleWord n) := by
  have hwords : sampleEnv.wordList.words = (List.range 2048).map sampleWord := by simp only [sampleEnv, sampleWords]
  rw [wordAt_eq_ok, hwords, getElem?_map, getElem?_range h, Option.map_some]

lemma entropyBits_sample (n : ℕ) :
    (sampleEntropy n).length = 16 ∧ entropyBits sampleEnv (sampleEntropy n) = packBits 11 (samplePositions n) := by
  have htake : ((packBits 11 (samplePositions n)).take 128).length = 128 := by simp [samplePositions]
  have hbits : bitArray (sampleEntropy n) = (packBits 11 (samplePositions n)).take 128 :=
    bitArray_bytesOfBits (by rw [htake]; decide)
  have hlength : (sampleEntropy n).length = 16 := by
    have hbytes := length_bitArray (sampleEntropy n)
    rw [hbits] at hbytes
    omega
  have hdrop : (packBits 11 (samplePositions n)).drop 128 = List.replicate 4 false := by
    have hcons : packBits 11 (samplePositions n) = bitsOfNat 11 n ++ packBits 11 (List.replicate 11 0) := rfl
    rw [hcons, drop_append, drop_eq_nil_of_le (by simp), length_bitsOfNat]
    decide +kernel
  have hzeros : (bitArray (sampleEnv.stdHash (sampleEntropy n)).toBytes).take 4 = List.replicate 4 false :=
    show (bitArray (SizedBytes.ofNat 32 0).toBytes).take 4 = _ by decide +kernel
  refine ⟨hlength, ?_⟩
  rw [entropyBits, hbits, hlength, hzeros, ← hdrop, take_append_drop]

lemma bytesFromMnemonic_sample (h : n < 102) :
    bytesFromMnemonic sampleEnv (sampleMnemonic n) = .ok (sampleEntropy n) := by
  have hpositions : ∀ value ∈ samplePositions n, value < 2 ^ 11 := by
    intro value hvalue
    rcases mem_cons.mp hvalue with rfl | hzero
    · omega
    · rw [eq_of_mem_replicate hzero]
      decide
  have hwords : (samplePositions n).mapM (wordAt sampleEnv) =
      .ok (sampleWord n :: List.replicate 11 (sampleWord 0)) := by
    rw [mapM_eq_ok]
    refine .cons (wordAt_sampleEnv (by omega)) ?_
    rw [forall₂_iff_get]
    refine ⟨by simp, fun i hi hi' => ?_⟩
    rw [get_eq_getElem, get_eq_getElem, getElem_replicate, getElem_replicate]
    exact wordAt_sampleEnv (by decide)
  obtain ⟨hlength, hbits⟩ := entropyBits_sample n
  refine bytesToMnemonic_iff.mp (bytesToMnemonic_eq_ok.mpr ⟨?_, _, ?_, rfl⟩)
  · rw [hlength]
    decide
  · rw [hbits, unpackBits_packBits (by decide) hpositions, hwords]

lemma mnemonicToSeed_sample : ∀ n < 102, (mnemonicToSeed sampleEnv (sampleMnemonic n) []).map sampleEnv.keyGen =
    .ok (sampleKey n) := by
  decide +kernel

def sampleFingerprint (n : ℕ) : ℕ := sampleEnv.getFingerprint (sampleEnv.getG1 (sampleKey n))

lemma sampleFingerprint_lt {j : ℕ} (hij : i < j) (hj : j < 102) : sampleFingerprint i < sampleFingerprint j := by
  have hsucc : ∀ n < 101, sampleFingerprint n < sampleFingerprint (n + 1) := by decide +kernel
  induction j, hij using Nat.le_induction with
  | base => exact hsucc i (by omega)
  | succ j hij ih => exact Nat.lt_trans (ih (by omega)) (hsucc j (by omega))

def sampleTable (n i : ℕ) : Option (G1Element × Bytes) :=
  if i < n then some (sampleEnv.getG1 (sampleKey i), sampleEntropy i) else none

lemma update_sampleTable (n : ℕ) :
    update (sampleTable n) n (some (sampleEnv.getG1 (sampleKey n), sampleEntropy n)) = sampleTable (n + 1) := by
  funext i
  unfold sampleTable
  rw [update_apply]
  by_cases hi : i = n
  · rw [if_pos hi, if_pos (by omega), hi]
  · rw [if_neg hi]
    simp only [show i < n ↔ i < n + 1 by omega]

lemma sample_added (hn : n < 102) {s : Keyring} (h : Holds sampleEnv sampleKeychain s (sampleTable n)) :
    ∃ s', exec (addPrivateKey sampleEnv sampleKeychain (sampleMnemonic n) []) s = (.ok (sampleKey n), s') ∧
      Holds sampleEnv sampleKeychain s' (sampleTable (n + 1)) := by
  have hfree : FirstFree (sampleTable n) n := by
    refine ⟨if_neg (by omega), fun j hj => ⟨_, if_pos hj⟩⟩
  obtain ⟨seed, hseed, hkey⟩ := map_eq_ok.mp (mnemonicToSeed_sample n hn)
  have hnew : ¬ sampleFingerprint n ∈
      ((entries (MAX_KEYS + 1) (sampleTable n)).map Prod.fst).map sampleEnv.getFingerprint := by
    rw [map_map]
    intro hmem
    obtain ⟨e, he, hsame⟩ := mem_map.mp hmem
    obtain ⟨i, -, hi⟩ := mem_entries.mp he
    unfold sampleTable at hi
    split at hi
    · rename_i hlt
      rw [← Option.some.inj hi] at hsame
      exact (sampleFingerprint_lt hlt hn).ne hsame
    · cases hi
  have hrun := exec_addPrivateKey h hseed (bytesFromMnemonic_sample hn) hfree
  rw [hkey] at hrun
  exact ⟨_, hrun.trans (congrArg _ (if_neg hnew)), update_sampleTable n ▸ h.set n (sampleKey n) (sampleEntropy n)⟩

lemma sample_reached {Ok : Keyring → PyStr → PyStr → Prop} (n : ℕ) (hn : n ≤ 102)
    (hok : ∀ i < n, ∀ s, Holds sampleEnv sampleKeychain s (sampleTable i) → Ok s (sampleMnemonic i) []) :
    ∃ s live, Reached sampleEnv sampleKeychain Ok s live ∧ Holds sampleEnv sampleKeychain s (sampleTable n) ∧
      live.length = n ∧ ∀ i, i + 1 = n → ⟨sampleKey i, sampleEntropy i, []⟩ ∈ live := by
  induction n with
  | zero => exact ⟨.empty, [], .start fun _ => rfl, ⟨fun _ => rfl, fun _ _ => rfl⟩, rfl, nofun⟩
  | succ n ih =>
    obtain ⟨s, live, hreached, hholds, hlength, -⟩ := ih (by omega) fun i hi => hok i (by omega)
    obtain ⟨s', hadd, hholds'⟩ := sample_added (by omega) hholds
    refine ⟨s', _, .add hreached (hok n n.lt_succ_self s hholds) hadd (bytesFromMnemonic_sample (by omega)), hholds',
      congrArg (· + 1) hlength, fun i hi => ?_⟩
    rw [Nat.add_right_cancel hi]
    exact mem_cons_self

lemma sample_room (hn : n < 101) {s : Keyring} (h : Holds sampleEnv sampleKeychain s (sampleTable n)) :
    Room sampleEnv sampleKeychain s (sampleMnemonic n) [] where
  free := ⟨n, Nat.le_of_lt_succ hn, by rw [h.slot_eq, sampleTable, if_neg (lt_irrefl n)]⟩
  distinct seed entropy index pk ent hseed _ hslot hsame := by
    rw [h.slot_eq, sampleTable] at hslot
    have hkey := mnemonicToSeed_sample n (by omega)
    rw [hseed] at hkey
    have hkey : sampleEnv.keyGen seed = sampleKey n := Except.ok.inj hkey
    split at hslot
    · rename_i hlt
      obtain ⟨rfl, -⟩ := Prod.mk.inj (Option.some.inj (Except.ok.inj hslot))
      rw [hkey] at hsame
      exact absurd hsame (sampleFingerprint_lt hlt (by omega)).ne
    · exact absurd (Except.ok.inj hslot) nofun

/-- A full keychain. -/
theorem added_keys_reachable_full : ∃ s live, live.length = 101 ∧
    Reached sampleEnv sampleKeychain (Room sampleEnv sampleKeychain) s live ∧
      ∀ a ∈ live, IsReachable sampleEnv sampleKeychain s a := by
  obtain ⟨s, live, hreached, -, hlength, -⟩ := sample_reached 101 (by decide) fun i hi s hs => sample_room hi hs
  exact ⟨s, live, hlength, hreached, added_keys_reachable sampleEnv sampleKeychain s live hreached⟩

/-- After 102 additions the last key is in a slot that no lookup reaches. -/
theorem last_key_not_listed : ∃ s live pks, Reached sampleEnv sampleKeychain (fun _ _ _ => True) s live ∧
      ⟨sampleKey 101, sampleEntropy 101, []⟩ ∈ live ∧
      exec (getAllPublicKeys sampleEnv sampleKeychain) s = (.ok pks, s) ∧ sampleEnv.getG1 (sampleKey 101) ∉ pks := by
  obtain ⟨s, live, hreached, hholds, -, hlast⟩ := @sample_reached (fun _ _ _ => True) 102 le_rfl fun _ _ _ _ => trivial
  refine ⟨s, live, _, hreached, hlast 101 rfl, exec_getAllPublicKeys hholds, ?_⟩
  intro hmem
  obtain ⟨e, he, hsame⟩ := mem_map.mp hmem
  obtain ⟨i, hi, hentry⟩ := mem_entries.mp he
  have hlt : i < 101 := hi
  rw [sampleTable, if_pos (by omega)] at hentry
  rw [← Option.some.inj hentry] at hsame
  exact (sampleFingerprint_lt hlt (by decide)).ne (congrArg sampleEnv.getFingerprint hsame)

end SectorChain.Keychain
