import SectorChain.Proofs.StoredKeys

/-!
# Keys by their fingerprint

The stored public key is tested, so the key of the first passphrase is returned.
-/

namespace SectorChain.Keychain

open Lib

variable {env : Env} {kc : Keychain} {s s' : Keyring} {test : G1Element → PrivateKey → Bool} {phrases : List PyStr}
variable {ent : Bytes} {index left : ℕ} {key : PrivateKey}

def Passes (env : Env) (kc : Keychain) (s : Keyring) (test : G1Element → PrivateKey → Bool) (passphrases : List PyStr)
    (index : ℕ) : Prop :=
  slot env kc s index = .ok none ∨
    ∃ pk ent, slot env kc s index = .ok (some (pk, ent)) ∧ firstKey env (test pk) ent passphrases = .ok none

def Finds (env : Env) (kc : Keychain) (s : Keyring) (test : G1Element → PrivateKey → Bool) (passphrases : List PyStr)
    (index : ℕ) (key : PrivateKey) (ent : Bytes) : Prop :=
  ∃ pk, slot env kc s index = .ok (some (pk, ent)) ∧ firstKey env (test pk) ent passphrases = .ok (some key)

lemma Finds.not_passes (h : Finds env kc s test phrases index key ent) : ¬ Passes env kc s test phrases index := by
  obtain ⟨pk, hslot, hkey⟩ := h
  rintro (hnone | ⟨pk', ent', hslot', hkey'⟩)
  · rw [hslot] at hnone
    cases hnone
  · rw [hslot] at hslot'
    cases hslot'
    rw [hkey] at hkey'
    cases hkey'

/-- The body of the loop. -/
abbrev lookup (env : Env) (test : G1Element → PrivateKey → Bool) (passphrases : List PyStr) (_ : ℕ) (pk : G1Element)
    (ent : Bytes) (acc : Option (PrivateKey × Bytes)) : KeyringM (ForInStep (Option (PrivateKey × Bytes))) := do
  match ← liftM (firstKey env (test pk) ent passphrases) with
  | some key => return .done (some (key, ent))
  | none => return .yield acc

def FindsFrom (env : Env) (kc : Keychain) (s : Keyring) (test : G1Element → PrivateKey → Bool) (passphrases : List PyStr)
    (index left : ℕ) (key : PrivateKey) (ent : Bytes) : Prop :=
  ∃ i, index ≤ i ∧ i < index + left ∧ (∀ j, index ≤ j → j < i → Passes env kc s test passphrases j) ∧
    Finds env kc s test passphrases i key ent

lemma findsFrom_succ (h : Passes env kc s test phrases index) :
    FindsFrom env kc s test phrases index (left + 1) key ent ↔
      FindsFrom env kc s test phrases (index + 1) left key ent := by
  constructor
  · rintro ⟨i, hle, hlt, hpasses, hfinds⟩
    have hne : i ≠ index := fun hi => hfinds.not_passes (hi ▸ h)
    exact ⟨i, by omega, by omega, fun j hj hji => hpasses j (by omega) hji, hfinds⟩
  rintro ⟨i, hle, hlt, hpasses, hfinds⟩
  refine ⟨i, by omega, by omega, fun j hj hji => ?_, hfinds⟩
  rcases Nat.eq_or_lt_of_le hj with rfl | hlt
  · exact h
  · exact hpasses j hlt hji

lemma findsFrom_of_not_passes (h : ¬ Passes env kc s test phrases index) :
    FindsFrom env kc s test phrases index (left + 1) key ent ↔ Finds env kc s test phrases index key ent := by
  constructor
  · rintro ⟨i, hle, -, hpasses, hfinds⟩
    rcases Nat.eq_or_lt_of_le hle with rfl | hlt
    · exact hfinds
    · exact absurd (hpasses index le_rfl hlt) h
  · intro hfinds
    exact ⟨index, le_rfl, by omega, fun j hj hlt => absurd hlt (Nat.not_lt.mpr hj), hfinds⟩

lemma FindsFrom.slot_ok
    (h : FindsFrom env kc s test phrases index left key ent) : ∃ pkent, slot env kc s index = .ok pkent := by
  obtain ⟨i, hle, -, hpasses, pk, hslot, -⟩ := h
  rcases Nat.eq_or_lt_of_le hle with rfl | hlt
  · exact ⟨_, hslot⟩
  · rcases hpasses index le_rfl hlt with hnone | ⟨pk', ent', hslot', -⟩
    · exact ⟨_, hnone⟩
    · exact ⟨_, hslot'⟩

lemma exec_lookupFrom {pkent : Option (G1Element × Bytes)} (hslot : slot env kc s index = .ok pkent) :
    (∃ s', exec (walkFrom env kc (lookup env test phrases) left index pkent none) s = (.ok (some (key, ent)), s')) ↔
      FindsFrom env kc s test phrases index left key ent := by
  induction left generalizing index pkent with
  | zero =>
    constructor
    · rintro ⟨s', h⟩
      cases h
    · rintro ⟨i, hle, hlt, -⟩
      omega
  | succ left ih =>
    have hrest : Passes env kc s test phrases index →
        ((∃ s', exec (getPkAndEntropy env kc (getPrivateKeyUser kc (index + 1)) >>= fun pkent =>
          walkFrom env kc (lookup env test phrases) left (index + 1) pkent none) s = (.ok (some (key, ent)), s')) ↔
        FindsFrom env kc s test phrases index (left + 1) key ent) := by
      intro hpasses
      rw [findsFrom_succ hpasses]
      cases hnext : slot env kc s (index + 1) with
      | error e =>
        rw [exec_bind_of_error (by rw [exec_getPkAndEntropy, hnext])]
        constructor
        · rintro ⟨s', h⟩
          cases h
        · intro h
          obtain ⟨pkent', hok⟩ := h.slot_ok
          rw [hnext] at hok
          cases hok
      | ok pkent' =>
        rw [exec_bind_of_ok (by rw [exec_getPkAndEntropy, hnext])]
        exact ih hnext
    unfold walkFrom
    cases pkent with
    | none => exact hrest (.inl hslot)
    | some e =>
      have hvisit : exec (visitSlot (lookup env test phrases) index none (some e)) s =
          exec (liftM (firstKey env (test e.1) e.2 phrases) >>= fun found => match found with
            | some key => return .done (some (key, e.2))
            | none => return .yield none : KeyringM (ForInStep (Option (PrivateKey × Bytes)))) s := rfl
      have hpasses : Passes env kc s test phrases index ↔ firstKey env (test e.1) e.2 phrases = .ok none := by
        simp [Passes, hslot, Prod.ext_iff]
      have hfinds : Finds env kc s test phrases index key ent ↔
          e.2 = ent ∧ firstKey env (test e.1) e.2 phrases = .ok (some key) := by
        constructor
        · rintro ⟨pk, hslot', hkey⟩
          rw [hslot] at hslot'
          cases hslot'
          exact ⟨rfl, hkey⟩
        · rintro ⟨rfl, hkey⟩
          exact ⟨e.1, hslot, hkey⟩
      cases hfirst : firstKey env (test e.1) e.2 phrases with
      | error e' =>
        rw [exec_bind_of_error (by rw [hvisit, hfirst]; rfl), findsFrom_of_not_passes (by simp [hpasses, hfirst]), hfinds]
        simp [hfirst]
      | ok found =>
        cases found with
        | none =>
          rw [exec_bind_of_ok (by rw [hvisit, hfirst]; rfl)]
          exact hrest (hpasses.mpr hfirst)
        | some key' =>
          rw [exec_bind_of_ok (by rw [hvisit, hfirst]; rfl), findsFrom_of_not_passes (by simp [hpasses, hfirst]), hfinds]
          simp [hfirst, and_comm]

lemma exec_findPrivateKey : (∃ s', exec (findPrivateKey env kc test phrases) s = (.ok (some (key, ent)), s')) ↔
      FindsFrom env kc s test phrases 0 (MAX_KEYS + 1) key ent := by
  unfold findPrivateKey walk
  cases hslot : slot env kc s 0 with
  | error e =>
    rw [exec_bind_of_error (by rw [exec_getPkAndEntropy, hslot])]
    constructor
    · rintro ⟨s', h⟩
      cases h
    · intro h
      obtain ⟨pkent, hok⟩ := h.slot_ok
      rw [hslot] at hok
      cases hok
  | ok pkent =>
    rw [exec_bind_of_ok (by rw [exec_getPkAndEntropy, hslot])]
    exact exec_lookupFrom hslot

lemma firstKey_const_true : firstKey env (fun _ => true) ent phrases = .ok (some key) ↔
      ∃ pp rest, phrases = pp :: rest ∧ deriveKey env ent pp = .ok key := by
  cases phrases with
  | nil => simp [firstKey]
  | cons pp rest =>
    unfold firstKey
    cases hderive : deriveKey env ent pp with
    | error e => simp [hderive]
    | ok key' => simp [hderive]

lemma firstKey_const_false : firstKey env (fun _ => false) ent phrases ≠ .ok (some key) := by
  induction phrases with
  | nil => simp [firstKey]
  | cons pp rest ih =>
    unfold firstKey
    cases deriveKey env ent pp with
    | error e => simp
    | ok key' => simpa using ih

def FirstDerived (env : Env) (kc : Keychain) (s : Keyring) (fingerprint : ℕ) (passphrases : List PyStr) (index : ℕ)
    (key : PrivateKey) (ent : Bytes) : Prop :=
  ∃ pk pp rest, slot env kc s index = .ok (some (pk, ent)) ∧ env.getFingerprint pk = fingerprint ∧
    passphrases = pp :: rest ∧ deriveKey env ent pp = .ok key

def hasFingerprint (env : Env) (fingerprint : ℕ) (pk : G1Element) (_ : PrivateKey) : Bool :=
  env.getFingerprint pk = fingerprint

lemma finds_iff {fp : ℕ} : Finds env kc s (hasFingerprint env fp) phrases index key ent ↔
      FirstDerived env kc s fp phrases index key ent := by
  constructor
  · rintro ⟨pk, hslot, hkey⟩
    by_cases hsame : env.getFingerprint pk = fp
    · have htest : hasFingerprint env fp pk = fun _ => true := by
        funext key
        exact decide_eq_true hsame
      rw [htest, firstKey_const_true] at hkey
      obtain ⟨pp, rest, hpass, hderive⟩ := hkey
      exact ⟨pk, pp, rest, hslot, hsame, hpass, hderive⟩
    have htest : hasFingerprint env fp pk = fun _ => false := by
      funext key
      exact decide_eq_false hsame
    rw [htest] at hkey
    exact absurd hkey firstKey_const_false
  · rintro ⟨pk, pp, rest, hslot, hsame, hpass, hderive⟩
    have htest : hasFingerprint env fp pk = fun _ => true := by
      funext key
      exact decide_eq_true hsame
    exact ⟨pk, hslot, by rw [htest]; exact firstKey_const_true.mpr ⟨pp, rest, hpass, hderive⟩⟩

/-- A key that is stored with the fingerprint and that a passphrase of the list gives. -/
def Available (env : Env) (kc : Keychain) (s : Keyring) (fingerprint : ℕ) (passphrases : List PyStr) : Prop :=
  ∃ index ent pp key, slot env kc s index = .ok (some (env.getG1 key, ent)) ∧
    env.getFingerprint (env.getG1 key) = fingerprint ∧ pp ∈ passphrases ∧ deriveKey env ent pp = .ok key

/-- The slots before this one are free, or they have another fingerprint and their keys can be derived. -/
def Comes (env : Env) (kc : Keychain) (s : Keyring) (fingerprint : ℕ) (passphrases : List PyStr) (index : ℕ) : Prop :=
  index ≤ MAX_KEYS ∧ ∀ j, j < index → Passes env kc s (hasFingerprint env fingerprint) passphrases j

/-- A stored key with the fingerprint is found if and only if the first passphrase gives one for the first slot with
the fingerprint, whenever a key is available. -/
theorem found_key_stored_iff (env : Env) (kc : Keychain) (s : Keyring) (fingerprint : ℕ) (passphrases : List PyStr) :
    ((∀ key ent s', exec (getPrivateKeyByFingerprint env kc fingerprint passphrases) s = (.ok (some (key, ent)), s') →
        env.getFingerprint (env.getG1 key) = fingerprint ∧
          ∃ index, slot env kc s index = .ok (some (env.getG1 key, ent))) ∧
      (Available env kc s fingerprint passphrases →
        ∃ found s', exec (getPrivateKeyByFingerprint env kc fingerprint passphrases) s = (.ok (some found), s'))) ↔
    ((∀ index key ent, Comes env kc s fingerprint passphrases index →
        FirstDerived env kc s fingerprint passphrases index key ent →
        env.getFingerprint (env.getG1 key) = fingerprint ∧
          ∃ index', slot env kc s index' = .ok (some (env.getG1 key, ent))) ∧
      (Available env kc s fingerprint passphrases → ∃ index key ent, Comes env kc s fingerprint passphrases index ∧
          FirstDerived env kc s fingerprint passphrases index key ent)) := by
  have hfound : ∀ key ent,
      (∃ s', exec (getPrivateKeyByFingerprint env kc fingerprint passphrases) s = (.ok (some (key, ent)), s')) ↔
        ∃ index, Comes env kc s fingerprint passphrases index ∧
          FirstDerived env kc s fingerprint passphrases index key ent := by
    intro key ent
    refine exec_findPrivateKey.trans ⟨?_, ?_⟩
    · rintro ⟨i, -, hlt, hpasses, hfinds⟩
      exact ⟨i, ⟨by omega, fun j hj => hpasses j (Nat.zero_le j) hj⟩, finds_iff.mp hfinds⟩
    · rintro ⟨i, ⟨hle, hpasses⟩, hderived⟩
      exact ⟨i, Nat.zero_le i, by omega, fun j _ hj => hpasses j hj, finds_iff.mpr hderived⟩
  constructor
  · rintro ⟨hright, hcomplete⟩
    constructor
    · intro index key ent hcomes hderived
      obtain ⟨s', hrun⟩ := (hfound key ent).mpr ⟨index, hcomes, hderived⟩
      exact hright key ent s' hrun
    · intro havailable
      obtain ⟨⟨key, ent⟩, s', hrun⟩ := hcomplete havailable
      obtain ⟨index, hcomes, hderived⟩ := (hfound key ent).mp ⟨s', hrun⟩
      exact ⟨index, key, ent, hcomes, hderived⟩
  · rintro ⟨hright, hcomplete⟩
    constructor
    · intro key ent s' hrun
      obtain ⟨index, hcomes, hderived⟩ := (hfound key ent).mp ⟨s', hrun⟩
      exact hright index key ent hcomes hderived
    · intro havailable
      obtain ⟨index, key, ent, hcomes, hderived⟩ := hcomplete havailable
      obtain ⟨s', hrun⟩ := (hfound key ent).mpr ⟨index, hcomes, hderived⟩
      exact ⟨(key, ent), s', hrun⟩

def samplePassphraseKey : PrivateKey :=
  sampleBytes 32 (((encodeUtf8 (sampleMnemonic 0)).toOption.getD []).take 16 ++
    (text "mnemonicx").map fun c => UInt8.ofNat c.val)

def sampleKeyring : Keyring :=
  .set .empty (slotName sampleKeychain 0)
    (hexStr (sampleEnv.getG1 samplePassphraseKey).toBytes ++ hexStr (sampleEntropy 0))

/-- The key of the empty passphrase is returned, though the next one is that of the stored key. -/
theorem key_of_first_passphrase_found :
    slot sampleEnv sampleKeychain sampleKeyring 0 = .ok (some (sampleEnv.getG1 samplePassphraseKey, sampleEntropy 0)) ∧
    deriveKey sampleEnv (sampleEntropy 0) (text "x") = .ok samplePassphraseKey ∧
    (exec (getPrivateKeyByFingerprint sampleEnv sampleKeychain
        (sampleEnv.getFingerprint (sampleEnv.getG1 samplePassphraseKey)) [[], text "x"]) sampleKeyring).1 =
      .ok (some (sampleKey 0, sampleEntropy 0)) ∧
    sampleEnv.getFingerprint (sampleEnv.getG1 (sampleKey 0)) ≠
      sampleEnv.getFingerprint (sampleEnv.getG1 samplePassphraseKey) := by
  refine ⟨?_, ?_, ?_, ?_⟩
  · decide +kernel
  · decide +kernel
  · decide +kernel
  · decide +kernel

end SectorChain.Keychain
