import SectorChain.Util.Keychain

/-!
# Entropy and mnemonics

Each entropy has one mnemonic that is accepted.
-/

namespace SectorChain.Keychain

open Lib List

variable {env : Env}
variable {entropy : Bytes} {mnemonic word : PyStr} {value : ℕ}

@[simp] lemma length_bitArray (bs : Bytes) : (bitArray bs).length = bs.length * 8 := by
  simp [bitArray]

lemma bytesOfBits_bitArray (bs : Bytes) : bytesOfBits (bitArray bs) = bs := by
  have hlt : ∀ n ∈ bs.map UInt8.toNat, n < 2 ^ 8 := by
    intro n hn
    obtain ⟨b, -, rfl⟩ := mem_map.mp hn
    exact b.toNat_lt
  rw [bytesOfBits, bitArray, unpackBits_packBits (by decide) hlt, map_map]
  conv_rhs => rw [← map_id bs]
  exact map_congr_left fun b _ => UInt8.ofNat_toNat

lemma bitArray_bytesOfBits {bits : List Bool} (h : 8 ∣ bits.length) : bitArray (bytesOfBits bits) = bits := by
  have hbytes : (bytesOfBits bits).map UInt8.toNat = unpackBits 8 bits := by
    rw [bytesOfBits, map_map]
    conv_rhs => rw [← map_id (unpackBits 8 bits)]
    refine map_congr_left fun n hn => ?_
    rw [Function.comp_apply, UInt8.toNat_ofNat', Nat.mod_eq_of_lt (unpackBits_lt n hn), id]
  rw [bitArray, hbytes, packBits_unpackBits (by decide) h]

lemma wordAt_eq_ok : wordAt env value = .ok word ↔ env.wordList.words[value]? = some word := by
  unfold wordAt
  cases env.wordList.words[value]? with
  | none => simp
  | some w => simp

lemma positionOf_eq_ok : positionOf env word = .ok value ↔ wordAt env value = .ok word := by
  have hkeys : env.wordList.words.zipIdx.map Prod.fst = env.wordList.words := zipIdx_map_fst ..
  have hnodup : (env.wordList.words.zipIdx.map Prod.fst).Nodup := by
    rw [hkeys]
    exact env.wordList.nodup
  have hget : (wordPositions env).get? word = some value ↔ env.wordList.words[value]? = some word := by
    unfold wordPositions
    rw [Dict.get?_foldl_entries hnodup]
    change (_ : Option ℕ).or none = _ ↔ _
    rw [Option.or_none, ← Dict.mem_iff_lookup hnodup, mk_mem_zipIdx_iff_getElem?]
  rw [wordAt_eq_ok, ← hget]
  unfold positionOf
  cases (wordPositions env).get? word with
  | none => simp
  | some v => simp

lemma wordAt_total (env : Env) (h : value < 2 ^ 11) : ∃ word, wordAt env value = .ok word := by
  have hlt : value < env.wordList.words.length := by
    rw [env.wordList.length_eq]
    exact h
  exact ⟨_, wordAt_eq_ok.mpr (getElem?_eq_getElem hlt)⟩

lemma lt_of_wordAt (h : wordAt env value = .ok word) : value < 2 ^ 11 := by
  obtain ⟨hlt, -⟩ := List.getElem?_eq_some_iff.mp (wordAt_eq_ok.mp h)
  rwa [env.wordList.length_eq] at hlt

lemma noSpace_of_wordAt (h : wordAt env value = .ok word) : SPACE ∉ word :=
  env.wordList.noSpace word (mem_of_getElem? (wordAt_eq_ok.mp h))

lemma mapM_wordAt_iff {values : List ℕ} {words : List PyStr} :
    values.mapM (wordAt env) = .ok words ↔ words.mapM (positionOf env) = .ok values := by
  rw [mapM_eq_ok, mapM_eq_ok]
  constructor
  · intro h
    exact h.flip.imp fun _ _ => positionOf_eq_ok.mpr
  · intro h
    exact h.flip.imp fun _ _ => positionOf_eq_ok.mp

def entropyBits (env : Env) (entropy : Bytes) : List Bool :=
  bitArray entropy ++ (bitArray (env.stdHash entropy).toBytes).take (entropy.length / 4)

lemma allowed_length {n : ℕ} (h : n ∈ [16, 20, 24, 28, 32]) :
    n / 4 * 3 ∈ [12, 15, 18, 21, 24] ∧ n * 8 + n / 4 = n / 4 * 3 * 11 ∧ n / 4 ≤ 256 := by
  simp only [mem_cons, not_mem_nil, or_false] at h ⊢
  omega

lemma allowed_count {count : ℕ} (h : count ∈ [12, 15, 18, 21, 24]) :
    count / 3 * 4 ∈ [16, 20, 24, 28, 32] ∧ count * 11 - count / 3 = count / 3 * 4 * 8 ∧
      (count * 11 - count / 3) % 32 = 0 := by
  simp only [mem_cons, not_mem_nil, or_false] at h ⊢
  omega

lemma length_entropyBits (env : Env) (h : entropy.length ∈ [16, 20, 24, 28, 32]) :
    (entropyBits env entropy).length = entropy.length / 4 * 3 * 11 := by
  obtain ⟨-, hsum, hle⟩ := allowed_length h
  rw [entropyBits, length_append, length_take, length_bitArray, length_bitArray, SizedBytes.length_toBytes]
  omega

lemma bytesToMnemonic_eq_ok : bytesToMnemonic env entropy = .ok mnemonic ↔ entropy.length ∈ [16, 20, 24, 28, 32] ∧
      ∃ words, (unpackBits 11 (entropyBits env entropy)).mapM (wordAt env) = .ok words ∧
        [SPACE].intercalate words = mnemonic := by
  unfold bytesToMnemonic
  by_cases hlength : entropy.length ∈ [16, 20, 24, 28, 32]
  · have hmod : ¬ (entropyBits env entropy).length % 11 ≠ 0 := by
      rw [length_entropyBits env hlength]
      omega
    rw [if_neg (not_not_intro hlength)]
    change (if (entropyBits env entropy).length % 11 ≠ 0 then _ else _) = _ ↔ _
    rw [if_neg hmod]
    change ((unpackBits 11 (entropyBits env entropy)).mapM (wordAt env) >>= _) = _ ↔ _
    rw [bind_eq_ok]
    simp only [hlength, true_and, except_pure, Except.ok.injEq]
  · simp [hlength]

lemma readEntropy_iff {bits : List Bool} {ENT CS : ℕ} (hwhole : 8 ∣ ENT) (hle : ENT ≤ bits.length)
    (hchecksum : ENT / 8 / 4 = CS) :
    (if (bitArray (env.stdHash (bytesOfBits (bits.take ENT))).toBytes).take CS ≠ bits.drop ENT then
        .error .valueError else .ok (bytesOfBits (bits.take ENT)) : Except PyError Bytes) = .ok entropy ↔
      bits = entropyBits env entropy ∧ entropy.length * 8 = ENT := by
  have htake : (bits.take ENT).length = ENT := length_take_of_le hle
  have hbits : bitArray (bytesOfBits (bits.take ENT)) = bits.take ENT := bitArray_bytesOfBits (by rwa [htake])
  constructor
  · intro h
    split at h
    · cases h
    rename_i hsame
    cases h
    have hlength : (bytesOfBits (bits.take ENT)).length * 8 = ENT := by rw [← length_bitArray, hbits, htake]
    have hquarter : (bytesOfBits (bits.take ENT)).length / 4 = CS := by omega
    refine ⟨?_, hlength⟩
    rw [entropyBits, hbits, hquarter, Decidable.not_not.mp hsame, take_append_drop]
  · rintro ⟨rfl, hlength⟩
    have hleft : (entropyBits env entropy).take ENT = bitArray entropy := by
      rw [entropyBits, ← hlength, ← length_bitArray, take_left]
    have hright : (entropyBits env entropy).drop ENT =
        (bitArray (env.stdHash entropy).toBytes).take (entropy.length / 4) := by
      rw [entropyBits, ← hlength, ← length_bitArray, drop_left]
    have hquarter : entropy.length / 4 = CS := by omega
    rw [hleft, bytesOfBits_bitArray, hright, hquarter, if_neg (not_not_intro rfl)]

lemma bytesFromMnemonic_eq_ok :
    bytesFromMnemonic env mnemonic = .ok entropy ↔ (mnemonic.splitOn SPACE).length ∈ [12, 15, 18, 21, 24] ∧
      ∃ values, (mnemonic.splitOn SPACE).mapM (positionOf env) = .ok values ∧
        packBits 11 values = entropyBits env entropy ∧
        entropy.length * 8 = (mnemonic.splitOn SPACE).length * 11 - (mnemonic.splitOn SPACE).length / 3 := by
  unfold bytesFromMnemonic
  generalize mnemonic.splitOn SPACE = words
  by_cases hcount : words.length ∈ [12, 15, 18, 21, 24]
  · obtain ⟨-, hn8, hmod⟩ := allowed_count hcount
    rw [if_neg (not_not_intro hcount), bind_eq_ok]
    simp only [hcount, true_and]
    refine exists_congr fun values => and_congr_right fun hvalues => ?_
    have hlength : (packBits 11 values).length = words.length * 11 := by
      rw [length_packBits, ← (mapM_eq_ok.mp hvalues).length_eq]
    have hdrop : ((packBits 11 values).drop (words.length * 11 - words.length / 3)).length = words.length / 3 := by
      rw [length_drop]
      omega
    rw [if_neg (not_not_intro hlength), if_neg (not_not_intro hmod), if_neg (not_not_intro hdrop)]
    exact readEntropy_iff (hn8 ▸ Nat.dvd_mul_left _ _) (by omega) (by omega)
  · simp [hcount]

lemma bytesToMnemonic_iff :
    bytesToMnemonic env entropy = .ok mnemonic ↔ bytesFromMnemonic env mnemonic = .ok entropy := by
  rw [bytesToMnemonic_eq_ok, bytesFromMnemonic_eq_ok]
  constructor
  · rintro ⟨hlength, words, hwords, rfl⟩
    obtain ⟨hcount, hsum, -⟩ := allowed_length hlength
    have hbits := length_entropyBits env hlength
    have hwords_length : words.length = entropy.length / 4 * 3 := by
      rw [← (mapM_eq_ok.mp hwords).length_eq, length_unpackBits]
      omega
    have hnoSpace : ∀ word ∈ words, SPACE ∉ word := by
      intro word hword
      obtain ⟨value, -, hvalue⟩ := exists_of_mem_right (mapM_eq_ok.mp hwords) hword
      exact noSpace_of_wordAt hvalue
    have hne : words ≠ [] := by
      rintro rfl
      rw [← hwords_length] at hcount
      revert hcount
      decide
    rw [splitOn_intercalate SPACE hnoSpace hne, hwords_length]
    refine ⟨hcount, _, mapM_wordAt_iff.mp hwords, packBits_unpackBits (by decide) (hbits ▸ Nat.dvd_mul_left _ _), ?_⟩
    omega
  · rintro ⟨hcount, values, hvalues, hbits, hlength⟩
    obtain ⟨hn, hn8, -⟩ := allowed_count hcount
    have hlt : ∀ value ∈ values, value < 2 ^ 11 := by
      intro value hvalue
      obtain ⟨word, -, hword⟩ := exists_of_mem_right (mapM_eq_ok.mp hvalues) hvalue
      exact lt_of_wordAt (positionOf_eq_ok.mp hword)
    have hentropy : entropy.length = (mnemonic.splitOn SPACE).length / 3 * 4 := by omega
    refine ⟨hentropy ▸ hn, mnemonic.splitOn SPACE, ?_, intercalate_splitOn SPACE⟩
    rw [← hbits, unpackBits_packBits (by decide) hlt]
    exact mapM_wordAt_iff.mpr hvalues

lemma bytesToMnemonic_total (env : Env) (h : entropy.length ∈ [16, 20, 24, 28, 32]) :
    ∃ mnemonic, bytesToMnemonic env entropy = .ok mnemonic := by
  have hall : ∀ values : List ℕ, (∀ value ∈ values, value < 2 ^ 11) → ∃ words, values.mapM (wordAt env) = .ok words := by
    intro values hvalues
    induction values with
    | nil => exact ⟨[], rfl⟩
    | cons value values ih =>
      obtain ⟨word, hword⟩ := wordAt_total env (hvalues value mem_cons_self)
      obtain ⟨words, hwords⟩ := ih fun v hv => hvalues v (mem_cons_of_mem _ hv)
      exact ⟨word :: words, mapM_eq_ok.mpr (.cons hword (mapM_eq_ok.mp hwords))⟩
  obtain ⟨words, hwords⟩ := hall (unpackBits 11 (entropyBits env entropy)) unpackBits_lt
  exact ⟨_, bytesToMnemonic_eq_ok.mpr ⟨h, words, hwords, rfl⟩⟩

/-- Entropy is read back from its mnemonic, the only one that is accepted for it. -/
theorem mnemonic_round_trip (env : Env) : (∀ entropy : Bytes, entropy.length ∈ [16, 20, 24, 28, 32] →
      (bytesToMnemonic env entropy >>= bytesFromMnemonic env) = .ok entropy) ∧
    (∀ mnemonic entropy, bytesFromMnemonic env mnemonic = .ok entropy → bytesToMnemonic env entropy = .ok mnemonic) ∧
    (∀ entropy : Bytes, entropy.length ∈ [16, 20, 24, 28, 32] →
      ∃! mnemonic, bytesFromMnemonic env mnemonic = .ok entropy) := by
  refine ⟨?_, fun mnemonic entropy => bytesToMnemonic_iff.mpr, ?_⟩
  · intro entropy hlength
    obtain ⟨mnemonic, hmnemonic⟩ := bytesToMnemonic_total env hlength
    rw [hmnemonic, ok_bind, bytesToMnemonic_iff.mp hmnemonic]
  intro entropy hlength
  obtain ⟨mnemonic, hmnemonic⟩ := bytesToMnemonic_total env hlength
  refine ⟨mnemonic, bytesToMnemonic_iff.mp hmnemonic, ?_⟩
  intro mnemonic' hmnemonic'
  have hsame := bytesToMnemonic_iff.mpr hmnemonic'
  rw [hmnemonic] at hsame
  exact (Except.ok.inj hsame).symm

def sampleWord (n : ℕ) : PyStr := [Fin.ofNat 0x110000 (n + 97)]

def sampleWords : WordList where
  words := (List.range 2048).map sampleWord
  length_eq := by simp
  nodup := by
    refine nodup_range.map_on fun i hi j hj hsame => ?_
    have hval := congrArg Fin.val (singleton_injective hsame)
    rw [mem_range] at hi hj
    simp only [Fin.val_ofNat] at hval
    omega
  noSpace := by
    intro word hword
    obtain ⟨i, hi, rfl⟩ := mem_map.mp hword
    intro hspace
    have hval := congrArg Fin.val (mem_singleton.mp hspace)
    rw [mem_range] at hi
    have hcode : SPACE.val = 32 := rfl
    simp only [Fin.val_ofNat] at hval
    omega

def sampleBytes (size : ℕ) (bs : Bytes) : SizedBytes size :=
  ⟨(bs ++ List.replicate size 0).take size, by simp⟩

def sampleEnv : Env where
  wordList := sampleWords
  stdHash := fun _ => SizedBytes.ofNat 32 0
  normalize := id
  pbkdf2Hmac := fun password salt _ => sampleBytes 64 (password.take 16 ++ salt.take 16)
  keyGen := sampleBytes 32
  getG1 := fun key => sampleBytes 48 key.toBytes
  isG1Element := fun bs => bs.length = 48
  isG1Element_getG1 := fun _ => decide_eq_true (SizedBytes.length_toBytes _)
  getFingerprint := fun pk => beNat (pk.toBytes.take 2 ++ (pk.toBytes.drop 24).take 2)

theorem mnemonic_round_trip_zero : ((List.replicate 16 (0 : UInt8)).length ∈ [16, 20, 24, 28, 32] ∧
      (bytesToMnemonic sampleEnv (List.replicate 16 0) >>= bytesFromMnemonic sampleEnv) = .ok (List.replicate 16 0)) ∧
    ∃! mnemonic, bytesFromMnemonic sampleEnv mnemonic = .ok (List.replicate 16 0) ∧
      bytesToMnemonic sampleEnv (List.replicate 16 0) = .ok mnemonic := by
  obtain ⟨hback, hforth, hunique⟩ := mnemonic_round_trip sampleEnv
  refine ⟨⟨by decide, hback _ (by decide)⟩, ?_⟩
  obtain ⟨mnemonic, hmnemonic, hall⟩ := hunique (List.replicate 16 0) (by decide)
  exact ⟨mnemonic, ⟨hmnemonic, hforth _ _ hmnemonic⟩, fun m hm => hall m hm.1⟩

end SectorChain.Keychain
