import SectorChain.FullNode.Compression
import SectorChain.Proofs.BlockRoots

/-!
# The search for a standard puzzle

It raises if a match at an odd digit comes first.
-/

namespace SectorChain.Proofs

open Lib List

variable {bs : Bytes} {text : List Char}

lemma hex_cons (b : UInt8) (bs : Bytes) :
    hex (b :: bs) = hexDigit (b.toNat / 16) :: hexDigit (b.toNat % 16) :: hex bs := rfl

lemma hex_append (xs ys : Bytes) : hex (xs ++ ys) = hex xs ++ hex ys := flatMap_append

lemma length_hex (bs : Bytes) : (hex bs).length = 2 * bs.length := by
  induction bs with
  | nil => rfl
  | cons b bs ih =>
    rw [hex_cons, length_cons, length_cons, length_cons]
    omega

lemma hex_drop (bs : Bytes) (k : ℕ) : (hex bs).drop (2 * k) = hex (bs.drop k) := by
  induction k generalizing bs with
  | zero => rfl
  | succ k ih =>
    cases bs with
    | nil => rfl
    | cons b bs => exact ih bs

lemma hex_take (bs : Bytes) (k : ℕ) : (hex bs).take (2 * k) = hex (bs.take k) := by
  induction k generalizing bs with
  | zero => rfl
  | succ k ih =>
    cases bs with
    | nil => rfl
    | cons b bs =>
      rw [Nat.mul_succ, hex_cons, take_succ_cons, take_succ_cons, take_succ_cons, hex_cons, ih]

lemma hex_prefix_iff {xs ys : Bytes} : hex xs <+: hex ys ↔ xs <+: ys := by
  constructor
  · intro h
    have htake := prefix_iff_eq_take.mp h
    rw [length_hex, hex_take] at htake
    rw [prefix_iff_eq_take]
    exact hex_injective htake
  · rintro ⟨rest, rfl⟩
    rw [hex_append]
    exact prefix_append _ _

lemma isHexDigit_hexDigit {n : ℕ} (h : n < 16) : isHexDigit (hexDigit n) = true := by
  revert n
  decide

lemma all_isHexDigit_hex (bs : Bytes) : (hex bs).all isHexDigit = true := by
  induction bs with
  | nil => rfl
  | cons b bs ih =>
    have hb : b.toNat < 256 := b.toNat_lt
    rw [hex_cons, all_cons, all_cons, ih, isHexDigit_hexDigit (by omega), isHexDigit_hexDigit (by omega)]
    rfl

/-- A standard puzzle stands at an offset: its first part, a public key as it is serialized, and the rest. -/
def StandardPuzzleAt (bs : Bytes) (offset : ℕ) : Prop :=
  ∃ key rest, bs.drop offset = STANDARD_TRANSACTION_PUZZLE_PREFIX ++ key ++ STANDARD_TRANSACTION_PUZZLE_SUFFIX ++ rest ∧
    key.length = 49 ∧ key.head? = some 0xb0

lemma matchesPattern_iff : matchesPattern text = true ↔ hex STANDARD_TRANSACTION_PUZZLE_PREFIX <+: text ∧
      ((pubkeyGroup text).length = PUBKEY_DIGITS ∧ (pubkeyGroup text).take 2 = ['b', '0'] ∧
        ((pubkeyGroup text).drop 2).all isHexDigit = true) ∧
      hex STANDARD_TRANSACTION_PUZZLE_SUFFIX <+:
        text.drop ((hex STANDARD_TRANSACTION_PUZZLE_PREFIX).length + PUBKEY_DIGITS) := by
  unfold matchesPattern
  simp only [Bool.and_eq_true, decide_eq_true_eq, isPrefixOf_iff_prefix, and_assoc]

lemma length_start : STANDARD_TRANSACTION_PUZZLE_PREFIX.length = 238 := by decide +kernel

lemma pubkeyGroup_hex (bs : Bytes) : pubkeyGroup (hex bs) = hex ((bs.drop 238).take 49) := by
  unfold pubkeyGroup
  rw [length_hex, hex_drop]
  exact hex_take _ 49

lemma drop_suffix_hex (bs : Bytes) :
    (hex bs).drop ((hex STANDARD_TRANSACTION_PUZZLE_PREFIX).length + PUBKEY_DIGITS) = hex (bs.drop 287) := by
  rw [length_hex, length_start]
  exact hex_drop bs 287

lemma head_of_digits {key : Bytes} : (hex key).take 2 = ['b', '0'] ↔ key.head? = some 0xb0 := by
  have hdigits : (['b', '0'] : List Char) = hex [0xb0] := rfl
  rw [hdigits, show (2 : ℕ) = 2 * 1 from rfl, hex_take]
  cases key with
  | nil => simp [hex]
  | cons b key =>
    rw [take_succ_cons, take_zero, head?_cons, Option.some_inj]
    exact ⟨fun h => (List.cons.inj (hex_injective h)).1, fun h => by rw [h]⟩

lemma matchesPattern_hex : matchesPattern (hex bs) = true ↔ StandardPuzzleAt bs 0 := by
  rw [matchesPattern_iff, pubkeyGroup_hex, drop_suffix_hex, hex_prefix_iff, hex_prefix_iff, length_hex, head_of_digits]
  constructor
  · rintro ⟨⟨rest, rfl⟩, ⟨hlength, hhead, -⟩, ⟨tail, htail⟩⟩
    have hdrop : (STANDARD_TRANSACTION_PUZZLE_PREFIX ++ rest).drop 238 = rest := by
      rw [← length_start, drop_left]
    have htail' : rest.drop 49 = STANDARD_TRANSACTION_PUZZLE_SUFFIX ++ tail := by
      rw [htail, show (287 : ℕ) = 238 + 49 from rfl, ← drop_drop, hdrop]
    have hlength' : 2 * (rest.take 49).length = 98 := hlength
    refine ⟨rest.take 49, tail, ?_, by omega, hhead⟩
    rw [drop_zero, append_assoc, append_assoc, ← htail', take_append_drop]
  · rintro ⟨key, rest, hbs, hlength, hhead⟩
    subst hbs
    have hdrop : (STANDARD_TRANSACTION_PUZZLE_PREFIX ++ key ++ STANDARD_TRANSACTION_PUZZLE_SUFFIX ++ rest).drop 238 =
        key ++ (STANDARD_TRANSACTION_PUZZLE_SUFFIX ++ rest) := by
      rw [append_assoc, append_assoc, ← length_start, drop_left]
    have hkey : (key ++ (STANDARD_TRANSACTION_PUZZLE_SUFFIX ++ rest)).take 49 = key := by
      rw [← hlength, take_left]
    have hend : (key ++ (STANDARD_TRANSACTION_PUZZLE_SUFFIX ++ rest)).drop 49 =
        STANDARD_TRANSACTION_PUZZLE_SUFFIX ++ rest := by
      rw [← hlength, drop_left]
    rw [show (287 : ℕ) = 238 + 49 from rfl, ← drop_drop, hdrop, hkey, hend]
    have hlength' : 2 * key.length = 98 := by omega
    refine ⟨?_, ⟨hlength', hhead, ?_⟩, prefix_append _ _⟩
    · rw [append_assoc, append_assoc]
      exact prefix_append _ _
    · rw [show (2 : ℕ) = 2 * 1 from rfl, hex_drop]
      exact all_isHexDigit_hex _

lemma matchesPattern_even {k : ℕ} : matchesPattern ((hex bs).drop (2 * k)) = true ↔ StandardPuzzleAt bs k := by
  rw [hex_drop, matchesPattern_hex]
  rfl

lemma searchPattern_eq_some {i : ℕ} (h : searchPattern text = some i) :
    matchesPattern (text.drop i) = true ∧ ∀ j < i, matchesPattern (text.drop j) = false := by
  unfold searchPattern at h
  rw [find?_range_eq_some] at h
  obtain ⟨hmatch, -, hbefore⟩ := h
  exact ⟨hmatch, fun j hj => by simpa using hbefore j hj⟩

lemma searchPattern_eq_none (h : searchPattern text = none) (i : ℕ) : matchesPattern (text.drop i) = false := by
  unfold searchPattern at h
  rw [find?_range_eq_none] at h
  by_cases hi : i < text.length + 1
  · simpa using h i hi
  · have hnil : text.drop i = [] := drop_eq_nil_of_le (by omega)
    rw [hnil]
    rfl

def SearchCorrect (bs : Bytes) (result : Except PyError (Option (ℕ × ℕ))) : Prop :=
  (∃ start stop, result = .ok (some (start, stop)) ∧ StandardPuzzleAt bs start ∧
    stop = start + STANDARD_TRANSACTION_PUZZLE_PREFIX.length) ∨
  (result = .ok none ∧ ∀ offset, ¬ StandardPuzzleAt bs offset)

lemma patternLength_eq : patternLength = 582 := by decide +kernel

lemma match_of_even {k : ℕ} (h : searchPattern (hex bs) = some (2 * k)) :
    matchStandardTransactionAtAnyIndex bs = .ok (some (k, k + 238)) ∧ StandardPuzzleAt bs k := by
  have hat := matchesPattern_even.mp (searchPattern_eq_some h).1
  refine ⟨?_, hat⟩
  obtain ⟨key, rest, hdrop, -, -⟩ := hat
  have hstart : 2 * k / 2 = k := by omega
  have hstop : (2 * k + 582 - 98 - (hex STANDARD_TRANSACTION_PUZZLE_SUFFIX).length) / 2 = k + 238 := by
    change (2 * k + 582 - 98 - 2 * 4) / 2 = k + 238
    omega
  have hslice : (bs.drop k).take (k + 238 - k) = STANDARD_TRANSACTION_PUZZLE_PREFIX := by
    rw [hdrop, Nat.add_sub_cancel_left, append_assoc, append_assoc, ← length_start, take_left]
  unfold matchStandardTransactionAtAnyIndex
  rw [h]
  dsimp only
  rw [patternLength_eq, decide_eq_true (by omega : 2 * k % 2 = 0 ∧ (2 * k + 582) % 2 = 0), hstart, hstop,
    decide_eq_true hslice]
  rfl

lemma match_of_odd {i : ℕ} (h : searchPattern (hex bs) = some i) (hodd : i % 2 = 1) :
    matchStandardTransactionAtAnyIndex bs = .error .assertionError := by
  unfold matchStandardTransactionAtAnyIndex
  rw [h]
  dsimp only
  rw [decide_eq_false (by omega : ¬ (i % 2 = 0 ∧ (i + patternLength) % 2 = 0))]
  rfl

/-- The search is correct if and only if each match at an odd digit comes after one at an even digit. -/
theorem template_search_correct_iff (bs : Bytes) : SearchCorrect bs (matchStandardTransactionAtAnyIndex bs) ↔
      ∀ i, i % 2 = 1 → matchesPattern ((hex bs).drop i) = true →
        ∃ j < i, j % 2 = 0 ∧ matchesPattern ((hex bs).drop j) = true := by
  cases hsearch : searchPattern (hex bs) with
  | none =>
    have hnone := searchPattern_eq_none hsearch
    refine iff_of_true (.inr ⟨?_, fun offset hat => ?_⟩) fun i _ hmatch => ?_
    · unfold matchStandardTransactionAtAnyIndex
      rw [hsearch]
    · have := matchesPattern_even.mpr hat
      rw [hnone] at this
      cases this
    · rw [hnone] at hmatch
      cases hmatch
  | some first =>
    obtain ⟨hfirst, hbefore⟩ := searchPattern_eq_some hsearch
    rcases Nat.mod_two_eq_zero_or_one first with heven | hodd
    · obtain ⟨k, rfl⟩ : ∃ k, first = 2 * k := ⟨first / 2, by omega⟩
      obtain ⟨hreturns, hat⟩ := match_of_even hsearch
      refine iff_of_true (.inl ⟨k, k + 238, hreturns, hat, by rw [length_start]⟩) fun i hi hmatch => ?_
      refine ⟨2 * k, Nat.lt_of_le_of_ne (Nat.le_of_not_lt fun hlt => ?_) (by omega), heven, hfirst⟩
      rw [hbefore i hlt] at hmatch
      cases hmatch
    refine iff_of_false ?_ fun hall => ?_
    · rw [match_of_odd hsearch hodd]
      rintro (⟨start, stop, hok, -⟩ | ⟨hok, -⟩)
      · cases hok
      · cases hok
    · obtain ⟨j, hj, -, hmatch⟩ := hall first hodd hfirst
      rw [hbefore j hj] at hmatch
      cases hmatch

/-- A standard puzzle whose digits are shifted by one. -/
def shiftedPuzzle : Bytes :=
  fromHex ('0' :: hex (STANDARD_TRANSACTION_PUZZLE_PREFIX ++ (0xb0 :: List.replicate 48 0) ++
    STANDARD_TRANSACTION_PUZZLE_SUFFIX) ++ ['0'])

theorem template_search_raises : matchStandardTransactionAtAnyIndex shiftedPuzzle = .error .assertionError ∧
      ¬ SearchCorrect shiftedPuzzle (matchStandardTransactionAtAnyIndex shiftedPuzzle) := by
  have hraises : matchStandardTransactionAtAnyIndex shiftedPuzzle = .error .assertionError := by decide +kernel
  refine ⟨hraises, ?_⟩
  rw [hraises]
  rintro (⟨start, stop, hok, -⟩ | ⟨hok, -⟩)
  · cases hok
  · cases hok

end SectorChain.Proofs
