import SectorChain.Consensus.Header.Iterations

/-!
# Significant bits

Keeping the top bits of a number rounds it down to a multiple of a power of two.
-/

namespace SectorChain

variable {x y k : ℕ}

def roundDown (s x : ℕ) : ℕ := x / 2 ^ s * 2 ^ s

lemma roundDown_le (s x : ℕ) : roundDown s x ≤ x := Nat.div_mul_le_self x (2 ^ s)

lemma roundDown_mono (s : ℕ) (h : x ≤ y) : roundDown s x ≤ roundDown s y :=
  Nat.mul_le_mul_right _ (Nat.div_le_div_right h)

lemma dvd_roundDown (s x : ℕ) : 2 ^ s ∣ roundDown s x := Nat.dvd_mul_left _ _

lemma le_roundDown {s m : ℕ} (hdvd : 2 ^ s ∣ m) (hle : m ≤ x) : m ≤ roundDown s x := by
  obtain ⟨c, rfl⟩ := hdvd
  rw [Nat.mul_comm] at hle ⊢
  exact Nat.mul_le_mul_right _ ((Nat.le_div_iff_mul_le (Nat.two_pow_pos s)).mpr hle)

lemma and_highBits {s : ℕ} (hs : s ≤ x.size) : x &&& ((1 <<< x.size) - 1 - ((1 <<< s) - 1)) = roundDown s x := by
  have hmask : (1 <<< x.size) - 1 - ((1 <<< s) - 1) = (2 ^ (x.size - s) - 1) * 2 ^ s := by
    have hpow : 2 ^ x.size = 2 ^ (x.size - s) * 2 ^ s := by rw [← Nat.pow_add, Nat.sub_add_cancel hs]
    have hpos := Nat.two_pow_pos s
    rw [Nat.sub_mul]
    omega
  rw [hmask]
  refine Nat.eq_of_testBit_eq fun i => ?_
  rw [roundDown, Nat.testBit_and, Nat.testBit_mul_two_pow, Nat.testBit_mul_two_pow, Nat.testBit_div_two_pow]
  by_cases hi : s ≤ i
  · by_cases hsize : i < x.size
    · have : i - s < x.size - s := by omega
      simp [hi, this, Nat.sub_add_cancel hi]
    · have hzero : x.testBit i = false :=
        Nat.testBit_lt_two_pow (x.lt_size_self.trans_le (Nat.pow_le_pow_right (by decide) (not_lt.mp hsize)))
      simp [hi, hzero, Nat.sub_add_cancel hi]
  · simp [hi]

lemma truncateToSignificantBits_eq (x k : ℕ) : truncateToSignificantBits x k = roundDown (x.size - k) x := by
  unfold truncateToSignificantBits
  split_ifs with h
  · have hzero : x.size - k = 0 := by omega
    simp [roundDown, hzero]
  · exact and_highBits (Nat.sub_le _ _)

lemma truncateToSignificantBits_le (x k : ℕ) : truncateToSignificantBits x k ≤ x := by
  rw [truncateToSignificantBits_eq]
  exact roundDown_le _ _

lemma pow_le_truncate (hk : 0 < k) {i : ℕ} (hi : 2 ^ i ≤ x) : 2 ^ i ≤ truncateToSignificantBits x k := by
  have htop : 2 ^ (x.size - 1) ≤ truncateToSignificantBits x k := by
    rw [truncateToSignificantBits_eq]
    have hsize : i < x.size := Nat.lt_size.mpr hi
    refine le_roundDown (pow_dvd_pow 2 (by omega)) (Nat.lt_size.mp (by omega))
  have hsize : i < x.size := Nat.lt_size.mpr hi
  exact (Nat.pow_le_pow_right (by decide) (by omega)).trans htop

lemma truncateToSignificantBits_mono (hk : 0 < k) (h : x ≤ y) :
    truncateToSignificantBits x k ≤ truncateToSignificantBits y k := by
  rcases (Nat.size_le_size h).eq_or_lt with heq | hlt
  · rw [truncateToSignificantBits_eq, truncateToSignificantBits_eq, heq]
    exact roundDown_mono _ h
  · have hpow : 2 ^ x.size ≤ y := Nat.lt_size.mp hlt
    calc truncateToSignificantBits x k ≤ x := truncateToSignificantBits_le x k
      _ ≤ 2 ^ x.size := x.lt_size_self.le
      _ ≤ truncateToSignificantBits y k := pow_le_truncate hk hpow

lemma countSignificantBits_le {s : ℕ} (hdvd : 2 ^ s ∣ x) : countSignificantBits x ≤ x.size - s := by
  unfold countSignificantBits
  cases hfind : (List.range x.size).find? fun i => x &&& (1 <<< i) > 0 with
  | none => exact Nat.zero_le _
  | some i =>
    have hbit : x &&& 2 ^ i > 0 := by simpa [Nat.one_shiftLeft] using List.find?_some hfind
    have hle : s ≤ i := by
      by_contra hlt
      obtain ⟨c, rfl⟩ := hdvd
      have hzero : (2 ^ s * c).testBit i = false := by
        rw [Nat.mul_comm, Nat.testBit_mul_two_pow]
        simp [hlt]
      rw [Nat.and_two_pow, hzero] at hbit
      simp at hbit
    exact Nat.sub_le_sub_left hle _

lemma countSignificantBits_roundDown {s t : ℕ} (hdvd : 2 ^ s ∣ x) (hk : x.size - s ≤ k) :
    countSignificantBits (roundDown t x) ≤ k := by
  refine (countSignificantBits_le (s := s) ?_).trans
    ((Nat.sub_le_sub_right (Nat.size_le_size (roundDown_le t x)) s).trans hk)
  rcases le_total s t with hst | hts
  · exact (pow_dvd_pow 2 hst).trans (dvd_roundDown t x)
  · have hself : roundDown t x = x := Nat.div_mul_cancel ((pow_dvd_pow 2 hts).trans hdvd)
    rw [hself]
    exact hdvd

lemma countSignificantBits_truncate (x k : ℕ) : countSignificantBits (truncateToSignificantBits x k) ≤ k := by
  rw [truncateToSignificantBits_eq]
  refine (countSignificantBits_le (dvd_roundDown _ _)).trans ?_
  have := Nat.size_le_size (roundDown_le (x.size - k) x)
  omega

lemma countSignificantBits_roundDown_truncate (t x k : ℕ) :
    countSignificantBits (roundDown t (truncateToSignificantBits x k)) ≤ k := by
  rw [truncateToSignificantBits_eq]
  refine countSignificantBits_roundDown (dvd_roundDown (x.size - k) x) ?_
  have := Nat.size_le_size (roundDown_le (x.size - k) x)
  omega

section

variable (z : ℤ) (n : ℕ)

lemma truncateIntToSignificantBits_eq : truncateIntToSignificantBits z n =
    if z < 0 ∧ n ≤ z.natAbs.size then -↑(truncateToSignificantBits z.natAbs n)
    else ↑(truncateToSignificantBits z.natAbs n) := by
  unfold truncateIntToSignificantBits
  by_cases hsize : n > z.natAbs.size
  · have hle : ¬ n ≤ z.natAbs.size := by omega
    rw [if_pos hsize, if_neg (not_and_of_not_right _ hle), truncateToSignificantBits, if_pos hsize]
  · have hle : n ≤ z.natAbs.size := by omega
    simp only [if_neg hsize, hle, and_true]

lemma natAbs_truncateInt : (truncateIntToSignificantBits z n).natAbs = truncateToSignificantBits z.natAbs n := by
  rw [truncateIntToSignificantBits_eq]
  split_ifs <;> simp

lemma truncateToSignificantBits_idem (x n : ℕ) :
    truncateToSignificantBits (truncateToSignificantBits x n) n = truncateToSignificantBits x n := by
  refine (truncateToSignificantBits_le _ n).antisymm ?_
  rw [truncateToSignificantBits_eq (truncateToSignificantBits x n)]
  refine le_roundDown ?_ le_rfl
  rw [truncateToSignificantBits_eq]
  have hsize := Nat.size_le_size (roundDown_le (x.size - n) x)
  exact (pow_dvd_pow 2 (by omega)).trans (dvd_roundDown _ _)

lemma testBit_truncateToSignificantBits (x n i : ℕ) :
    (truncateToSignificantBits x n).testBit i = (decide (x.size ≤ i + n) && x.testBit i) := by
  rw [truncateToSignificantBits_eq, roundDown, Nat.testBit_mul_two_pow, Nat.testBit_div_two_pow]
  by_cases hi : x.size - n ≤ i
  · have hle : x.size ≤ i + n := by omega
    simp [hi, hle]
  · have hlt : ¬ x.size ≤ i + n := by omega
    simp [hi, hlt]

/-- What the docstring promises: the sign and the top bits stay, the other bits are cleared. -/
structure KeepsTopBits : Prop where
  sign : (truncateIntToSignificantBits z n).sign = z.sign
  bits : ∀ i, (truncateIntToSignificantBits z n).natAbs.testBit i =
    (decide (z.natAbs.size ≤ i + n) && z.natAbs.testBit i)
  idempotent : truncateIntToSignificantBits (truncateIntToSignificantBits z n) n = truncateIntToSignificantBits z n
  monotone : ∀ y : ℤ, z.natAbs ≤ y.natAbs →
    (truncateIntToSignificantBits z n).natAbs ≤ (truncateIntToSignificantBits y n).natAbs
  count : countSignificantBits (truncateIntToSignificantBits z n).natAbs ≤ n

variable {z n}

lemma truncateToSignificantBits_pos {x : ℕ} (hn : 1 ≤ n) (hx : 0 < x) : 0 < truncateToSignificantBits x n :=
  pow_le_truncate (i := 0) hn hx

lemma size_truncateToSignificantBits (hn : 1 ≤ n) (x : ℕ) : (truncateToSignificantBits x n).size = x.size := by
  refine (Nat.size_le_size (truncateToSignificantBits_le x n)).antisymm ?_
  cases hsize : x.size with
  | zero => exact Nat.zero_le _
  | succ i => exact Nat.lt_size.mpr (pow_le_truncate hn (Nat.lt_size.mp (by omega)))

lemma truncateInt_idem (hn : 1 ≤ n) :
    truncateIntToSignificantBits (truncateIntToSignificantBits z n) n = truncateIntToSignificantBits z n := by
  rw [truncateIntToSignificantBits_eq (truncateIntToSignificantBits z n), natAbs_truncateInt,
    truncateToSignificantBits_idem, size_truncateToSignificantBits hn, truncateIntToSignificantBits_eq]
  by_cases h : z < 0 ∧ n ≤ z.natAbs.size
  · have hpos := truncateToSignificantBits_pos hn (Int.natAbs_pos.mpr h.1.ne)
    rw [if_pos h, if_pos ⟨by omega, h.2⟩]
  · rw [if_neg h, if_neg (by omega)]

lemma sign_truncateInt_iff (hn : 1 ≤ n) :
    (truncateIntToSignificantBits z n).sign = z.sign ↔ 0 ≤ z ∨ n ≤ z.natAbs.size := by
  rw [truncateIntToSignificantBits_eq]
  rcases lt_trichotomy z 0 with hz | rfl | hz
  · have hpos := truncateToSignificantBits_pos hn (Int.natAbs_pos.mpr hz.ne)
    by_cases hsize : n ≤ z.natAbs.size
    · rw [Int.sign_eq_neg_one_of_neg hz, Int.sign_eq_neg_one_of_neg (by omega)]
      exact iff_of_true rfl (.inr hsize)
    · rw [Int.sign_eq_neg_one_of_neg hz, Int.sign_eq_one_of_pos (by omega)]
      exact iff_of_false (by decide) (by omega)
  · have hzero : truncateToSignificantBits 0 n = 0 := Nat.le_zero.mp (truncateToSignificantBits_le 0 n)
    simp [hzero]
  · have hpos := truncateToSignificantBits_pos hn (Int.natAbs_pos.mpr hz.ne')
    rw [Int.sign_eq_one_of_pos hz, Int.sign_eq_one_of_pos (by omega)]
    exact iff_of_true rfl (.inl hz.le)

/-- Everything is kept but the sign of a negative number of fewer than `n` bits. -/
theorem keepsTopBits_iff (hn : 1 ≤ n) : KeepsTopBits z n ↔ 0 ≤ z ∨ n ≤ z.natAbs.size := by
  rw [← sign_truncateInt_iff hn]
  refine ⟨KeepsTopBits.sign, fun hsign => ⟨hsign, fun i => ?_, truncateInt_idem hn, fun y hy => ?_, ?_⟩⟩
  · rw [natAbs_truncateInt]
    exact testBit_truncateToSignificantBits _ n i
  · rw [natAbs_truncateInt, natAbs_truncateInt]
    exact truncateToSignificantBits_mono hn hy
  · rw [natAbs_truncateInt]
    exact countSignificantBits_truncate _ n

theorem keepsTopBits_neg_five : KeepsTopBits (-5) 2 ∧ ¬ KeepsTopBits (-5) 4 := by
  rw [keepsTopBits_iff (by decide), keepsTopBits_iff (by decide)]
  decide

/-- A single bit does not keep its sign when two are asked for. -/
theorem truncateInt_loses_sign : truncateIntToSignificantBits (-1) 2 = 1 ∧ ¬ KeepsTopBits (-1) 2 :=
  ⟨by decide, fun h => absurd h.sign (by decide)⟩

end

end SectorChain
