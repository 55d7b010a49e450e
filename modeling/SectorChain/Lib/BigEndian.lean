import Mathlib.Data.Nat.Bitwise
import Mathlib.Tactic.Linarith
import Mathlib.Tactic.Ring

/-!
# Big-endian byte strings

Byte strings as numbers, and their bits counted from the first one.
-/

namespace SectorChain.Lib

/-- The number a byte string stands for, first byte most significant. -/
def beNat : List UInt8 → ℕ
  | [] => 0
  | b :: bs => b.toNat * 256 ^ bs.length + beNat bs

/-- The `width` low bytes of `n`, most significant byte first. -/
def beBytes : ℕ → ℕ → List UInt8
  | 0, _ => []
  | width + 1, n => UInt8.ofNat (n / 256 ^ width) :: beBytes width n

variable (bs : List UInt8)

/-- The bit at position `pos`, counted from the high bit of the first byte. -/
def beBit (pos : ℕ) : Bool := (bs.getD (pos / 8) 0).toNat.testBit (7 - pos % 8)

@[simp] lemma beNat_nil : beNat [] = 0 := rfl

@[simp] lemma beBytes_length (width n : ℕ) : (beBytes width n).length = width := by
  induction width with
  | zero => rfl
  | succ width ih => simp [beBytes, ih]

lemma beNat_lt : beNat bs < 256 ^ bs.length := by
  induction bs with
  | nil => simp [beNat]
  | cons b bs ih =>
    have hb : b.toNat + 1 ≤ 256 := b.toNat_lt
    calc beNat (b :: bs) < b.toNat * 256 ^ bs.length + 256 ^ bs.length := by
          simp only [beNat]
          omega
      _ = (b.toNat + 1) * 256 ^ bs.length := by ring
      _ ≤ 256 * 256 ^ bs.length := Nat.mul_le_mul_right _ hb
      _ = 256 ^ (b :: bs).length := by rw [List.length_cons, pow_succ, mul_comm]

lemma beNat_beBytes (width n : ℕ) : beNat (beBytes width n) = n % 256 ^ width := by
  induction width with
  | zero => simp [beBytes, Nat.mod_one]
  | succ width ih =>
    have hdigit : (UInt8.ofNat (n / 256 ^ width)).toNat = n / 256 ^ width % 256 := by
      simp
    rw [beBytes, beNat, hdigit, ih, beBytes_length, pow_succ, Nat.mod_mul, mul_comm, add_comm]

lemma beBytes_add_mul (width n m : ℕ) : beBytes width (m * 256 ^ width + n) = beBytes width n := by
  induction width generalizing m with
  | zero => rfl
  | succ width ih =>
    have hpos : 0 < 256 ^ width := Nat.pow_pos (by decide)
    have hsplit : m * 256 ^ (width + 1) + n = m * 256 * 256 ^ width + n := by ring
    rw [beBytes, hsplit, ih, Nat.add_comm, Nat.add_mul_div_right _ _ hpos]
    congr 1
    apply UInt8.toNat_inj.mp
    simp

lemma beBytes_beNat : beBytes bs.length (beNat bs) = bs := by
  induction bs with
  | nil => rfl
  | cons b bs ih =>
    have hlt := beNat_lt bs
    have hpos : 0 < 256 ^ bs.length := Nat.pow_pos (by decide)
    rw [List.length_cons, beBytes, beNat, beBytes_add_mul, ih, Nat.add_comm,
      Nat.add_mul_div_right _ _ hpos, Nat.div_eq_of_lt hlt]
    simp

lemma beNat_injective {xs ys : List UInt8} (hlen : xs.length = ys.length) (h : beNat xs = beNat ys) : xs = ys := by
  rw [← beBytes_beNat xs, h, hlen, beBytes_beNat]

lemma lt_iff_beNat_lt {xs ys : List UInt8} (hlen : xs.length = ys.length) : xs < ys ↔ beNat xs < beNat ys := by
  induction xs generalizing ys with
  | nil =>
    cases ys with
    | nil => simp
    | cons y ys => simp at hlen
  | cons x xs ih =>
    cases ys with
    | nil => simp at hlen
    | cons y ys =>
      have hl : xs.length = ys.length := by simpa using hlen
      have hx := beNat_lt xs
      have hy := beNat_lt ys
      rw [List.cons_lt_cons_iff, ih hl, beNat, beNat, hl]
      rw [hl] at hx
      constructor
      · rintro (hxy | ⟨rfl, hlt⟩)
        · have hstep : (x.toNat + 1) * 256 ^ ys.length ≤ y.toNat * 256 ^ ys.length :=
            Nat.mul_le_mul_right _ (UInt8.lt_iff_toNat_lt.mp hxy)
          have : (x.toNat + 1) * 256 ^ ys.length = x.toNat * 256 ^ ys.length + 256 ^ ys.length := by
            ring
          omega
        · omega
      · intro hlt
        rcases Nat.lt_trichotomy x.toNat y.toNat with h | h | h
        · exact .inl (UInt8.lt_iff_toNat_lt.mpr h)
        · refine .inr ⟨UInt8.toNat_inj.mp h, ?_⟩
          rw [h] at hlt
          omega
        · have hstep : (y.toNat + 1) * 256 ^ ys.length ≤ x.toNat * 256 ^ ys.length := Nat.mul_le_mul_right _ h
          have : (y.toNat + 1) * 256 ^ ys.length = y.toNat * 256 ^ ys.length + 256 ^ ys.length := by
            ring
          omega

lemma pow_length : (256 : ℕ) ^ bs.length = 2 ^ (8 * bs.length) := by
  rw [pow_mul]
  norm_num

lemma beNat_lt_two_pow : beNat bs < 2 ^ (8 * bs.length) :=
  pow_length bs ▸ beNat_lt bs

lemma testBit_beNat_high {i : ℕ} (hi : 8 * bs.length ≤ i) : (beNat bs).testBit i = false :=
  Nat.testBit_lt_two_pow ((beNat_lt_two_pow bs).trans_le (Nat.pow_le_pow_right (by decide) hi))

lemma testBit_beNat (pos : ℕ) (hpos : pos < 8 * bs.length) :
    (beNat bs).testBit (8 * bs.length - 1 - pos) = beBit bs pos := by
  induction bs generalizing pos with
  | nil => simp at hpos
  | cons b bs ih =>
    rw [beNat, pow_length, mul_comm b.toNat, List.length_cons]
    rw [List.length_cons] at hpos
    rw [Nat.testBit_two_pow_mul_add _ (beNat_lt_two_pow bs)]
    by_cases h8 : pos < 8
    · have hidx : ¬ 8 * (bs.length + 1) - 1 - pos < 8 * bs.length := by omega
      have hsub : 8 * (bs.length + 1) - 1 - pos - 8 * bs.length = 7 - pos := by omega
      have hdiv : pos / 8 = 0 := by omega
      have hmod : pos % 8 = pos := by omega
      rw [if_neg hidx, hsub, beBit, hdiv, hmod]
      rfl
    have hidx : 8 * (bs.length + 1) - 1 - pos < 8 * bs.length := by omega
    have hsub : 8 * (bs.length + 1) - 1 - pos = 8 * bs.length - 1 - (pos - 8) := by omega
    have hdiv : pos / 8 = (pos - 8) / 8 + 1 := by omega
    have hmod : pos % 8 = (pos - 8) % 8 := by omega
    rw [if_pos hidx, hsub, ih (pos - 8) (by omega), beBit, beBit, hdiv, hmod]
    rfl

lemma eq_of_beBit_eq {xs ys : List UInt8} (hlen : xs.length = ys.length)
    (h : ∀ pos, pos < 8 * xs.length → beBit xs pos = beBit ys pos) : xs = ys := by
  apply beNat_injective hlen
  apply Nat.eq_of_testBit_eq
  intro i
  by_cases hi : i < 8 * xs.length
  · have hx := testBit_beNat xs (8 * xs.length - 1 - i) (by omega)
    have hy := testBit_beNat ys (8 * xs.length - 1 - i) (by omega)
    have hidx : 8 * xs.length - 1 - (8 * xs.length - 1 - i) = i := by omega
    rw [← hlen, hidx] at hy
    rw [hidx] at hx
    rw [hx, hy, h _ (by omega)]
  · rw [testBit_beNat_high xs (by omega), testBit_beNat_high ys (by omega)]

lemma lt_of_first_beBit {xs ys : List UInt8} (hlen : xs.length = ys.length) {d : ℕ} (hd : d < 8 * xs.length)
    (hx : beBit xs d = false) (hy : beBit ys d = true) (hsame : ∀ i, i < d → beBit xs i = beBit ys i) : xs < ys := by
  rw [lt_iff_beNat_lt hlen]
  have hbx := testBit_beNat xs d hd
  have hby := testBit_beNat ys d (by omega)
  rw [← hlen] at hby
  refine Nat.lt_of_testBit (8 * xs.length - 1 - d) (hbx.trans hx) (hby.trans hy) ?_
  intro j hj
  by_cases hjlen : j < 8 * xs.length
  · have hjx := testBit_beNat xs (8 * xs.length - 1 - j) (by omega)
    have hjy := testBit_beNat ys (8 * xs.length - 1 - j) (by omega)
    have hidx : 8 * xs.length - 1 - (8 * xs.length - 1 - j) = j := by omega
    rw [hidx] at hjx
    rw [← hlen, hidx] at hjy
    rw [hjx, hjy, hsame _ (by omega)]
  · rw [testBit_beNat_high xs (by omega), testBit_beNat_high ys (by omega)]

/-- The number a byte string stands for in two's complement. -/
def beInt : ℤ :=
  if 2 * beNat bs < 256 ^ bs.length then (beNat bs : ℤ) else (beNat bs : ℤ) - 256 ^ bs.length

/-- The two's complement encoding in `width` bytes. -/
def beBytesInt (width : ℕ) (z : ℤ) : List UInt8 := beBytes width (z % 256 ^ width).toNat

lemma beBytesInt_length (width : ℕ) (z : ℤ) : (beBytesInt width z).length = width :=
  beBytes_length width _

lemma beNat_beBytesInt (width : ℕ) (z : ℤ) : (beNat (beBytesInt width z) : ℤ) = z % 256 ^ width := by
  have hpos : (0 : ℤ) < 256 ^ width := by positivity
  have hnonneg := Int.emod_nonneg z hpos.ne'
  have hlt := Int.emod_lt_of_pos z hpos
  unfold beBytesInt
  rw [beNat_beBytes, Int.natCast_mod, Int.toNat_of_nonneg hnonneg]
  push_cast
  exact Int.emod_eq_of_lt hnonneg hlt

lemma beInt_beBytesInt {width : ℕ} {z : ℤ} (hlo : -(256 ^ width) ≤ 2 * z)
    (hhi : 2 * z < 256 ^ width) : beInt (beBytesInt width z) = z := by
  have hnat := beNat_beBytesInt width z
  have hcast : (2 * beNat (beBytesInt width z) < 256 ^ width) ↔ 2 * (beNat (beBytesInt width z) : ℤ) < 256 ^ width := by
    rw [← Int.ofNat_lt]
    push_cast
    rfl
  unfold beInt
  rw [beBytesInt_length]
  by_cases hz : 0 ≤ z
  · have hmod : z % 256 ^ width = z := Int.emod_eq_of_lt hz (by linarith)
    rw [hmod] at hnat
    rw [if_pos (hcast.mpr (by rw [hnat]; exact hhi)), hnat]
  have hmod : z % 256 ^ width = z + 256 ^ width := by
    rw [← Int.add_emod_right]
    exact Int.emod_eq_of_lt (by linarith) (by linarith)
  rw [hmod] at hnat
  rw [if_neg (fun h => by linarith), hnat]
  ring

lemma beBytesInt_beInt : beBytesInt bs.length (beInt bs) = bs := by
  have hlt : (beNat bs : ℤ) < 256 ^ bs.length := by exact_mod_cast beNat_lt bs
  have hmod : beInt bs % 256 ^ bs.length = beNat bs := by
    unfold beInt
    split
    · exact Int.emod_eq_of_lt (Int.natCast_nonneg _) hlt
    · rw [← Int.add_emod_right]
      have hcancel : (beNat bs : ℤ) - 256 ^ bs.length + 256 ^ bs.length = beNat bs := by ring
      rw [hcancel]
      exact Int.emod_eq_of_lt (Int.natCast_nonneg _) hlt
  unfold beBytesInt
  rw [hmod, Int.toNat_natCast, beBytes_beNat]

end SectorChain.Lib
