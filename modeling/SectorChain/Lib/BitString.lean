import Mathlib.Data.Nat.Bitwise
import Mathlib.Data.List.Basic
import Mathlib.Tactic.Ring

/-!
# Numbers packed into bit strings

Each number takes `width` bits, with the high bit first.
-/

namespace SectorChain.Lib

open List

/-- The `width` low bits of a number, the high one first. -/
def bitsOfNat : ℕ → ℕ → List Bool
  | 0, _ => []
  | width + 1, n => n.testBit width :: bitsOfNat width n

def natOfBits : List Bool → ℕ
  | [] => 0
  | b :: bits => b.toNat * 2 ^ bits.length + natOfBits bits

@[simp] lemma length_bitsOfNat (width n : ℕ) : (bitsOfNat width n).length = width := by
  induction width with
  | zero => rfl
  | succ width ih => rw [bitsOfNat, length_cons, ih]

lemma natOfBits_lt (bits : List Bool) : natOfBits bits < 2 ^ bits.length := by
  induction bits with
  | nil => exact Nat.one_pos
  | cons b bits ih =>
    have hb : b.toNat * 2 ^ bits.length ≤ 1 * 2 ^ bits.length := Nat.mul_le_mul_right _ (Bool.toNat_le b)
    rw [natOfBits, length_cons]
    omega

lemma natOfBits_bitsOfNat (width n : ℕ) : natOfBits (bitsOfNat width n) = n % 2 ^ width := by
  induction width with
  | zero => simp [bitsOfNat, natOfBits, Nat.mod_one]
  | succ width ih =>
    have hbit : (n.testBit width).toNat = n / 2 ^ width % 2 := by
      rw [Nat.testBit_eq_decide_div_mod_eq]
      rcases Nat.mod_two_eq_zero_or_one (n / 2 ^ width) with h | h <;> simp [h]
    rw [bitsOfNat, natOfBits, length_bitsOfNat, ih, hbit, pow_succ, Nat.mod_mul, Nat.add_comm, Nat.mul_comm]

lemma testBit_natOfBits_cons (b : Bool) (bits : List Bool) : (natOfBits (b :: bits)).testBit bits.length = b := by
  have hlt := natOfBits_lt bits
  rw [natOfBits, Nat.mul_comm, Nat.testBit_two_pow_mul_add _ hlt, if_neg (Nat.lt_irrefl _), Nat.sub_self]
  cases b <;> rfl

lemma bitsOfNat_add_mul (width n m : ℕ) : bitsOfNat width (m * 2 ^ width + n) = bitsOfNat width n := by
  induction width generalizing m with
  | zero => rfl
  | succ width ih =>
    have hsplit : m * 2 ^ (width + 1) + n = m * 2 * 2 ^ width + n := by ring
    have hpos : 0 < 2 ^ width := Nat.two_pow_pos width
    rw [bitsOfNat, bitsOfNat, hsplit, ih, Nat.testBit_eq_decide_div_mod_eq, Nat.testBit_eq_decide_div_mod_eq, Nat.add_comm,
      Nat.add_mul_div_right _ _ hpos, Nat.add_mul_mod_self_right]

lemma bitsOfNat_natOfBits (bits : List Bool) : bitsOfNat bits.length (natOfBits bits) = bits := by
  induction bits with
  | nil => rfl
  | cons b bits ih =>
    rw [length_cons, bitsOfNat, testBit_natOfBits_cons, natOfBits, bitsOfNat_add_mul, ih]

variable {α : Type}

/-- The parts of `n` elements each; a rest is left out. -/
def groups (n : ℕ) (l : List α) : List (List α) := (List.range (l.length / n)).map fun i => (l.drop (i * n)).take n

lemma groups_append {n : ℕ} (hn : 0 < n) {a : List α} (ha : a.length = n) (l : List α) :
    groups n (a ++ l) = a :: groups n l := by
  have hcount : (a ++ l).length / n = l.length / n + 1 := by
    rw [length_append, ha, Nat.add_div_left _ hn]
  unfold groups
  rw [hcount, range_succ_eq_map, map_cons, map_map]
  congr 1
  · rw [Nat.zero_mul, drop_zero, ← ha, take_left]
  · refine map_congr_left fun i _ => ?_
    have hskip : (i + 1) * n = a.length + i * n := by rw [Nat.succ_mul, ha, Nat.add_comm]
    rw [Function.comp_apply, hskip, drop_length_add_append]

lemma groups_flatten {n : ℕ} (hn : 0 < n) {parts : List (List α)} (h : ∀ part ∈ parts, part.length = n) :
    groups n parts.flatten = parts := by
  induction parts with
  | nil => simp [groups]
  | cons part parts ih =>
    rw [flatten_cons, groups_append hn (h part mem_cons_self), ih fun p hp => h p (mem_cons_of_mem _ hp)]

lemma exists_groups {n : ℕ} {l : List α} (h : n ∣ l.length) :
    ∃ parts : List (List α), l = parts.flatten ∧ ∀ part ∈ parts, part.length = n := by
  obtain ⟨count, hcount⟩ := h
  induction count generalizing l with
  | zero =>
    exact ⟨[], eq_nil_of_length_eq_zero hcount, fun _ h => by cases h⟩
  | succ count ih =>
    rw [Nat.mul_succ] at hcount
    obtain ⟨parts, hparts, hlengths⟩ := ih (l := l.drop n) (by rw [length_drop]; omega)
    refine ⟨l.take n :: parts, ?_, forall_mem_cons.mpr ⟨?_, hlengths⟩⟩
    · rw [flatten_cons, ← hparts, take_append_drop]
    · rw [length_take]
      omega

def packBits (width : ℕ) (ns : List ℕ) : List Bool := (ns.map (bitsOfNat width)).flatten

def unpackBits (width : ℕ) (bits : List Bool) : List ℕ := (groups width bits).map natOfBits

variable {width : ℕ}

@[simp] lemma length_packBits (width : ℕ) (ns : List ℕ) : (packBits width ns).length = ns.length * width := by
  simp [packBits, Function.comp_def]

@[simp] lemma length_unpackBits (width : ℕ) (bits : List Bool) : (unpackBits width bits).length = bits.length / width := by
  simp [unpackBits, groups]

lemma unpackBits_packBits (hwidth : 0 < width) {ns : List ℕ} (h : ∀ n ∈ ns, n < 2 ^ width) :
    unpackBits width (packBits width ns) = ns := by
  have hlengths : ∀ part ∈ ns.map (bitsOfNat width), part.length = width := by
    intro part hpart
    obtain ⟨n, -, rfl⟩ := mem_map.mp hpart
    exact length_bitsOfNat width n
  rw [unpackBits, packBits, groups_flatten hwidth hlengths, map_map]
  conv_rhs => rw [← map_id ns]
  refine map_congr_left fun n hn => ?_
  rw [Function.comp_apply, natOfBits_bitsOfNat, Nat.mod_eq_of_lt (h n hn), id]

lemma packBits_unpackBits (hwidth : 0 < width) {bits : List Bool} (h : width ∣ bits.length) :
    packBits width (unpackBits width bits) = bits := by
  obtain ⟨parts, rfl, hlengths⟩ := exists_groups h
  rw [packBits, unpackBits, groups_flatten hwidth hlengths, map_map]
  congr 1
  conv_rhs => rw [← map_id parts]
  refine map_congr_left fun part hpart => ?_
  rw [Function.comp_apply, ← hlengths part hpart, bitsOfNat_natOfBits, id]

lemma unpackBits_lt {bits : List Bool} (n : ℕ) (hn : n ∈ unpackBits width bits) : n < 2 ^ width := by
  obtain ⟨part, hpart, rfl⟩ := mem_map.mp hn
  obtain ⟨i, -, rfl⟩ := mem_map.mp hpart
  exact (natOfBits_lt _).trans_le (Nat.pow_le_pow_right (by decide) (length_take_le _ _))

end SectorChain.Lib
