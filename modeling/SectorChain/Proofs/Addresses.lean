import SectorChain.Lib.Radix
import SectorChain.Util.Bech32m
import Mathlib.Data.List.Induction

/-!
# Addresses of puzzle hashes

Regrouping bits keeps the number that the groups stand for.
-/

namespace SectorChain.Bech32m

open Lib List Nat

structure Regrouped (tobits n total acc bits : ℕ) (ret : List ℕ) : Prop where
  length : ret.length * tobits + bits = total
  digits : ∀ d ∈ ret, d < 2 ^ tobits
  value : numeral (2 ^ tobits) ret * 2 ^ bits + acc % 2 ^ bits = n

variable {frombits tobits n total acc bits : ℕ} {ret : List ℕ}
variable {c : Fin 0x110000} {data out : List ℕ} {hrp : PyStr} {s : Regroup} {value : ℕ}

lemma mask_eq_mod (x t : ℕ) : x &&& ((1 <<< t) - 1) = x % 2 ^ t := by
  rw [shiftLeft_eq, Nat.one_mul, and_two_pow_sub_one_eq_mod]

lemma Regrouped.takeGroup (h : Regrouped tobits n total acc bits ret) (hbits : tobits ≤ bits) :
    Regrouped tobits n total acc (bits - tobits) (ret ++ [(acc >>> (bits - tobits)) &&& ((1 <<< tobits) - 1)]) where
  length := by
    have hlength := h.length
    rw [length_append, length_singleton, Nat.add_mul]
    omega
  digits := by
    refine forall_mem_append.mpr ⟨h.digits, forall_mem_singleton.mpr ?_⟩
    rw [mask_eq_mod]
    exact mod_lt _ (Nat.two_pow_pos _)
  value := by
    have hsplit : acc % 2 ^ bits =
        acc % 2 ^ (bits - tobits) + 2 ^ (bits - tobits) * (acc / 2 ^ (bits - tobits) % 2 ^ tobits) := by
      rw [← mod_mul, ← Nat.pow_add, Nat.sub_add_cancel hbits]
    have hpow : 2 ^ bits = 2 ^ tobits * 2 ^ (bits - tobits) := by
      rw [← Nat.pow_add, Nat.add_sub_cancel' hbits]
    rw [numeral_concat, mask_eq_mod, shiftRight_eq_div_pow, ← h.value, hsplit, hpow]
    ring

lemma Regrouped.takeGroups (htobits : 0 < tobits) (rounds : ℕ) (hrounds : bits ≤ rounds)
    (h : Regrouped tobits n total acc bits ret) :
    Regrouped tobits n total acc (takeGroups tobits acc rounds bits ret).1 (takeGroups tobits acc rounds bits ret).2 ∧
      (Bech32m.takeGroups tobits acc rounds bits ret).1 < tobits := by
  induction rounds generalizing bits ret with
  | zero =>
    rw [Bech32m.takeGroups]
    exact ⟨h, by omega⟩
  | succ rounds ih =>
    rw [Bech32m.takeGroups]
    split
    · rename_i hbits
      exact ih (by omega) (h.takeGroup hbits)
    · rename_i hbits
      exact ⟨h, Nat.lt_of_not_le hbits⟩

lemma Regrouped.push (h : Regrouped tobits n total acc bits ret) (hbits : bits < tobits) (hvalue : value < 2 ^ frombits) :
    Regrouped tobits (n * 2 ^ frombits + value) (total + frombits)
      (((acc <<< frombits) ||| value) &&& ((1 <<< (frombits + tobits - 1)) - 1)) (bits + frombits) ret where
  length := by
    have hlength := h.length
    omega
  digits := h.digits
  value := by
    have hle : bits + frombits ≤ frombits + tobits - 1 := by omega
    have hmod : (acc * 2 ^ frombits + value) % 2 ^ frombits = value := by
      rw [Nat.add_comm, add_mul_mod_self_right, mod_eq_of_lt hvalue]
    have hdiv : (acc * 2 ^ frombits + value) / 2 ^ frombits = acc := by
      rw [Nat.add_comm, add_mul_div_right _ _ (Nat.two_pow_pos _), div_eq_of_lt hvalue, Nat.zero_add]
    have hlow : (acc * 2 ^ frombits + value) % 2 ^ (frombits + bits) = acc % 2 ^ bits * 2 ^ frombits + value := by
      rw [Nat.pow_add, mod_mul, hmod, hdiv, Nat.mul_comm, Nat.add_comm]
    rw [mask_eq_mod, mod_mod_of_dvd _ (Nat.pow_dvd_pow 2 hle), ← shiftLeft_add_eq_or_of_lt hvalue,
      shiftLeft_eq, Nat.add_comm bits frombits, hlow, ← h.value]
    ring

lemma convertbitsStep_ok (htobits : 0 < tobits) {s' : Regroup} (h : Regrouped tobits n total s.acc s.bits s.ret)
    (hbits : s.bits < tobits) (hrun : convertbitsStep frombits tobits s value = .ok s') :
    value < 2 ^ frombits ∧ Regrouped tobits (n * 2 ^ frombits + value) (total + frombits) s'.acc s'.bits s'.ret ∧
      s'.bits < tobits := by
  unfold convertbitsStep at hrun
  split at hrun
  · cases hrun
  rename_i hshift
  cases hrun
  have hvalue : value < 2 ^ frombits := by
    rw [Decidable.not_not, shiftRight_eq_div_pow, Nat.div_eq_zero_iff] at hshift
    exact hshift.resolve_left (Nat.two_pow_pos _).ne'
  exact ⟨hvalue, (h.push hbits hvalue).takeGroups htobits _ (Nat.le_refl _)⟩

lemma exists_convertbitsStep (hvalue : value < 2 ^ frombits) :
    ∃ s', convertbitsStep frombits tobits s value = .ok s' := by
  unfold convertbitsStep
  have hshift : value >>> frombits = 0 := by
    rw [shiftRight_eq_div_pow, div_eq_of_lt hvalue]
  rw [if_neg (by rw [hshift]; simp)]
  exact ⟨_, rfl⟩

/-- What the loop has done with the data. -/
structure Converted (frombits tobits : ℕ) (data : List ℕ) (s : Regroup) : Prop where
  data_lt : ∀ d ∈ data, d < 2 ^ frombits
  regrouped : Regrouped tobits (numeral (2 ^ frombits) data) (data.length * frombits) s.acc s.bits s.ret
  bits_lt : s.bits < tobits

lemma converted_of_foldlM (htobits : 0 < tobits) (data : List ℕ)
    (hrun : data.foldlM (convertbitsStep frombits tobits) ⟨0, 0, []⟩ = .ok s) : Converted frombits tobits data s := by
  induction data using List.reverseRecOn generalizing s with
  | nil =>
    cases hrun
    exact ⟨nofun, ⟨by simp, nofun, by simp [mod_one]⟩, htobits⟩
  | append_singleton data value ih =>
    rw [foldlM_append] at hrun
    obtain ⟨s₁, hrun₁, hstep⟩ := bind_eq_ok.mp hrun
    obtain ⟨s₂, hstep, hpure⟩ := bind_eq_ok.mp hstep
    cases hpure
    have hbefore := ih hrun₁
    obtain ⟨hvalue, hregrouped, hbits⟩ := convertbitsStep_ok htobits hbefore.regrouped hbefore.bits_lt hstep
    refine ⟨forall_mem_append.mpr ⟨hbefore.data_lt, forall_mem_singleton.mpr hvalue⟩, ?_, hbits⟩
    rw [numeral_concat, length_append, length_singleton, Nat.add_mul, Nat.one_mul]
    exact hregrouped

lemma exists_foldlM (hdata : ∀ d ∈ data, d < 2 ^ frombits) (s : Regroup) :
    ∃ s', data.foldlM (convertbitsStep frombits tobits) s = .ok s' := by
  induction data generalizing s with
  | nil => exact ⟨s, rfl⟩
  | cons value data ih =>
    obtain ⟨s₁, hstep⟩ : ∃ s₁, convertbitsStep frombits tobits s value = .ok s₁ :=
      exists_convertbitsStep (hdata value mem_cons_self)
    obtain ⟨s₂, hrest⟩ := ih (fun d hd => hdata d (mem_cons_of_mem _ hd)) s₁
    exact ⟨s₂, bind_eq_ok.mpr ⟨s₁, hstep, hrest⟩⟩

lemma rest_eq (acc : ℕ) (hbits : bits < tobits) :
    (acc <<< (tobits - bits)) &&& ((1 <<< tobits) - 1) = acc % 2 ^ bits * 2 ^ (tobits - bits) := by
  have hpow : 2 ^ tobits = 2 ^ bits * 2 ^ (tobits - bits) := by
    rw [← Nat.pow_add, Nat.add_sub_cancel' (Nat.le_of_lt hbits)]
  rw [mask_eq_mod, shiftLeft_eq, hpow, mul_mod_mul_right]

lemma convertbits_pad (htobits : 0 < tobits) {data : List ℕ} (hdata : ∀ d ∈ data, d < 2 ^ frombits) :
    ∃ out padding, convertbits data frombits tobits true = .ok out ∧ padding < tobits ∧
      out.length * tobits = data.length * frombits + padding ∧ (∀ d ∈ out, d < 2 ^ tobits) ∧
      numeral (2 ^ tobits) out = numeral (2 ^ frombits) data * 2 ^ padding := by
  obtain ⟨s, hrun⟩ : ∃ s, data.foldlM (convertbitsStep frombits tobits) ⟨0, 0, []⟩ = .ok s := exists_foldlM hdata _
  obtain ⟨-, hregrouped, hbits⟩ := converted_of_foldlM htobits data hrun
  have hlength := hregrouped.length
  have hvalue := hregrouped.value
  unfold convertbits
  rw [hrun]
  by_cases hzero : s.bits = 0
  · refine ⟨s.ret, 0, by simp [hzero], htobits, ?_, hregrouped.digits, ?_⟩
    · omega
    · rw [hzero, Nat.pow_zero, mod_one] at hvalue
      rw [← hvalue]
      ring
  refine ⟨s.ret ++ [s.acc % 2 ^ s.bits * 2 ^ (tobits - s.bits)], tobits - s.bits, ?_, by omega, ?_, ?_, ?_⟩
  · rw [ok_bind, rest_eq _ hbits]
    simp [hzero]
  · rw [length_append, length_singleton, Nat.add_mul]
    omega
  · refine forall_mem_append.mpr ⟨hregrouped.digits, forall_mem_singleton.mpr ?_⟩
    rw [← rest_eq _ hbits, mask_eq_mod]
    exact mod_lt _ (Nat.two_pow_pos _)
  · have hpow : 2 ^ tobits = 2 ^ s.bits * 2 ^ (tobits - s.bits) := by
      rw [← Nat.pow_add, Nat.add_sub_cancel' (Nat.le_of_lt hbits)]
    rw [numeral_concat, ← hvalue, Nat.add_mul, Nat.mul_assoc, ← hpow]

lemma convertbits_strict (htobits : 0 < tobits) :
    convertbits data frombits tobits false = .ok out ↔ (∀ d ∈ data, d < 2 ^ frombits) ∧
      (∀ d ∈ out, d < 2 ^ tobits) ∧ ∃ left, left < tobits ∧ left < frombits ∧
        out.length * tobits + left = data.length * frombits ∧
        numeral (2 ^ tobits) out * 2 ^ left = numeral (2 ^ frombits) data := by
  constructor
  · intro h
    obtain ⟨s, hrun, h⟩ := bind_eq_ok.mp h
    obtain ⟨hdata, hregrouped, hbits⟩ := converted_of_foldlM htobits data hrun
    rw [if_neg (by simp), rest_eq _ hbits] at h
    split at h
    · cases h
    rename_i hleft
    cases h
    rw [not_or, Nat.not_le, Decidable.not_not, Nat.mul_eq_zero] at hleft
    have hzero : s.acc % 2 ^ s.bits = 0 := hleft.2.resolve_right (Nat.two_pow_pos _).ne'
    have hvalue := hregrouped.value
    rw [hzero] at hvalue
    exact ⟨hdata, hregrouped.digits, s.bits, hbits, hleft.1, hregrouped.length, hvalue⟩
  · rintro ⟨hdata, hout, left, hlt, hleft, hlength, hvalue⟩
    obtain ⟨s, hrun⟩ : ∃ s, data.foldlM (convertbitsStep frombits tobits) ⟨0, 0, []⟩ = .ok s := exists_foldlM hdata _
    obtain ⟨-, hregrouped, hbits⟩ := converted_of_foldlM htobits data hrun
    have hlength' := hregrouped.length
    -- both cut the same number of bits, so as many groups and as many bits are left
    have hdiv : s.ret.length = out.length ∧ s.bits = left := by
      have hsum : s.ret.length * tobits + s.bits = out.length * tobits + left := hlength'.trans hlength.symm
      have h₁ := congrArg (· / tobits) hsum
      have h₂ := congrArg (· % tobits) hsum
      simp only [Nat.mul_comm _ tobits, mul_add_div htobits, mul_add_mod, div_eq_of_lt hbits,
        div_eq_of_lt hlt, mod_eq_of_lt hbits, mod_eq_of_lt hlt, Nat.add_zero] at h₁ h₂
      exact ⟨h₁, h₂⟩
    obtain ⟨hgroups, rfl⟩ := hdiv
    have hsame : s.acc % 2 ^ s.bits = 0 ∧ numeral (2 ^ tobits) s.ret = numeral (2 ^ tobits) out := by
      have hvalue' := hregrouped.value.trans hvalue.symm
      have h₁ := congrArg (· % 2 ^ s.bits) hvalue'
      have h₂ := congrArg (· / 2 ^ s.bits) hvalue'
      have hlt' : s.acc % 2 ^ s.bits < 2 ^ s.bits := mod_lt _ (Nat.two_pow_pos _)
      simp only [Nat.mul_comm _ (2 ^ s.bits), mul_add_mod, mul_mod_right, mod_mod,
        mul_add_div (Nat.two_pow_pos _), Nat.mul_div_cancel_left _ (Nat.two_pow_pos s.bits),
        div_eq_of_lt hlt', Nat.add_zero] at h₁ h₂
      exact ⟨h₁, h₂⟩
    have hret : s.ret = out := numeral_injective (Nat.one_lt_two_pow htobits.ne') hgroups hregrouped.digits hout hsame.2
    refine bind_eq_ok.mpr ⟨s, hrun, ?_⟩
    rw [if_neg (by simp), rest_eq _ hbits, hsame.1, hret, if_neg (by simp; exact hleft)]
    rfl

lemma convertbits_back (hdata : ∀ d ∈ data, d < 2 ^ 8) (h : convertbits data 8 5 true = .ok out) :
    convertbits out 5 8 false = .ok data := by
  obtain ⟨out', padding, hrun, hpadding, hlength, hdigits, hvalue⟩ := @convertbits_pad 8 5 (by decide) data hdata
  rw [h] at hrun
  cases hrun
  rw [convertbits_strict (by decide)]
  exact ⟨hdigits, hdata, padding, by omega, hpadding, hlength.symm, hvalue.symm⟩

lemma convertbits_forth (h : convertbits data 5 8 false = .ok out) : convertbits out 8 5 true = .ok data := by
  obtain ⟨hdata, hout, left, -, hleft, hlength, hvalue⟩ := (convertbits_strict (by decide)).mp h
  obtain ⟨data', padding, hrun, hpadding, hlength', hdata', hvalue'⟩ := @convertbits_pad 8 5 (by decide) out hout
  have hsame : padding = left := by omega
  rw [hsame, hvalue] at hvalue'
  rw [hrun, numeral_injective (by decide) (by omega) hdata' hdata hvalue']

/-- What the part that was shifted out adds. -/
def feedback (top : ℕ) : ℕ :=
  generatorTerm top 0 ^^^ generatorTerm top 1 ^^^ generatorTerm top 2 ^^^ generatorTerm top 3 ^^^ generatorTerm top 4

lemma polymodStep_eq (chk value : ℕ) :
    polymodStep chk value = ((chk &&& 0x1FFFFFF) <<< 5) ^^^ value ^^^ feedback (chk >>> 25) := by
  simp only [polymodStep, feedback, range_succ, range_zero, nil_append, cons_append,
    foldl_cons, foldl_nil, Nat.xor_assoc]

lemma generatorTerm_xor (a b i : ℕ) : generatorTerm (a ^^^ b) i = generatorTerm a i ^^^ generatorTerm b i := by
  have hbit : ∀ x : ℕ, (x >>> i &&& 1 ≠ 0) ↔ x.testBit i = true := by
    intro x
    rw [Nat.testBit, Nat.and_comm, bne_iff_ne]
  unfold generatorTerm
  simp only [hbit, testBit_xor]
  cases a.testBit i <;> cases b.testBit i <;> simp

lemma feedback_xor (a b : ℕ) : feedback (a ^^^ b) = feedback a ^^^ feedback b := by
  simp only [feedback, generatorTerm_xor]
  ac_rfl

lemma polymodStep_xor (a b v w : ℕ) : polymodStep (a ^^^ b) (v ^^^ w) = polymodStep a v ^^^ polymodStep b w := by
  simp only [polymodStep_eq, Nat.and_xor_distrib_right, shiftLeft_xor_distrib, shiftRight_xor_distrib, feedback_xor]
  ac_rfl

lemma polymod_xor (xs ys : List ℕ) (hlen : xs.length = ys.length) (a b : ℕ) :
    (List.zipWith (· ^^^ ·) xs ys).foldl polymodStep (a ^^^ b) = xs.foldl polymodStep a ^^^ ys.foldl polymodStep b := by
  induction xs generalizing ys a b with
  | nil =>
    cases ys with
    | nil => rfl
    | cons y ys => cases hlen
  | cons x xs ih =>
    cases ys with
    | nil => cases hlen
    | cons y ys =>
      rw [zipWith_cons_cons, foldl_cons, polymodStep_xor]
      exact ih ys (Nat.succ.inj hlen) _ _

lemma polymodStep_small {chk : ℕ} (hchk : chk < 2 ^ 25) (hvalue : value < 2 ^ 5) :
    polymodStep chk value = chk * 2 ^ 5 + value := by
  have hmask : chk &&& 0x1FFFFFF = chk := by
    rw [show 0x1FFFFFF = 2 ^ 25 - 1 by decide, and_two_pow_sub_one_eq_mod, mod_eq_of_lt hchk]
  have htop : chk >>> 25 = 0 := by
    rw [shiftRight_eq_div_pow, div_eq_of_lt hchk]
  have hxor : (chk <<< 5) ^^^ value = chk * 2 ^ 5 + value := by
    rw [← shiftLeft_eq, shiftLeft_add_eq_or_of_lt hvalue]
    apply eq_of_testBit_eq
    intro i
    by_cases hi : 5 ≤ i
    · have hbit : value.testBit i = false :=
        testBit_lt_two_pow (Nat.lt_of_lt_of_le hvalue (Nat.pow_le_pow_right (by decide) hi))
      simp [hbit]
    · simp [hi]
  rw [polymodStep_eq, hmask, htop, hxor, show feedback 0 = 0 by decide, xor_zero]

lemma polymod_digits (d : List ℕ) (hlen : d.length ≤ 6) (hd : ∀ x ∈ d, x < 2 ^ 5) :
    d.foldl polymodStep 0 = numeral (2 ^ 5) d := by
  induction d using List.reverseRecOn with
  | nil => rfl
  | append_singleton d x ih =>
    rw [length_append, length_singleton] at hlen
    have hd' : ∀ y ∈ d, y < 2 ^ 5 := fun y hy => hd y (mem_append_left _ hy)
    have hsmall : numeral (2 ^ 5) d < 2 ^ 25 := by
      refine Nat.lt_of_lt_of_le (numeral_lt (by decide) hd') ?_
      rw [← Nat.pow_mul]
      exact Nat.pow_le_pow_right (by decide) (by omega)
    rw [foldl_append, ih (by omega) hd', foldl_cons, foldl_nil, numeral_concat,
      polymodStep_small hsmall (hd x (by simp))]

lemma polymod_last (chk : ℕ) {d : List ℕ} (hlen : d.length = 6) (hd : ∀ x ∈ d, x < 2 ^ 5) :
    d.foldl polymodStep chk = [0, 0, 0, 0, 0, 0].foldl polymodStep chk ^^^ numeral (2 ^ 5) d := by
  have hzip : List.zipWith (· ^^^ ·) [0, 0, 0, 0, 0, 0] d = d := by
    match d, hlen with
    | [a, b, c, x, y, z], _ => simp
  have hsplit := polymod_xor [0, 0, 0, 0, 0, 0] d hlen.symm chk 0
  rw [hzip, xor_zero, polymod_digits d (by omega) hd] at hsplit
  exact hsplit

lemma generatorTerm_lt (top i : ℕ) : generatorTerm top i < 2 ^ 30 := by
  unfold generatorTerm
  split
  · match i with
    | 0 | 1 | 2 | 3 | 4 => decide
    | _ + 5 => exact Nat.two_pow_pos 30
  · exact Nat.two_pow_pos 30

lemma polymodStep_lt (chk : ℕ) (hvalue : value < 2 ^ 30) : polymodStep chk value < 2 ^ 30 := by
  have hshift : (chk &&& 0x1FFFFFF) <<< 5 < 2 ^ 30 := by
    rw [show 0x1FFFFFF = 2 ^ 25 - 1 by decide, and_two_pow_sub_one_eq_mod]
    omega
  rw [polymodStep_eq]
  refine xor_lt_two_pow (xor_lt_two_pow hshift hvalue) ?_
  exact xor_lt_two_pow (xor_lt_two_pow (xor_lt_two_pow (xor_lt_two_pow (generatorTerm_lt _ _)
    (generatorTerm_lt _ _)) (generatorTerm_lt _ _)) (generatorTerm_lt _ _)) (generatorTerm_lt _ _)

def checksumNumber (hrp : PyStr) (data : List ℕ) : ℕ :=
  [0, 0, 0, 0, 0, 0].foldl polymodStep (bech32Polymod (bech32HrpExpand hrp ++ data)) ^^^ M

lemma checksumNumber_lt (hrp : PyStr) (data : List ℕ) : checksumNumber hrp data < 2 ^ 30 :=
  xor_lt_two_pow (polymodStep_lt _ (by decide)) (by decide)

lemma checksum_digits (hrp : PyStr) (data : List ℕ) :
    (bech32CreateChecksum hrp data).length = 6 ∧ (∀ d ∈ bech32CreateChecksum hrp data, d < 2 ^ 5) ∧
      numeral (2 ^ 5) (bech32CreateChecksum hrp data) = checksumNumber hrp data := by
  have hnumber : bech32Polymod (bech32HrpExpand hrp ++ data ++ [0, 0, 0, 0, 0, 0]) ^^^ M = checksumNumber hrp data := by
    rw [bech32Polymod, foldl_append]
    rfl
  have hlt := checksumNumber_lt hrp data
  unfold bech32CreateChecksum
  dsimp only
  rw [hnumber]
  have hmask : ∀ x : ℕ, x &&& 31 = x % 32 := fun x => and_two_pow_sub_one_eq_mod x 5
  refine ⟨by simp, ?_, ?_⟩
  · intro d hd
    obtain ⟨i, -, rfl⟩ := mem_map.mp hd
    rw [hmask]
    exact mod_lt _ (by decide)
  · generalize checksumNumber hrp data = p at hlt ⊢
    simp only [range_succ, range_zero, nil_append, map_append, map_cons, map_nil,
      numeral_concat, numeral_singleton, hmask, shiftRight_eq_div_pow]
    omega

lemma withChecksum_lt (hrp : PyStr) (h : ∀ d ∈ data, d < 2 ^ 5) : ∀ d ∈ data ++ bech32CreateChecksum hrp data, d < 2 ^ 5 :=
  forall_mem_append.mpr ⟨h, (checksum_digits hrp data).2.1⟩

lemma verifyChecksum_iff {d : List ℕ} (hlen : d.length = 6) (hd : ∀ x ∈ d, x < 2 ^ 5) :
    bech32VerifyChecksum hrp (data ++ d) = true ↔ d = bech32CreateChecksum hrp data := by
  obtain ⟨hlength, hdigits, hvalue⟩ := checksum_digits hrp data
  have hverify : bech32VerifyChecksum hrp (data ++ d) = true ↔ numeral (2 ^ 5) d = checksumNumber hrp data := by
    unfold bech32VerifyChecksum checksumNumber
    rw [decide_eq_true_iff, ← append_assoc, bech32Polymod, foldl_append, polymod_last _ hlen hd]
    constructor
    · intro h
      rw [bech32Polymod, ← h, ← Nat.xor_assoc, Nat.xor_self, zero_xor]
    · intro h
      rw [h, bech32Polymod, ← Nat.xor_assoc, Nat.xor_self, zero_xor]
  rw [hverify, ← hvalue]
  constructor
  · intro h
    exact numeral_injective (by decide) (by omega) hd hdigits h
  · rintro rfl
    rfl

lemma of_all_charset {p : Fin 0x110000 → Prop} [DecidablePred p] (h : (CHARSET.all fun x => p x) = true) :
    ∀ x ∈ CHARSET, p x :=
  fun x hx => of_decide_eq_true (all_eq_true.mp h x hx)

lemma charset_text : ∀ x ∈ CHARSET, 33 ≤ x.val ∧ x.val ≤ 126 ∧ lowerChar x = x ∧ x ≠ SEPARATOR :=
  of_all_charset (by decide +kernel)

lemma idxOf_charset : ∀ d < 2 ^ 5, CHARSET[d]? = some (CHARSET.getD d 0) ∧ CHARSET.getD d 0 ∈ CHARSET ∧
    CHARSET.idxOf (CHARSET.getD d 0) = d := by decide +kernel

lemma charset_idxOf : ∀ x ∈ CHARSET, CHARSET.idxOf x < 2 ^ 5 ∧ CHARSET.getD (CHARSET.idxOf x) 0 = x :=
  of_all_charset (by decide +kernel)

def text (data : List ℕ) : PyStr := data.map fun d => CHARSET.getD d 0

lemma mapM_charAt (h : ∀ d ∈ data, d < 2 ^ 5) : data.mapM charAt = .ok (text data) := by
  induction data with
  | nil => rfl
  | cons d data ih =>
    have hd : charAt d = .ok (CHARSET.getD d 0) := by
      unfold charAt
      rw [(idxOf_charset d (h d mem_cons_self)).1]
    rw [mapM_cons, hd, ih fun x hx => h x (mem_cons_of_mem _ hx)]
    rfl

lemma mem_text (h : ∀ d ∈ data, d < 2 ^ 5) : ∀ x ∈ text data, x ∈ CHARSET := by
  intro x hx
  obtain ⟨d, hd, rfl⟩ := mem_map.mp hx
  exact (idxOf_charset d (h d hd)).2.1

lemma idxOf_text (h : ∀ d ∈ data, d < 2 ^ 5) : ((text data).map fun x => CHARSET.idxOf x) = data := by
  rw [text, map_map]
  exact (map_congr_left fun d hd => (idxOf_charset d (h d hd)).2.2).trans (map_id' data)

lemma text_idxOf {chars : PyStr} (h : ∀ x ∈ chars, x ∈ CHARSET) : text (chars.map fun x => CHARSET.idxOf x) = chars := by
  rw [text, map_map]
  exact (map_congr_left fun x hx => (charset_idxOf x (h x hx)).2).trans (map_id' chars)

lemma bech32Encode_eq (hrp : PyStr) (h : ∀ d ∈ data, d < 2 ^ 5) :
    bech32Encode hrp data = .ok (hrp ++ [SEPARATOR] ++ text (data ++ bech32CreateChecksum hrp data)) := by
  unfold bech32Encode
  dsimp only
  rw [mapM_charAt (withChecksum_lt hrp h)]
  rfl

lemma idxOf_reverse {a b : PyStr} (h : c ∉ b) : (a ++ c :: b).reverse.idxOf c = b.length := by
  have hreverse : (a ++ c :: b).reverse = b.reverse ++ c :: a.reverse := by simp
  rw [hreverse, idxOf_append_of_notMem (by simpa using h), idxOf_cons_self, length_reverse, Nat.add_zero]

lemma rfind_append {a b : PyStr} (h : c ∉ b) : rfind (a ++ c :: b) c = some a.length := by
  unfold rfind
  rw [if_pos (by simp), idxOf_reverse h, length_append, length_cons]
  congr 1
  omega

lemma rfind_eq_some {s : PyStr} {pos : ℕ} (h : rfind s c = some pos) :
    ∃ a b, s = a ++ c :: b ∧ a.length = pos := by
  have hmem : c ∈ s := by
    unfold rfind at h
    split at h
    · assumption
    · cases h
  obtain ⟨b, a, hreverse, hnot⟩ := eq_append_cons_of_mem (mem_reverse.mpr hmem)
  have hs : s = a.reverse ++ c :: b.reverse := by
    rw [← reverse_reverse s, hreverse]
    simp
  have hnot' : c ∉ b.reverse := by simpa using hnot
  refine ⟨a.reverse, b.reverse, hs, ?_⟩
  rw [hs, rfind_append hnot'] at h
  exact Option.some.inj h

/-- The parts of a string that is accepted. -/
structure Accepted (bech hrp : PyStr) (data : List ℕ) : Prop where
  printable : ∀ x ∈ bech, 33 ≤ x.val ∧ x.val ≤ 126
  cased : lower bech = bech ∨ upper bech = bech
  hrp_pos : 1 ≤ hrp.length
  length_le : bech.length ≤ 90
  data_lt : ∀ d ∈ data, d < 2 ^ 5
  text : lower bech = hrp ++ [SEPARATOR] ++ Bech32m.text (data ++ bech32CreateChecksum hrp data)

lemma accepted_of_decode {bech : PyStr} (h : bech32Decode bech = some (hrp, data)) : Accepted bech hrp data := by
  unfold bech32Decode at h
  split at h
  · cases h
  rename_i hcased
  rw [not_or, not_and_or, Decidable.not_not, Decidable.not_not, any_eq_true] at hcased
  dsimp only at h
  split at h
  · cases h
  rename_i pos hpos
  split at h
  · cases h
  rename_i hbounds
  split at h
  · cases h
  rename_i hchars
  split at h
  · cases h
  rename_i hverify
  obtain ⟨a, b, hsplit, rfl⟩ := rfind_eq_some hpos
  have hdrop : (lower bech).drop (a.length + 1) = b := by simp [hsplit]
  have htake : (lower bech).take a.length = a := by simp [hsplit]
  rw [hdrop] at hchars
  rw [Decidable.not_not, hdrop, htake] at hverify
  rw [hdrop, htake] at h
  obtain ⟨rfl, rfl⟩ := Prod.mk.injEq .. ▸ Option.some.inj h
  have hchars' : ∀ x ∈ b, x ∈ CHARSET := by simpa using hchars
  have hdigits : ∀ d ∈ b.map fun x => CHARSET.idxOf x, d < 2 ^ 5 := by
    intro d hd
    obtain ⟨x, hx, rfl⟩ := mem_map.mp hd
    exact (charset_idxOf x (hchars' x hx)).1
  have hlength : (lower bech).length = bech.length := length_map _
  have hsix : 6 ≤ b.length := by
    rw [hsplit, length_append, length_cons] at hbounds
    omega
  generalize hvalues : (b.map fun x => CHARSET.idxOf x) = values at hverify hdigits ⊢
  have hlast : (values.drop (values.length - 6)).length = 6 := by
    rw [length_drop]
    have hsame : values.length = b.length := by rw [← hvalues, length_map]
    omega
  have hchecksum : values.drop (values.length - 6) = bech32CreateChecksum a (values.take (values.length - 6)) := by
    rw [← verifyChecksum_iff hlast fun d hd => hdigits d (mem_of_mem_drop hd), take_append_drop]
    exact hverify
  refine ⟨?_, hcased.2, by omega, by omega, fun d hd => hdigits d (mem_of_mem_take hd), ?_⟩
  · intro x hx
    by_contra hnot
    refine hcased.1 ⟨x, hx, ?_⟩
    rw [decide_eq_true_iff]
    omega
  · rw [← hchecksum, take_append_drop, ← hvalues, text_idxOf hchars', hsplit]
    simp

lemma decode_of_accepted {bech : PyStr} (h : Accepted bech hrp data) : bech32Decode bech = some (hrp, data) := by
  have hdigits := withChecksum_lt hrp h.data_lt
  have hsix := (checksum_digits hrp data).1
  have hchars := mem_text hdigits
  have hsplit : lower bech = hrp ++ SEPARATOR :: text (data ++ bech32CreateChecksum hrp data) := by
    rw [h.text]
    simp
  have hpos : rfind (lower bech) SEPARATOR = some hrp.length := by
    rw [hsplit]
    exact rfind_append fun hmem => (charset_text _ (hchars _ hmem)).2.2.2 rfl
  have hlength : bech.length = hrp.length + 1 + (data.length + 6) := by
    have hmap : (lower bech).length = bech.length := length_map _
    rw [← hmap, hsplit]
    simp [text, hsix]
    omega
  have hdrop : (lower bech).drop (hrp.length + 1) = text (data ++ bech32CreateChecksum hrp data) := by simp [hsplit]
  have htake : (lower bech).take hrp.length = hrp := by simp [hsplit]
  have hlower : (lower bech).length = bech.length := length_map _
  have hle := h.length_le
  have hpos' := h.hrp_pos
  have hcased : ¬ ((bech.any fun x => x.val < 33 ∨ x.val > 126) = true ∨ lower bech ≠ bech ∧ upper bech ≠ bech) := by
    rw [not_or, not_and_or, Decidable.not_not, Decidable.not_not]
    refine ⟨?_, h.cased⟩
    rw [any_eq_true]
    rintro ⟨x, hx, hout⟩
    rw [decide_eq_true_iff] at hout
    have hrange := h.printable x hx
    omega
  have hverify : bech32VerifyChecksum hrp (data ++ bech32CreateChecksum hrp data) = true :=
    (verifyChecksum_iff hsix (checksum_digits hrp data).2.1).mpr rfl
  unfold bech32Decode
  rw [if_neg hcased]
  dsimp only
  rw [hpos]
  dsimp only
  rw [if_neg (by omega), hdrop, htake, idxOf_text hdigits, if_neg (by simpa using hchars), if_neg (by simpa using hverify),
    length_append, hsix, Nat.add_sub_cancel, take_left]

lemma toNat_lt (bs : Bytes) : ∀ d ∈ bs.map UInt8.toNat, d < 2 ^ 8 := by
  intro d hd
  obtain ⟨x, -, rfl⟩ := mem_map.mp hd
  exact x.toNat_lt

lemma bytesOfInts_toNat (bs : Bytes) : bytesOfInts (bs.map UInt8.toNat) = .ok bs := by
  unfold bytesOfInts
  have hall : ((bs.map UInt8.toNat).all fun x => x < 256) = true := by
    rw [all_eq_true]
    intro d hd
    exact decide_eq_true (toNat_lt bs d hd)
  rw [if_pos hall, map_map]
  exact congrArg _ ((map_congr_left fun x _ => UInt8.ofNat_toNat).trans (map_id' bs))

lemma toNat_of_bytesOfInts {l : List ℕ} {bs : Bytes} (h : bytesOfInts l = .ok bs) : bs.map UInt8.toNat = l := by
  unfold bytesOfInts at h
  split at h
  · rename_i hall
    cases h
    rw [map_map]
    refine (map_congr_left fun x hx => ?_).trans (map_id' l)
    have hlt : x < 256 := by simpa using all_eq_true.mp hall x hx
    simp [mod_eq_of_lt hlt]
  · cases h

lemma encodePuzzleHash_eq (bs : Bytes) (pre : PyStr) :
    ∃ data padding, convertbits (bs.map UInt8.toNat) 8 5 true = .ok data ∧
    padding < 5 ∧ data.length * 5 = bs.length * 8 + padding ∧ (∀ d ∈ data, d < 2 ^ 5) ∧
    encodePuzzleHash bs pre = .ok (pre ++ [SEPARATOR] ++ text (data ++ bech32CreateChecksum pre data)) := by
  obtain ⟨data, padding, hrun, hpadding, hlength, hdigits, -⟩ := @convertbits_pad 8 5 (by decide) _ (toNat_lt bs)
  rw [length_map] at hlength
  refine ⟨data, padding, hrun, hpadding, hlength, hdigits, ?_⟩
  unfold encodePuzzleHash
  rw [hrun, ok_bind, bech32Encode_eq pre hdigits]

lemma lower_eq_self {s : PyStr} (h : ∀ x ∈ s, lowerChar x = x) : lower s = s := by
  exact (map_congr_left h).trans (map_id' s)

/-- A puzzle hash is decoded from its address. -/
theorem decode_encode_puzzleHash (puzzleHash : Bytes32) (pre : PyStr) (hpos : 1 ≤ pre.length)
    (hlength : pre.length + 59 ≤ 90) (hprintable : ∀ x ∈ pre, 33 ≤ x.val ∧ x.val ≤ 126) (hlower : lower pre = pre) :
    (encodePuzzleHash puzzleHash.toBytes pre >>= decodePuzzleHash) = .ok puzzleHash.toBytes := by
  obtain ⟨data, padding, hrun, hpadding, hdata, hdigits, hencode⟩ := encodePuzzleHash_eq puzzleHash.toBytes pre
  rw [SizedBytes.length_toBytes] at hdata
  have hsix := (checksum_digits pre data).1
  have hchars : ∀ x ∈ text (data ++ bech32CreateChecksum pre data), 33 ≤ x.val ∧ x.val ≤ 126 ∧ lowerChar x = x ∧
      x ≠ SEPARATOR := fun x hx =>
    charset_text x (mem_text (withChecksum_lt pre hdigits) x hx)
  have hlowered : lower (pre ++ [SEPARATOR] ++ text (data ++ bech32CreateChecksum pre data)) =
      pre ++ [SEPARATOR] ++ text (data ++ bech32CreateChecksum pre data) := by
    have htext := lower_eq_self fun x hx => (hchars x hx).2.2.1
    unfold lower at hlower htext ⊢
    rw [map_append, map_append, hlower, htext]
    rfl
  have haccepted : Accepted (pre ++ [SEPARATOR] ++ text (data ++ bech32CreateChecksum pre data)) pre data :=
    { printable := by
        intro x hx
        rcases mem_append.mp hx with hx | hx
        · rcases mem_append.mp hx with hx | hx
          · exact hprintable x hx
          · rw [mem_singleton.mp hx]
            decide
        · exact ⟨(hchars x hx).1, (hchars x hx).2.1⟩
      cased := .inl hlowered
      hrp_pos := hpos
      length_le := by
        simp [text, hsix]
        omega
      data_lt := hdigits
      text := hlowered }
  rw [hencode, ok_bind]
  unfold decodePuzzleHash
  rw [decode_of_accepted haccepted]
  dsimp only
  rw [convertbits_back (toNat_lt _) hrun, ok_bind, bytesOfInts_toNat]

/-- The address of a hash under the readable part `a`. -/
theorem decode_encode_puzzleHash_zero :
    (1 ≤ [ofChar 'a'].length ∧ [ofChar 'a'].length + 59 ≤ 90 ∧ (∀ x ∈ [ofChar 'a'], 33 ≤ x.val ∧ x.val ≤ 126) ∧
      lower [ofChar 'a'] = [ofChar 'a']) ∧
    (encodePuzzleHash (SizedBytes.ofNat 32 0).toBytes [ofChar 'a'] >>= decodePuzzleHash) =
      .ok (SizedBytes.ofNat 32 0).toBytes := by
  have hprintable : ∀ x ∈ [ofChar 'a'], 33 ≤ x.val ∧ x.val ≤ 126 := by
    intro x hx
    rw [mem_singleton.mp hx]
    decide
  exact ⟨⟨by decide, by decide, hprintable, by decide⟩,
    decode_encode_puzzleHash _ _ (by decide) (by decide) hprintable (by decide)⟩

/-- An address needs a readable part. -/
theorem decode_encode_empty_readable_part :
    (encodePuzzleHash (SizedBytes.ofNat 32 0).toBytes [] >>= decodePuzzleHash) = .error .valueError := by
  decide +kernel

lemma reencode_of_decode {address : PyStr} {decoded : Bytes}
    (hparts : bech32Decode address = some (hrp, data)) (hdecoded : decodePuzzleHash address = .ok decoded) :
    encodePuzzleHash decoded hrp = .ok (lower address) ∧
      ((lower address).reverse.idxOf SEPARATOR = 58 ↔ decoded.length = 32) := by
  have haccepted := accepted_of_decode hparts
  unfold decodePuzzleHash at hdecoded
  rw [hparts] at hdecoded
  obtain ⟨ints, hints, hbytes⟩ := bind_eq_ok.mp hdecoded
  have htoNat := toNat_of_bytesOfInts hbytes
  constructor
  · unfold encodePuzzleHash
    rw [htoNat, convertbits_forth hints, ok_bind, bech32Encode_eq hrp haccepted.data_lt, haccepted.text]
  have hsix := (checksum_digits hrp data).1
  obtain ⟨-, -, left, -, hleft, hlength, -⟩ := (convertbits_strict (by decide)).mp hints
  have hbytes_length : decoded.length = ints.length := by rw [← htoNat, length_map]
  have hnot : SEPARATOR ∉ text (data ++ bech32CreateChecksum hrp data) := fun hmem =>
    (charset_text _ (mem_text (withChecksum_lt hrp haccepted.data_lt) _ hmem)).2.2.2 rfl
  rw [haccepted.text, append_assoc, singleton_append, idxOf_reverse hnot, text, length_map, length_append]
  omega

/-- An accepted string is in lower case the address of what it is decoded to, the only one with its readable part. -/
theorem accepted_address_strict_iff (address : PyStr) (decoded : Bytes)
    (hdecoded : decodePuzzleHash address = .ok decoded) :
    (decoded.length = 32 ∧ ∃ hrp data, bech32Decode address = some (hrp, data) ∧
        encodePuzzleHash decoded hrp = .ok (lower address) ∧
        ∀ address' data', bech32Decode address' = some (hrp, data') → decodePuzzleHash address' = .ok decoded →
          lower address' = lower address) ↔
      (lower address).reverse.idxOf SEPARATOR = 58 := by
  obtain ⟨hrp, data, hparts⟩ : ∃ hrp data, bech32Decode address = some (hrp, data) := by
    unfold decodePuzzleHash at hdecoded
    split at hdecoded
    · cases hdecoded
    · rename_i hrp data hparts
      exact ⟨hrp, data, hparts⟩
  obtain ⟨hsame, hlength⟩ := reencode_of_decode hparts hdecoded
  constructor
  · rintro ⟨h32, -⟩
    exact hlength.mpr h32
  intro h58
  refine ⟨hlength.mp h58, hrp, data, hparts, hsame, ?_⟩
  intro address' data' hparts' hdecoded'
  have hsame' := (reencode_of_decode hparts' hdecoded').1
  rw [hsame] at hsame'
  exact (Except.ok.inj hsame').symm

def sampleAddress : PyStr :=
  upper ("a1qqqqqqqqqqqqqqqqqqqqqqqqqqqqqqqqqqqqqqqqqqqqqqqqqqqqu5zfys".toList.map ofChar)

theorem accepted_address_strict_zero : decodePuzzleHash sampleAddress = .ok (List.replicate 32 0) ∧
    ((List.replicate 32 (0 : UInt8)).length = 32 ∧ ∃ hrp data, bech32Decode sampleAddress = some (hrp, data) ∧
        encodePuzzleHash (List.replicate 32 0) hrp = .ok (lower sampleAddress) ∧
        ∀ address' data', bech32Decode address' = some (hrp, data') →
          decodePuzzleHash address' = .ok (List.replicate 32 0) → lower address' = lower sampleAddress) :=
  ⟨by decide +kernel, (accepted_address_strict_iff _ _ (by decide +kernel)).mpr (by decide +kernel)⟩

/-- An address of no bytes is accepted. -/
theorem empty_address_accepted : decodePuzzleHash ("a1lqfn3a".toList.map ofChar) = .ok [] := by decide +kernel

lemma polymodStep_injective {a b value : ℕ} (ha : a < 2 ^ 30) (hb : b < 2 ^ 30)
    (h : polymodStep a value = polymodStep b value) : a = b := by
  -- the difference is shifted to zero, and only nothing is fed back into the low five bits as zero
  have hstep := polymodStep_xor a b value value
  rw [h, Nat.xor_self, Nat.xor_self, polymodStep_eq, xor_zero, Nat.xor_eq_zero_iff] at hstep
  have hlt : a ^^^ b < 2 ^ 30 := xor_lt_two_pow ha hb
  have hfeedback : ∀ top < 32, feedback top % 32 = 0 → top = 0 := by decide
  have htop : (a ^^^ b) >>> 25 = 0 := by
    rw [shiftRight_eq_div_pow] at hstep ⊢
    refine hfeedback _ (by omega) ?_
    rw [← hstep, shiftLeft_eq, mul_mod_left]
  rw [htop, show feedback 0 = 0 by decide, show 0x1FFFFFF = 2 ^ 25 - 1 by decide, and_two_pow_sub_one_eq_mod,
    shiftLeft_eq] at hstep
  rw [shiftRight_eq_div_pow] at htop
  exact Nat.xor_eq_zero_iff.mp (by omega)

lemma foldl_polymodStep_injective {values : List ℕ} (hvalues : ∀ x ∈ values, x < 2 ^ 30) {a b : ℕ} (ha : a < 2 ^ 30)
    (hb : b < 2 ^ 30) (h : values.foldl polymodStep a = values.foldl polymodStep b) : a = b := by
  induction values generalizing a b with
  | nil => exact h
  | cons x values ih =>
    have hx := hvalues x mem_cons_self
    exact polymodStep_injective ha hb
      (ih (fun y hy => hvalues y (mem_cons_of_mem x hy)) (polymodStep_lt a hx) (polymodStep_lt b hx) h)

lemma foldl_polymodStep_lt (chk : ℕ) {d : List ℕ} (hne : d ≠ []) (hd : ∀ x ∈ d, x < 2 ^ 5) :
    d.foldl polymodStep chk < 2 ^ 30 := by
  rcases eq_nil_or_concat d with rfl | ⟨l, x, rfl⟩
  · exact absurd rfl hne
  · rw [concat_eq_append, foldl_append]
    have hx : x < 2 ^ 5 := hd x (by simp)
    exact polymodStep_lt _ (by omega)

/-- Six values or fewer are added to the checksum as the digits of a number. -/
lemma polymod_short (chk : ℕ) {d : List ℕ} (hlen : d.length ≤ 6) (hd : ∀ x ∈ d, x < 2 ^ 5) :
    d.foldl polymodStep chk = (replicate d.length 0).foldl polymodStep chk ^^^ numeral (2 ^ 5) d := by
  have hzip : List.zipWith (· ^^^ ·) (replicate d.length 0) d = d := by
    clear hlen hd
    induction d with
    | nil => rfl
    | cons x d ih => rw [length_cons, replicate_succ, zipWith_cons_cons, ih, zero_xor]
  have hsplit := polymod_xor (replicate d.length 0) d (length_replicate ..) chk 0
  rw [hzip, xor_zero, polymod_digits d hlen hd] at hsplit
  exact hsplit

/-- A change of six values or fewer in a row is never accepted, wherever it is. -/
theorem checksum_detects_bursts (hrp : PyStr) (before d d' after : List ℕ) (hlen : d.length = d'.length)
    (hshort : d.length ≤ 6) (hd : ∀ x ∈ d, x < 2 ^ 5) (hd' : ∀ x ∈ d', x < 2 ^ 5) (hafter : ∀ x ∈ after, x < 2 ^ 5)
    (h : bech32VerifyChecksum hrp (before ++ d ++ after) = true)
    (h' : bech32VerifyChecksum hrp (before ++ d' ++ after) = true) : d = d' := by
  by_cases hne : d = []
  · rw [hne] at hlen ⊢
    exact (eq_nil_of_length_eq_zero hlen.symm).symm
  have hne' : d' ≠ [] := fun hnil => hne (eq_nil_of_length_eq_zero (by rw [hlen, hnil, length_nil]))
  have hsame := (of_decide_eq_true h).trans (of_decide_eq_true h').symm
  simp only [bech32Polymod, foldl_append] at hsame
  set chk := before.foldl polymodStep ((bech32HrpExpand hrp).foldl polymodStep 1)
  have hmiddle : d.foldl polymodStep chk = d'.foldl polymodStep chk :=
    foldl_polymodStep_injective (fun x hx => (hafter x hx).trans (by decide)) (foldl_polymodStep_lt chk hne hd)
      (foldl_polymodStep_lt chk hne' hd') hsame
  rw [polymod_short chk hshort hd, polymod_short chk (hlen ▸ hshort) hd', hlen] at hmiddle
  exact numeral_injective (by decide) hlen hd hd' (Nat.xor_right_inj.mp hmiddle)

/-- The only end of `a1lqfn` that is accepted. -/
theorem checksum_detects_bursts_end : bech32VerifyChecksum [ofChar 'a'] [31, 0, 9, 19, 17, 29] = true ∧
    ∀ x < 2 ^ 5, ∀ y < 2 ^ 5, bech32VerifyChecksum [ofChar 'a'] [31, 0, 9, 19, x, y] = true → [x, y] = [17, 29] :=
  ⟨by decide +kernel, fun x hx y hy h => checksum_detects_bursts [ofChar 'a'] [31, 0, 9, 19] [x, y] [17, 29] [] rfl
    (by simp) (forall_mem_cons.mpr ⟨hx, forall_mem_singleton.mpr hy⟩) (by decide) (by simp) h (by decide +kernel)⟩

end SectorChain.Bech32m
