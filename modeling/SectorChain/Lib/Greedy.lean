import Mathlib.Algebra.BigOperators.Group.Finset.Piecewise
import Mathlib.Algebra.Order.BigOperators.Group.Finset
import Mathlib.Algebra.GroupWithZero.Nat
import Mathlib.Data.Finset.Max
import Mathlib.Data.List.Sort

/-!
# Greedy selection

The largest weights first, until they reach a target.
-/

namespace SectorChain.Lib

open List

/-- The weights that are taken from a list on top of a total `sum`. -/
def takeUntil (target : ℕ) : ℕ → Bool → List ℕ → List ℕ
  | _, _, [] => []
  | sum, taken, w :: ws => if target ≤ sum ∧ taken then [] else w :: takeUntil target (sum + w) true ws

variable {target sum : ℕ} {taken : Bool} {ws : List ℕ}

lemma takeUntil_of_le (h : target ≤ sum) : takeUntil target sum true ws = [] := by
  cases ws with
  | nil => rfl
  | cons w ws => rw [takeUntil, if_pos ⟨h, rfl⟩]

lemma takeUntil_prefix : takeUntil target sum taken ws <+: ws := by
  induction ws generalizing sum taken with
  | nil => exact nil_prefix
  | cons w ws ih =>
    rw [takeUntil]
    split
    · exact nil_prefix
    · exact prefix_cons_inj w |>.mpr ih

lemma takeUntil_reaches (h : target ≤ sum + ws.sum) : target ≤ sum + (takeUntil target sum taken ws).sum := by
  induction ws generalizing sum taken with
  | nil => exact h
  | cons w ws ih =>
    rw [takeUntil]
    split
    · rename_i hstop
      exact hstop.1.trans (Nat.le_add_right _ _)
    · rw [sum_cons] at h ⊢
      rw [← Nat.add_assoc] at h ⊢
      exact ih h

lemma takeUntil_of_lt (h : sum + ws.sum < target) : takeUntil target sum taken ws = ws := by
  induction ws generalizing sum taken with
  | nil => rfl
  | cons w ws ih =>
    rw [sum_cons, ← Nat.add_assoc] at h
    rw [takeUntil, if_neg (by omega), ih h]

lemma takeUntil_least {n : ℕ} (hn : n < (takeUntil target sum taken ws).length) (h : taken = true ∨ 0 < n) :
    sum + (ws.take n).sum < target := by
  induction ws generalizing sum taken n with
  | nil => cases hn
  | cons w ws ih =>
    rw [takeUntil] at hn
    split at hn
    · cases hn
    rename_i hgo
    cases n with
    | zero =>
      have htaken : taken = true := h.resolve_right (Nat.lt_irrefl 0)
      rw [take_zero, sum_nil]
      by_contra hle
      exact hgo ⟨by omega, htaken⟩
    | succ n =>
      rw [take_succ_cons, sum_cons, ← Nat.add_assoc]
      exact ih (Nat.lt_of_succ_lt_succ hn) (.inl rfl)

lemma sum_le_sum_take (hsorted : ws.Pairwise (· ≥ ·)) {choice : List ℕ} (hchoice : choice.Subperm ws) :
    choice.sum ≤ (ws.take choice.length).sum := by
  induction ws generalizing choice with
  | nil => rw [subperm_nil.mp hchoice, take_nil]
  | cons w ws ih =>
    obtain ⟨hmax, hsorted⟩ := pairwise_cons.mp hsorted
    cases choice with
    | nil => exact Nat.zero_le _
    | cons c cs =>
      by_cases hw : w ∈ c :: cs
      · -- the largest weight is taken, the rest is a choice from the others
        have hperm : (c :: cs).Perm (w :: (c :: cs).erase w) := perm_cons_erase hw
        have hrest : ((c :: cs).erase w).Subperm ws := (subperm_cons w).mp (hperm.symm.subperm.trans hchoice)
        have hsum := hperm.sum_eq
        have hlength : (c :: cs).length = ((c :: cs).erase w).length + 1 := hperm.length_eq
        have hle := ih hsorted hrest
        rw [hsum, hlength]
        exact Nat.add_le_add_left hle w
      · -- otherwise it replaces one that is not larger
        have hall : (c :: cs).Subperm ws := by
          have hfilter := hchoice.filter (fun x => decide (x ≠ w))
          have hself : (c :: cs).filter (fun x => decide (x ≠ w)) = c :: cs :=
            filter_eq_self.mpr fun x hx => decide_eq_true (ne_of_mem_of_not_mem hx hw)
          rw [hself, filter_cons_of_neg (by simp)] at hfilter
          exact hfilter.trans filter_sublist.subperm
        have hcs : cs.Subperm ws := (sublist_cons_self c cs).subperm.trans hall
        have hc : c ≤ w := hmax c (hall.subset mem_cons_self)
        exact Nat.add_le_add hc (ih hsorted hcs)

lemma length_takeUntil_le (hsorted : ws.Pairwise (· ≥ ·)) {choice : List ℕ} (hchoice : choice.Subperm ws)
    (hne : choice ≠ []) (htarget : target ≤ choice.sum) : (takeUntil target 0 false ws).length ≤ choice.length := by
  by_contra hlt
  have hleast := takeUntil_least (Nat.lt_of_not_le hlt) (.inr (length_pos_of_ne_nil hne))
  have hle := sum_le_sum_take hsorted hchoice
  omega

lemma sum_le_sum_of_upper {α : Type} [DecidableEq α] {all upper choice : Finset α} {weight : α → ℕ}
    (hupper : ∀ a ∈ upper, ∀ b ∈ all, b ∉ upper → weight b ≤ weight a) (hchoice : choice ⊆ all)
    (hcard : choice.card ≤ upper.card) : ∑ a ∈ choice, weight a ≤ ∑ a ∈ upper, weight a := by
  have hrest : ∑ a ∈ choice \ upper, weight a ≤ ∑ a ∈ upper \ choice, weight a := by
    have hcard' : (choice \ upper).card ≤ (upper \ choice).card := by
      have h := Finset.card_sdiff_add_card_inter choice upper
      have h' := Finset.card_sdiff_add_card_inter upper choice
      rw [Finset.inter_comm] at h'
      omega
    rcases (upper \ choice).eq_empty_or_nonempty with hempty | hne
    · rw [hempty, Finset.card_empty, Nat.le_zero, Finset.card_eq_zero] at hcard'
      rw [hcard', hempty]
    -- the lightest element of `upper` lies between the two sums
    obtain ⟨least, hleast, hmin⟩ := (upper \ choice).exists_min_image weight hne
    calc ∑ a ∈ choice \ upper, weight a
        ≤ (choice \ upper).card * weight least := by
          refine Finset.sum_le_card_nsmul _ _ _ fun b hb => ?_
          obtain ⟨hb, hnot⟩ := Finset.mem_sdiff.mp hb
          exact hupper least (Finset.mem_sdiff.mp hleast).1 b (hchoice hb) hnot
      _ ≤ (upper \ choice).card * weight least := Nat.mul_le_mul_right _ hcard'
      _ ≤ ∑ a ∈ upper \ choice, weight a := Finset.card_nsmul_le_sum _ _ _ hmin
  rw [← Finset.sum_inter_add_sum_sdiff choice upper weight, ← Finset.sum_inter_add_sum_sdiff upper choice weight,
    Finset.inter_comm upper]
  exact Nat.add_le_add_left hrest _

end SectorChain.Lib
