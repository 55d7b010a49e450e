import Mathlib.Algebra.BigOperators.Group.Finset.Basic
import Mathlib.Algebra.GroupWithZero.Nat
import Mathlib.Data.List.Sort

/-!
# The order in which a set is iterated

What holds for all orders holds for all runs of a loop.
-/

namespace SectorChain.Lib

open List

/-- An order of iteration for the sets of a type. -/
structure Iteration (α : Type) where
  list : Finset α → List α
  nodup : ∀ s, (list s).Nodup
  mem_list : ∀ s a, a ∈ list s ↔ a ∈ s

variable {α : Type}

def Iteration.byKey (key : α → ℕ) (hkey : Function.Injective key) : Iteration α :=
  have hsorted : ∀ l : List α, (l.insertionSort fun a b => key a ≤ key b).Pairwise fun a b => key a ≤ key b :=
    haveI : Std.Total fun a b : α => key a ≤ key b := ⟨fun a b => Nat.le_total (key a) (key b)⟩
    haveI : IsTrans α fun a b => key a ≤ key b := ⟨fun _ _ _ => Nat.le_trans⟩
    pairwise_insertionSort _
  have hperm : ∀ l l' : List α, l.Perm l' → (l.insertionSort fun a b => key a ≤ key b) =
      l'.insertionSort fun a b => key a ≤ key b := fun l l' h =>
    List.Perm.eq_of_pairwise (fun _ _ _ _ hle hge => hkey (Nat.le_antisymm hle hge)) (hsorted l) (hsorted l')
      (((perm_insertionSort _ l).trans h).trans (perm_insertionSort _ l').symm)
  { list := fun s => Quot.lift (fun l : List α => l.insertionSort fun a b => key a ≤ key b) hperm s.val
    nodup := by
      rintro ⟨⟨l⟩, hl⟩
      exact (perm_insertionSort _ l).nodup_iff.mpr hl
    mem_list := by
      rintro ⟨⟨l⟩, hl⟩ a
      exact (perm_insertionSort _ l).mem_iff }

lemma Iteration.toFinset_list [DecidableEq α] (order : Iteration α) (s : Finset α) :
    (order.list s).toFinset = s := by
  ext a
  rw [mem_toFinset, order.mem_list]

lemma Iteration.sum_list (order : Iteration α) (s : Finset α) (f : α → ℕ) :
    ((order.list s).map f).sum = ∑ a ∈ s, f a := by
  classical
  rw [← sum_toFinset f (order.nodup s), order.toFinset_list]

lemma Iteration.length_list (order : Iteration α) (s : Finset α) : (order.list s).length = s.card := by
  classical
  rw [← toFinset_card_of_nodup (order.nodup s), order.toFinset_list]

end SectorChain.Lib
