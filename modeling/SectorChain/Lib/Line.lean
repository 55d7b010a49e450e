import Mathlib.Data.List.Chain
import Mathlib.Data.List.Nodup
import Mathlib.Data.List.Perm.Subperm
import Mathlib.Order.Nat

/-!
# Elements that form a line

With one root at most and unique successors.
-/

namespace SectorChain.Lib

open List

variable {α : Type} {R : α → α → Prop} {Root : α → Prop} {S : List α} {rank : α → ℕ}

/-- A part of the line, from the root on. -/
structure IsPath (R : α → α → Prop) (Root : α → Prop) (S l : List α) : Prop where
  subset : l ⊆ S
  chain : l.IsChain R
  root : ∀ a ∈ l.head?, Root a

lemma IsPath.nodup (h : IsPath R Root S l) (hrank : ∀ a ∈ S, ∀ b ∈ S, R a b → rank a < rank b) : l.Nodup := by
  have hchain : l.IsChain fun a b => rank a < rank b :=
    h.chain.imp_of_mem_imp fun a b ha hb hab => hrank a (h.subset ha) b (h.subset hb) hab
  exact hchain.pairwise.imp fun {a b} hlt hab => absurd (hab ▸ hlt) (Nat.lt_irrefl _)

lemma exists_longest_path (hrank : ∀ a ∈ S, ∀ b ∈ S, R a b → rank a < rank b) :
    ∃ l, IsPath R Root S l ∧ ∀ l', IsPath R Root S l' → l'.length ≤ l.length := by
  classical
  let HasPath : ℕ → Prop := fun n => ∃ l, IsPath R Root S l ∧ l.length = n
  have hempty : HasPath 0 := ⟨[], ⟨nil_subset S, isChain_nil, by simp⟩, rfl⟩
  obtain ⟨l, hl, hlength⟩ := Nat.findGreatest_spec (Nat.zero_le S.length) hempty
  refine ⟨l, hl, fun l' hl' => ?_⟩
  rw [hlength]
  refine Nat.le_findGreatest ?_ ⟨l', hl', rfl⟩
  exact (subperm_of_subset (hl'.nodup hrank) hl'.subset).length_le

/-- The line of all elements. -/
theorem exists_line (hrank : ∀ a ∈ S, ∀ b ∈ S, R a b → rank a < rank b)
    (hroot : ∀ a ∈ S, ∀ b ∈ S, Root a → Root b → a = b) (hnext : ∀ a ∈ S, ∀ b ∈ S, ∀ c ∈ S, R a b → R a c → b = c)
    (hprev : ∀ b ∈ S, Root b ∨ ∃ a ∈ S, R a b) :
    ∃ l : List α, l.Nodup ∧ (∀ a, a ∈ l ↔ a ∈ S) ∧ l.IsChain R ∧ ∀ a ∈ l.head?, Root a := by
  obtain ⟨l, hl, hlongest⟩ := exists_longest_path hrank
  refine ⟨l, hl.nodup hrank, fun a => ⟨fun ha => hl.subset ha, fun ha => ?_⟩, hl.chain, hl.root⟩
  -- by induction on the rank: the predecessor is on the path, and it is not the last one there
  induction hn : rank a using Nat.strong_induction_on generalizing a with
  | _ n ih =>
  rcases hprev a ha with haroot | ⟨b, hb, hba⟩
  · cases hcases : l with
    | nil =>
      have hpath : IsPath R Root S [a] :=
        ⟨cons_subset.mpr ⟨ha, nil_subset S⟩, isChain_singleton a, by simpa using haroot⟩
      have hle := hlongest [a] hpath
      rw [hcases] at hle
      simp at hle
    | cons b t =>
      subst hcases
      have hb : b ∈ S := hl.subset mem_cons_self
      rw [hroot a ha b hb haroot (hl.root b rfl)]
      exact mem_cons_self
  · have hmem : b ∈ l := ih (rank b) (hn ▸ hrank b hb a ha hba) b hb rfl
    obtain ⟨l₁, l₂, rfl⟩ := append_of_mem hmem
    cases l₂ with
    | nil =>
      have hpath : IsPath R Root S (l₁ ++ [b] ++ [a]) := by
        refine ⟨?_, ?_, ?_⟩
        · exact append_subset.mpr ⟨hl.subset, cons_subset.mpr ⟨ha, nil_subset S⟩⟩
        · refine isChain_append.mpr ⟨hl.chain, isChain_singleton a, ?_⟩
          intro x hx y hy
          simp at hx hy
          rw [← hx, ← hy]
          exact hba
        · intro x hx
          refine hl.root x ?_
          cases l₁ <;> simpa using hx
      have hle := hlongest _ hpath
      simp at hle
    | cons c t =>
      have hc : c ∈ S := hl.subset (by simp)
      have hbc : R b c := (isChain_append.mp hl.chain).2.1.rel
      rw [hnext b hb a ha c hc hba hbc]
      simp

end SectorChain.Lib
