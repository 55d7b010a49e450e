import Mathlib.Data.List.Basic

/-!
# Forests of nodes with heights

Nodes name the key of their parent, which is one lower.
-/

namespace SectorChain.Lib

open List

/-- How nodes are keyed and connected. -/
structure Shape (κ ν : Type) where
  key : ν → κ
  parent : ν → κ
  height : ν → ℕ

/-- The node is a root, or its parent is present and one lower. -/
def Shape.Attached {κ ν : Type} (S : Shape κ ν) (find : κ → Option ν) (n : ν) : Prop :=
  S.height n = 0 ∨ ∃ p, find (S.parent n) = some p ∧ S.height n = S.height p + 1

/-- Nodes under their keys, closed under parents. -/
structure Forest {κ ν : Type} (S : Shape κ ν) where
  find : κ → Option ν
  key_eq : ∀ {k n}, find k = some n → S.key n = k
  parent_eq : ∀ {k n}, find k = some n → S.Attached find n

namespace Forest

variable {κ ν : Type} {S : Shape κ ν}

/-- The nodes on the way to `k` that are at most `height` steps away from it. -/
def pathFrom (F : Forest S) : ℕ → κ → List ν
  | 0, k => (F.find k).toList
  | height + 1, k => match F.find k with
    | none => []
    | some n => F.pathFrom height (S.parent n) ++ [n]

/-- The nodes from the root to `k`. -/
def path (F : Forest S) (k : κ) : List ν :=
  match F.find k with
  | none => []
  | some n => F.pathFrom (S.height n) k

/-- The nodes from the root to the parent of `n`. -/
def ancestors (F : Forest S) (n : ν) : List ν := if S.height n = 0 then [] else F.path (S.parent n)

variable {F : Forest S} {k k' : κ} {n n' : ν}

lemma path_of_find (h : F.find k = some n) : F.path k = F.ancestors n ++ [n] := by
  unfold path ancestors
  rcases F.parent_eq h with hroot | ⟨p, hp, hheight⟩
  · simp [hroot, pathFrom, h]
  · rw [path, hp]
    simp [hheight, pathFrom, h]

lemma path_of_find_none (h : F.find k = none) : F.path k = [] := by
  unfold path
  rw [h]

lemma ancestors_of_parent {p : ν} (hp : F.find (S.parent n) = some p)
    (hheight : S.height n = S.height p + 1) : F.ancestors n = F.ancestors p ++ [p] := by
  unfold ancestors
  rw [if_neg (by omega), path_of_find hp]
  rfl

lemma length_ancestors (h : S.Attached F.find n) : (F.ancestors n).length = S.height n := by
  induction hheight : S.height n generalizing n with
  | zero => simp [ancestors, hheight]
  | succ m ih =>
    rcases h with hroot | ⟨p, hp, hp'⟩
    · omega
    · have hlength := ih (F.parent_eq hp) (by omega)
      rw [ancestors_of_parent hp hp', length_append, hlength]
      rfl

lemma length_path (h : F.find k = some n) : (F.path k).length = S.height n + 1 := by
  rw [path_of_find h, length_append, length_ancestors (F.parent_eq h)]
  rfl

lemma getElem?_path {i : ℕ} (hi : (F.path k)[i]? = some n) :
    F.find (S.key n) = some n ∧ S.height n = i ∧ F.path (S.key n) = (F.path k).take (i + 1) := by
  cases hk : F.find k with
  | none =>
    rw [path_of_find_none hk] at hi
    cases hi
  | some top =>
    induction hheight : S.height top generalizing k top with
    | zero =>
      have hpath : F.path k = [top] := by simp [path_of_find hk, ancestors, hheight]
      have hi' := hi
      rw [hpath] at hi'
      obtain ⟨rfl, rfl⟩ : i = 0 ∧ n = top := by
        rcases i with _ | i
        · simpa [eq_comm] using hi'
        · simp at hi'
      rw [F.key_eq hk]
      exact ⟨hk, hheight, by rw [hpath]; rfl⟩
    | succ m ih =>
      rcases F.parent_eq hk with hroot | ⟨p, hp, hp'⟩
      · omega
      have hanc : F.ancestors top = F.path (S.parent top) := by
        unfold ancestors
        rw [if_neg (by omega)]
      have hpath : F.path k = F.path (S.parent top) ++ [top] := by rw [path_of_find hk, hanc]
      have hlength : (F.path (S.parent top)).length = m + 1 := by rw [length_path hp]; omega
      rcases Nat.lt_or_ge i (m + 1) with hlt | hge
      · have hi' : (F.path (S.parent top))[i]? = some n := by
          rw [← hi, hpath, getElem?_append_left (by omega)]
        obtain ⟨hfind, hn, htake⟩ := ih hi' p hp (by omega)
        refine ⟨hfind, hn, ?_⟩
        rw [htake, hpath, take_append_of_le_length (by omega)]
      have hi' := hi
      rw [hpath, getElem?_append_right (by omega), hlength] at hi'
      obtain ⟨hi0, rfl⟩ : i - (m + 1) = 0 ∧ n = top := by
        rcases hsub : i - (m + 1) with _ | j
        · rw [hsub] at hi'
          simpa [eq_comm] using hi'
        · rw [hsub] at hi'
          simp at hi'
      rw [F.key_eq hk]
      refine ⟨hk, by omega, ?_⟩
      rw [take_of_length_le]
      rw [hpath, length_append]
      simp only [length_singleton]
      omega

lemma getElem?_path_height (h : F.find k = some n) : (F.path k)[S.height n]? = some n := by
  rw [path_of_find h, ← length_ancestors (F.parent_eq h)]
  simp

lemma height_of_mem_path (h : F.find k = some n) (hm : n' ∈ F.path k) :
    S.height n' ≤ S.height n ∧ (S.height n' = S.height n → n' = n) := by
  obtain ⟨i, hi⟩ := getElem?_of_mem hm
  have hlength := (List.getElem?_eq_some_iff.mp hi).1
  rw [length_path h] at hlength
  have hheight := (getElem?_path hi).2.1
  refine ⟨by omega, fun heq => ?_⟩
  rw [← hheight, heq, getElem?_path_height h] at hi
  exact (Option.some.inj hi).symm

lemma path_of_root (h : F.find k = some n) (hroot : S.height n = 0) : F.path k = [n] := by
  rw [path_of_find h, ancestors, if_pos hroot]
  rfl

lemma path_of_parent (h : F.find k = some n) (hpos : 0 < S.height n) : F.path k = F.path (S.parent n) ++ [n] := by
  rw [path_of_find h, ancestors, if_neg (by omega)]

end Forest

end SectorChain.Lib
