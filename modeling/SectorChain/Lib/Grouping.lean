import SectorChain.Lib.Dict
import Mathlib.Algebra.BigOperators.Group.List.Basic
import Mathlib.Data.List.Induction
import Mathlib.Tactic.Ring

/-!
# Grouping a list by a key
-/

namespace SectorChain.Lib.Dict

open List

variable {κ ν α : Type} [DecidableEq κ]
variable {k : κ} {p : κ → Bool}

def push (d : Dict κ (List ν)) (k : κ) (v : ν) : Dict κ (List ν) :=
  match d.get? k with
  | none => d.set k [v]
  | some vs => d.set k (vs ++ [v])

variable (c : κ → ℕ) (key : α → κ) (l : List α)

def groupBy : Dict κ (List α) := l.foldl (fun d a => d.push (key a) a) .empty

lemma groupBy_append_singleton (a : α) : groupBy key (l ++ [a]) = (groupBy key l).push (key a) a := by
  unfold groupBy
  rw [foldl_append]
  rfl

lemma filter_assign_of_pos (hk : p k = true) (v : ν) (es : List (κ × ν)) :
    (assign k v es).filter (fun e => p e.1) = assign k v (es.filter fun e => p e.1) := by
  induction es with
  | nil => simp [assign, hk]
  | cons e es ih =>
    by_cases he : e.1 = k
    · simp [assign, he, hk]
    · rw [assign, if_neg he, filter_cons, filter_cons, ih]
      split
      · rw [assign, if_neg he]
      · rfl

lemma filter_assign_of_neg (hk : p k = false) (v : ν) (es : List (κ × ν)) :
    (assign k v es).filter (fun e => p e.1) = es.filter fun e => p e.1 := by
  induction es with
  | nil => simp [assign, hk]
  | cons e es ih =>
    unfold assign
    by_cases he : e.1 = k
    · simp [he, hk]
    · cases hp : p e.1 <;> simp [he, hp, ih]

lemma filter_set_of_pos (hk : p k = true) (d : Dict κ ν) (v : ν) :
    (d.set k v).filter (fun k _ => p k) = (d.filter fun k _ => p k).set k v :=
  eq_of_entries (filter_assign_of_pos hk v d.entries)

lemma filter_set_of_neg (hk : p k = false) (d : Dict κ ν) (v : ν) :
    (d.set k v).filter (fun k _ => p k) = d.filter fun k _ => p k :=
  eq_of_entries (filter_assign_of_neg hk v d.entries)

lemma filter_push_of_pos (hk : p k = true) (d : Dict κ (List ν)) (v : ν) :
    (d.push k v).filter (fun k _ => p k) = (d.filter fun k _ => p k).push k v := by
  have hget : (d.filter fun k _ => p k).get? k = d.get? k := by
    rw [get?_filter]
    cases d.get? k <;> simp [hk]
  unfold push
  rw [hget]
  cases d.get? k with
  | none => exact filter_set_of_pos hk d [v]
  | some vs => exact filter_set_of_pos hk d (vs ++ [v])

lemma filter_push_of_neg (hk : p k = false) (d : Dict κ (List ν)) (v : ν) :
    (d.push k v).filter (fun k _ => p k) = d.filter fun k _ => p k := by
  unfold push
  cases d.get? k with
  | none => exact filter_set_of_neg hk d [v]
  | some vs => exact filter_set_of_neg hk d (vs ++ [v])

theorem filter_groupBy (p : κ → Bool) (key : α → κ) (l : List α) :
    (groupBy key l).filter (fun k _ => p k) = groupBy key (l.filter fun a => p (key a)) := by
  induction l using List.reverseRecOn with
  | nil => rfl
  | append_singleton l a ih =>
    rw [groupBy_append_singleton]
    cases hp : p (key a) with
    | true => simp [hp, filter_push_of_pos, ih, groupBy_append_singleton]
    | false => simp [hp, filter_push_of_neg, ih]

lemma sum_assign {vs : List ν} (v : ν) {es : List (κ × List ν)} (hk : (es.lookup k).getD [] = vs) :
    ((assign k (vs ++ [v]) es).map fun e => e.2.length * c e.1).sum = (es.map fun e => e.2.length * c e.1).sum + c k := by
  induction es with
  | nil =>
    subst hk
    simp [assign]
  | cons e es ih =>
    obtain ⟨k', vs'⟩ := e
    rw [lookup_cons] at hk
    unfold assign
    by_cases he : k' = k
    · subst he
      rw [beq_self_eq_true] at hk
      obtain rfl : vs' = vs := hk
      simp only [if_true, map_cons, sum_cons, length_append, length_singleton]
      ring
    · have hbeq : (k == k') = false := beq_false_of_ne (Ne.symm he)
      rw [hbeq] at hk
      simp only [he, if_false, map_cons, sum_cons, ih hk]
      omega

/-- The weights of the elements add up to those of the groups. -/
theorem sum_groupBy :
    ((groupBy key l).entries.map fun e => e.2.length * c e.1).sum = (l.map fun a => c (key a)).sum := by
  induction l using List.reverseRecOn with
  | nil => rfl
  | append_singleton l a ih =>
    rw [groupBy_append_singleton, map_append, sum_append, ← ih]
    unfold push
    cases hget : (groupBy key l).get? (key a) with
    | none => exact sum_assign c a (congrArg (·.getD []) hget)
    | some vs => exact sum_assign c a (congrArg (·.getD []) hget)

lemma entries_foldl_set {es : List (κ × ν)} {d : Dict κ ν} (hnodup : ((d.entries ++ es).map Prod.fst).Nodup) :
    (es.foldl (fun d e => d.set e.1 e.2) d).entries = d.entries ++ es := by
  induction es generalizing d with
  | nil => simp
  | cons e es ih =>
    have hnew : e.1 ∉ d.keys := by
      intro hmem
      rw [map_append, nodup_append] at hnodup
      exact hnodup.2.2 _ hmem _ (mem_map_of_mem mem_cons_self) rfl
    have hset := entries_set_of_notMem hnew e.2
    rw [foldl_cons, ih, hset, append_assoc]
    · rfl
    · rw [hset, append_assoc]
      exact hnodup

end SectorChain.Lib.Dict
