import SectorChain.Lib.Dict
import Mathlib.Order.Lattice

/-!
# Dictionaries with sorted keys

Finite maps whose entries are kept in ascending order of their keys.
-/

namespace SectorChain.Lib

open List

variable {κ ν : Type} [LinearOrder κ]
variable {es : List (κ × ν)} {k : κ} {v : ν}

/-- A finite map in the order of its keys. -/
structure SortedDict (κ ν : Type) [LinearOrder κ] where
  entries : List (κ × ν)
  sorted : entries.Pairwise fun a b => a.1 < b.1

namespace SortedDict

def empty : SortedDict κ ν := ⟨[], List.Pairwise.nil⟩

def assign (k : κ) (v : ν) : List (κ × ν) → List (κ × ν)
  | [] => [(k, v)]
  | e :: es =>
    if k < e.1 then (k, v) :: e :: es
    else if e.1 = k then (k, v) :: es
    else e :: assign k v es

lemma mem_assign {e : κ × ν} (h : e ∈ assign k v es) : e = (k, v) ∨ e ∈ es := by
  induction es with
  | nil =>
    exact .inl (mem_singleton.mp h)
  | cons e' es ih =>
    unfold assign at h
    split at h
    · exact mem_cons.mp h
    split at h
    · exact (mem_cons.mp h).imp_right (mem_cons_of_mem e')
    · rcases mem_cons.mp h with rfl | h
      · exact .inr mem_cons_self
      · exact (ih h).imp_right (mem_cons_of_mem e')

lemma pairwise_assign (k : κ) (v : ν) (h : es.Pairwise fun a b => a.1 < b.1) :
    (assign k v es).Pairwise fun a b => a.1 < b.1 := by
  induction es with
  | nil => exact pairwise_singleton _ _
  | cons e es ih =>
    obtain ⟨he, hes⟩ := pairwise_cons.mp h
    unfold assign
    split
    · rename_i hlt
      apply pairwise_cons.mpr
      refine ⟨fun e' he' => ?_, h⟩
      rcases mem_cons.mp he' with rfl | he'
      · exact hlt
      · exact lt_trans hlt (he e' he')
    rename_i hle
    split
    · rename_i heq
      apply pairwise_cons.mpr
      exact ⟨fun e' he' => heq ▸ he e' he', hes⟩
    rename_i hne
    apply pairwise_cons.mpr
    refine ⟨fun e' he' => ?_, ih hes⟩
    rcases mem_assign he' with rfl | he'
    · exact lt_of_le_of_ne (not_lt.mp hle) hne
    · exact he e' he'

lemma assign_of_mem {v₀ : ν} (v : ν) (hmem : (k, v₀) ∈ es) (h : es.Pairwise fun a b => a.1 < b.1) :
    assign k v es = es.map fun e => if e.1 = k then (k, v) else e := by
  induction es with
  | nil => cases hmem
  | cons e es ih =>
    obtain ⟨he, hes⟩ := pairwise_cons.mp h
    rw [map_cons]
    unfold assign
    rcases mem_cons.mp hmem with rfl | hmem
    · have hrest : es.map (fun e => if e.1 = k then (k, v) else e) = es := by
        apply map_congr_left (fun e' he' => ?_) |>.trans (map_id es)
        exact if_neg (ne_of_gt (he e' he'))
      rw [if_neg (lt_irrefl k), if_pos rfl, if_pos rfl, hrest]
    · have hlt := he _ hmem
      rw [if_neg (not_lt_of_gt hlt), if_neg (ne_of_lt hlt), if_neg (ne_of_lt hlt), ih hmem hes]

variable (d : SortedDict κ ν)

def get? (k : κ) : Option ν := d.entries.lookup k

def set (k : κ) (v : ν) : SortedDict κ ν where
  entries := assign k v d.entries
  sorted := pairwise_assign k v d.sorted

def erase (k : κ) : SortedDict κ ν where
  entries := d.entries.filter fun e => e.1 ≠ k
  sorted := d.sorted.sublist filter_sublist

lemma nodup_keys : (d.entries.map Prod.fst).Nodup := by
  apply pairwise_map.mpr
  exact d.sorted.imp fun h => ne_of_lt h

lemma mem_entries {d : SortedDict κ ν} : (k, v) ∈ d.entries ↔ d.get? k = some v :=
  Dict.mem_iff_lookup d.nodup_keys

lemma lookup_assign (k k' : κ) (v : ν) (es : List (κ × ν)) :
    (assign k v es).lookup k' = if k' = k then some v else es.lookup k' := by
  induction es with
  | nil =>
    by_cases hk : k' = k
    · simp [assign, hk]
    · simp [assign, hk, lookup_cons, beq_false_of_ne hk]
  | cons e es ih =>
    obtain ⟨x, y⟩ := e
    unfold assign
    split
    · by_cases hk : k' = k
      · simp [hk]
      · rw [lookup_cons, beq_false_of_ne hk, if_neg hk]
    split
    · rename_i hx
      by_cases hk : k' = k
      · simp [hk]
      · have hk' : k' ≠ x := fun h => hk (h.trans hx)
        rw [lookup_cons, lookup_cons, beq_false_of_ne hk, beq_false_of_ne hk', if_neg hk]
    rename_i hx
    rw [lookup_cons, lookup_cons, ih]
    by_cases hk : k' = x
    · have hkx : k' ≠ k := fun h => hx (hk.symm.trans h)
      simp [hk, hk ▸ hkx]
    · rw [beq_false_of_ne hk]

lemma get?_set (k k' : κ) (v : ν) : (d.set k v).get? k' = if k' = k then some v else d.get? k' :=
  lookup_assign k k' v d.entries

lemma get?_erase (k k' : κ) : (d.erase k).get? k' = if k' = k then none else d.get? k' := by
  ext v
  rw [← mem_entries]
  unfold erase
  rw [mem_filter, mem_entries]
  by_cases hk : k' = k
  · simp [hk]
  · simp [hk]

end SortedDict

end SectorChain.Lib
