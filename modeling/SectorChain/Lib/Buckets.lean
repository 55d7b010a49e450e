import SectorChain.Lib.SortedDict
import Mathlib.Data.List.Flatten
import Mathlib.Data.List.Pairwise
import Mathlib.Data.List.Perm.Lattice

/-!
# Dictionaries in sorted buckets

No bucket is empty.
-/

namespace SectorChain.Lib

open List

variable {ρ κ ν : Type} [LinearOrder ρ]
variable {d : Dict κ ν} {k : κ} {r : ρ}

/-- Values by rank and key. -/
abbrev Buckets (ρ κ ν : Type) [LinearOrder ρ] := SortedDict ρ (Dict κ ν)

variable {b : Buckets ρ κ ν}

namespace Buckets

/-- All values with their ranks and keys, by rank. -/
def list (b : Buckets ρ κ ν) : List (ρ × κ × ν) :=
  b.entries.flatMap fun bucket => bucket.2.entries.map fun e => (bucket.1, e.1, e.2)

lemma pairwise_list (b : Buckets ρ κ ν) : b.list.Pairwise fun x y => x.1 ≤ y.1 := by
  obtain ⟨entries, hsorted⟩ := b
  unfold list
  induction entries with
  | nil => exact List.Pairwise.nil
  | cons bucket entries ih =>
    obtain ⟨hlt, hrest⟩ := pairwise_cons.mp hsorted
    rw [flatMap_cons, pairwise_append]
    refine ⟨?_, ih hrest, ?_⟩
    · apply pairwise_map.mpr
      exact pairwise_of_forall fun _ _ => le_refl bucket.1
    intro x hx y hy
    obtain ⟨e, -, rfl⟩ := mem_map.mp hx
    obtain ⟨bucket', hbucket', hy⟩ := mem_flatMap.mp hy
    obtain ⟨e', -, rfl⟩ := mem_map.mp hy
    exact le_of_lt (hlt bucket' hbucket')

lemma nodup_list (b : Buckets ρ κ ν) : (b.list.map fun x => (x.1, x.2.1)).Nodup := by
  obtain ⟨entries, hsorted⟩ := b
  unfold list
  induction entries with
  | nil => exact nodup_nil
  | cons bucket entries ih =>
    obtain ⟨hlt, hrest⟩ := pairwise_cons.mp hsorted
    rw [flatMap_cons, map_append, nodup_append']
    refine ⟨?_, ih hrest, ?_⟩
    · rw [map_map]
      apply pairwise_map.mpr
      apply (pairwise_map.mp bucket.2.nodup).imp
      intro e e' hne heq
      exact hne (Prod.mk.inj heq).2
    intro x hx hx'
    rw [map_map] at hx
    obtain ⟨e, -, rfl⟩ := mem_map.mp hx
    obtain ⟨y, hy, heq⟩ := mem_map.mp hx'
    obtain ⟨bucket', hbucket', hy⟩ := mem_flatMap.mp hy
    obtain ⟨e', -, rfl⟩ := mem_map.mp hy
    exact absurd (Prod.mk.inj heq).1 (ne_of_gt (hlt bucket' hbucket'))

variable [DecidableEq κ]

def find (b : Buckets ρ κ ν) (r : ρ) (k : κ) : Option ν := (b.get? r).bind fun d => d.get? k

def insert (b : Buckets ρ κ ν) (r : ρ) (k : κ) (v : ν) : Buckets ρ κ ν :=
  b.set r (((b.get? r).getD .empty).set k v)

def remove (b : Buckets ρ κ ν) (r : ρ) (d : Dict κ ν) : Buckets ρ κ ν :=
  if d.entries.length = 0 then b.erase r else b.set r d

lemma mem_list {v : ν} : (r, k, v) ∈ b.list ↔ b.find r k = some v := by
  unfold list find
  constructor
  · intro h
    obtain ⟨⟨r', d⟩, hd, hmem⟩ := mem_flatMap.mp h
    obtain ⟨⟨k', v'⟩, he, heq⟩ := mem_map.mp hmem
    cases heq
    rw [SortedDict.mem_entries.mp hd]
    exact Dict.mem_entries.mp he
  intro h
  obtain ⟨d, hd, hv⟩ := Option.bind_eq_some_iff.mp h
  apply mem_flatMap.mpr
  refine ⟨(r, d), SortedDict.mem_entries.mpr hd, mem_map.mpr ⟨(k, v), ?_, rfl⟩⟩
  exact Dict.mem_entries.mpr hv

lemma find_insert (b : Buckets ρ κ ν) (r r' : ρ) (k k' : κ) (v : ν) :
    (b.insert r k v).find r' k' = if r' = r ∧ k' = k then some v else b.find r' k' := by
  unfold find insert
  rw [SortedDict.get?_set]
  by_cases hr : r' = r
  · subst hr
    rw [if_pos rfl, Option.bind_some, Dict.get?_set]
    by_cases hk : k' = k
    · rw [if_pos hk, if_pos ⟨rfl, hk⟩]
    · rw [if_neg hk, if_neg fun h => hk h.2]
      cases b.get? r' <;> rfl
  · rw [if_neg hr, if_neg fun h => hr h.1]

lemma find_remove (b : Buckets ρ κ ν) (hd : b.get? r = some d) (k : κ) (r' : ρ) (k' : κ) :
    (remove b r (d.erase k)).find r' k' = if r' = r ∧ k' = k then none else b.find r' k' := by
  have herase : r' = r → ∀ o : Option (Dict κ ν), o = some (d.erase k) →
      o.bind (fun d => d.get? k') = if r' = r ∧ k' = k then none else b.find r' k' := by
    rintro rfl o rfl
    unfold find
    rw [hd, Option.bind_some, Option.bind_some, Dict.get?_erase]
    by_cases hk : k' = k
    · rw [if_pos hk, if_pos ⟨rfl, hk⟩]
    · rw [if_neg hk, if_neg fun h => hk h.2]
  unfold remove
  split
  · rename_i hempty
    change ((b.erase r).get? r').bind _ = _
    rw [SortedDict.get?_erase]
    by_cases hr : r' = r
    · rw [if_pos hr, ← herase hr _ rfl, Option.bind_some]
      unfold Dict.get?
      rw [eq_nil_of_length_eq_zero hempty]
      rfl
    · rw [if_neg hr, if_neg fun h => hr h.1]
      rfl
  · change ((b.set r (d.erase k)).get? r').bind _ = _
    rw [SortedDict.get?_set]
    by_cases hr : r' = r
    · rw [if_pos hr]
      exact herase hr _ rfl
    · rw [if_neg hr, if_neg fun h => hr h.1]
      rfl

lemma perm_list_insert (v : ν) (hnew : b.find r k = none) : (b.insert r k v).list.Perm ((r, k, v) :: b.list) := by
  have hnodup : ∀ b : Buckets ρ κ ν, b.list.Nodup := fun b => (nodup_list b).of_map _
  have hnot : (r, k, v) ∉ b.list := by
    rw [mem_list, hnew]
    simp
  rw [perm_ext_iff_of_nodup (hnodup _) (nodup_cons.mpr ⟨hnot, hnodup b⟩)]
  rintro ⟨r', k', v'⟩
  rw [mem_list, find_insert, mem_cons, mem_list]
  by_cases hrk : r' = r ∧ k' = k
  · obtain ⟨rfl, rfl⟩ := hrk
    rw [hnew]
    simp [eq_comm]
  rw [if_neg hrk]
  have hne : (r', k', v') ≠ (r, k, v) := by
    intro heq
    cases heq
    exact hrk ⟨rfl, rfl⟩
  simp [hne]

lemma filter_bucket (r r' : ρ) (k : κ) (d : Dict κ ν) :
    (d.entries.map fun e => (r', e.1, e.2)).filter (fun x => ¬ (x.1 = r ∧ x.2.1 = k)) =
      (if r' = r then d.erase k else d).entries.map fun e => (r', e.1, e.2) := by
  rw [filter_map]
  by_cases hr : r' = r
  · rw [if_pos hr]
    congr 1
    apply filter_congr
    intro e _
    simp [hr]
  rw [if_neg hr]
  congr 1
  apply filter_eq_self.mpr
  intro e _
  simp [hr]

lemma flatMap_filter_eq {α β : Type} (p : α → Bool) (g : α → List β) (l : List α) :
    (l.filter p).flatMap g = l.flatMap fun a => if p a then g a else [] := by
  induction l with
  | nil => rfl
  | cons a l ih =>
    rw [filter_cons, flatMap_cons]
    split <;> simp [ih]

lemma list_remove (b : Buckets ρ κ ν) (hd : b.get? r = some d) (k : κ) :
    (remove b r (d.erase k)).list = b.list.filter fun x => ¬ (x.1 = r ∧ x.2.1 = k) := by
  have hmem := SortedDict.mem_entries.mpr hd
  have hbucket : ∀ e ∈ b.entries, e.1 = r → e.2 = d := by
    rintro ⟨r', d'⟩ he rfl
    exact Option.some.inj ((SortedDict.mem_entries.mp he).symm.trans hd)
  unfold remove list
  rw [filter_flatMap]
  split
  · rename_i hempty
    rw [show (b.erase r).entries = b.entries.filter fun e => e.1 ≠ r from rfl, flatMap_filter_eq]
    apply flatMap_congr
    intro e he
    rw [filter_bucket]
    by_cases hr : e.1 = r
    · rw [if_pos hr, hbucket e he hr, eq_nil_of_length_eq_zero hempty]
      simp [hr]
    · simp [hr]
  · rw [show (b.set r (d.erase k)).entries = SortedDict.assign r (d.erase k) b.entries from rfl,
      SortedDict.assign_of_mem _ hmem b.sorted, flatMap_map]
    apply flatMap_congr
    intro e he
    rw [filter_bucket]
    by_cases hr : e.1 = r
    · rw [if_pos hr, if_pos hr, hbucket e he hr, hr]
    · rw [if_neg hr, if_neg hr]

end Buckets

end SectorChain.Lib
