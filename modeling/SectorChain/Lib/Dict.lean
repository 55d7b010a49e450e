import Mathlib.Data.List.Nodup

/-!
# Dictionaries

Finite maps that remember the order of their keys, as a Python `dict` does.
-/

namespace SectorChain.Lib

/-- A finite map in insertion order. -/
structure Dict (κ ν : Type) where
  entries : List (κ × ν)
  nodup : (entries.map Prod.fst).Nodup

namespace Dict

variable {κ ν : Type}
variable {d : Dict κ ν} {es : List (κ × ν)} {k : κ} {v : ν}

instance [DecidableEq κ] [DecidableEq ν] : DecidableEq (Dict κ ν) := fun d d' =>
  if h : d.entries = d'.entries then
    isTrue (by cases d; cases d'; cases h; rfl)
  else
    isFalse (fun heq => h (heq ▸ rfl))

lemma eq_of_entries {d' : Dict κ ν} (h : d.entries = d'.entries) : d = d' := by
  cases d
  cases d'
  cases h
  rfl

def empty : Dict κ ν := ⟨[], List.nodup_nil⟩

def keys (d : Dict κ ν) : List κ := d.entries.map Prod.fst

variable [DecidableEq κ]

/-- Assignment to a key keeps the place of a key that is present. -/
def assign (k : κ) (v : ν) : List (κ × ν) → List (κ × ν)
  | [] => [(k, v)]
  | e :: es => if e.1 = k then (k, v) :: es else e :: assign k v es

lemma assign_keys (k : κ) (v : ν) (es : List (κ × ν)) : (assign k v es).map Prod.fst =
      if k ∈ es.map Prod.fst then es.map Prod.fst else es.map Prod.fst ++ [k] := by
  induction es with
  | nil => rfl
  | cons e es ih =>
    unfold assign
    by_cases hk : e.1 = k
    · simp [hk]
    · have hk' : k ≠ e.1 := fun h => hk h.symm
      simp only [if_neg hk, List.map_cons, ih, List.mem_cons, hk', false_or]
      split <;> rfl

def get? (d : Dict κ ν) (k : κ) : Option ν := d.entries.lookup k

def contains (d : Dict κ ν) (k : κ) : Bool := (d.get? k).isSome

def set (d : Dict κ ν) (k : κ) (v : ν) : Dict κ ν where
  entries := assign k v d.entries
  nodup := by
    rw [assign_keys]
    split
    · exact d.nodup
    · rename_i hk
      exact d.nodup.append (List.nodup_singleton k) (by simpa using hk)

def filter (d : Dict κ ν) (p : κ → ν → Bool) : Dict κ ν where
  entries := d.entries.filter fun e => p e.1 e.2
  nodup := d.nodup.sublist (List.filter_sublist.map Prod.fst)

def erase (d : Dict κ ν) (k : κ) : Dict κ ν := d.filter fun k' _ => k' ≠ k

def popFirst (d : Dict κ ν) : Dict κ ν where
  entries := d.entries.tail
  nodup := d.nodup.sublist ((List.tail_sublist d.entries).map Prod.fst)

def mapVals (d : Dict κ ν) (f : κ → ν → ν) : Dict κ ν where
  entries := d.entries.map fun e => (e.1, f e.1 e.2)
  nodup := by
    have hkeys : (d.entries.map fun e => (e.1, f e.1 e.2)).map Prod.fst = d.entries.map Prod.fst := by
      simp
    rw [hkeys]
    exact d.nodup

lemma mem_iff_lookup (hnodup : (es.map Prod.fst).Nodup) : (k, v) ∈ es ↔ es.lookup k = some v := by
  induction es with
  | nil => simp
  | cons e es ih =>
    obtain ⟨x, y⟩ := e
    rw [List.map_cons, List.nodup_cons] at hnodup
    rw [List.lookup_cons]
    by_cases hk : k = x
    · subst hk
      have hnot : (k, v) ∉ es := fun hmem => hnodup.1 (List.mem_map.mpr ⟨(k, v), hmem, rfl⟩)
      simp [hnot, eq_comm]
    · rw [beq_false_of_ne hk]
      simp [← ih hnodup.2, hk]

lemma lookup_assign (k k' : κ) (v : ν) (es : List (κ × ν)) :
    (assign k v es).lookup k' = if k' = k then some v else es.lookup k' := by
  induction es with
  | nil =>
    by_cases hk : k' = k
    · simp [assign, hk]
    · simp [assign, hk, List.lookup_cons, beq_false_of_ne hk]
  | cons e es ih =>
    obtain ⟨x, y⟩ := e
    unfold assign
    by_cases hx : x = k
    · by_cases hk : k' = k
      · simp [hx, hk]
      · simp [hx, hk, List.lookup_cons, beq_false_of_ne hk]
    · rw [if_neg hx, List.lookup_cons, List.lookup_cons, ih]
      by_cases hk : k' = x
      · simp [hk, hx]
      · rw [beq_false_of_ne hk]

lemma mem_entries : (k, v) ∈ d.entries ↔ d.get? k = some v :=
  mem_iff_lookup d.nodup

@[simp] lemma get?_empty (k : κ) : (empty : Dict κ ν).get? k = none := rfl

lemma get?_set (d : Dict κ ν) (k k' : κ) (v : ν) : (d.set k v).get? k' = if k' = k then some v else d.get? k' :=
  lookup_assign k k' v d.entries

@[simp] lemma get?_set_self (d : Dict κ ν) (k : κ) (v : ν) : (d.set k v).get? k = some v := by
  rw [get?_set, if_pos rfl]

lemma get?_set_of_ne (d : Dict κ ν) {k' : κ} (v : ν) (h : k' ≠ k) : (d.set k v).get? k' = d.get? k' := by
  rw [get?_set, if_neg h]

@[simp] lemma get?_filter (d : Dict κ ν) (p : κ → ν → Bool) (k : κ) :
    (d.filter p).get? k = (d.get? k).filter (p k) := by
  ext v
  rw [← mem_entries, Option.filter_eq_some_iff, ← mem_entries]
  unfold filter
  simp

@[simp] lemma get?_erase (d : Dict κ ν) (k k' : κ) :
    (d.erase k).get? k' = if k' = k then none else d.get? k' := by
  unfold erase
  rw [get?_filter]
  by_cases hk : k' = k
  · cases d.get? k' <;> simp [hk]
  · cases d.get? k' <;> simp [hk]

lemma lookup_map (f : κ → ν → ν) (k : κ) (es : List (κ × ν)) :
    (es.map fun e => (e.1, f e.1 e.2)).lookup k = (es.lookup k).map (f k) := by
  induction es with
  | nil => rfl
  | cons e es ih =>
    obtain ⟨x, y⟩ := e
    rw [List.map_cons, List.lookup_cons, List.lookup_cons, ih]
    by_cases hk : k = x
    · simp [hk]
    · rw [beq_false_of_ne hk]

@[simp] lemma get?_mapVals (d : Dict κ ν) (f : κ → ν → ν) (k : κ) :
    (d.mapVals f).get? k = (d.get? k).map (f k) :=
  lookup_map f k d.entries

lemma get?_of_popFirst (h : d.popFirst.get? k = some v) : d.get? k = some v := by
  rw [← mem_entries] at h ⊢
  exact List.mem_of_mem_tail h

lemma mem_keys : k ∈ d.keys ↔ ∃ v, d.get? k = some v := by
  unfold keys
  simp [← mem_entries]

lemma assign_of_notMem (v : ν) (hk : k ∉ es.map Prod.fst) : assign k v es = es ++ [(k, v)] := by
  induction es with
  | nil => rfl
  | cons e es ih =>
    rw [List.map_cons, List.mem_cons, not_or] at hk
    unfold assign
    rw [if_neg fun h => hk.1 h.symm, ih hk.2]
    rfl

lemma entries_set_of_notMem (hk : k ∉ d.keys) (v : ν) :
    (d.set k v).entries = d.entries ++ [(k, v)] := assign_of_notMem v hk

lemma map_entries_eq_map_keys {β : Type} {f : κ → β} {g : ν → β}
    (h : ∀ {k v}, d.get? k = some v → f k = g v) : d.entries.map (fun e => g e.2) = d.keys.map f := by
  unfold keys
  rw [List.map_map]
  exact List.map_congr_left fun e he => (h (mem_entries.mp he)).symm

/-- What a loop over entries leaves at `k`, if only the round of `k` may change it. -/
lemma read_foldl_entries {σ β : Type} {step : σ → κ × ν → σ} (read : σ → Option β) (p : ν → Bool) (f : ν → β)
    (hnodup : (es.map Prod.fst).Nodup)
    (hstep : ∀ e ∈ es, ∀ s, read (step s e) = if k = e.1 ∧ p e.2 = true then some (f e.2) else read s) (s : σ) :
    read (es.foldl step s) = (((es.lookup k).filter p).map f).or (read s) := by
  induction es generalizing s with
  | nil => rfl
  | cons e es ih =>
    rw [List.map_cons, List.nodup_cons] at hnodup
    rw [List.forall_mem_cons] at hstep
    rw [List.foldl_cons, ih hnodup.2 hstep.2, hstep.1, List.lookup_cons]
    by_cases hk : k = e.1
    · have hnone : es.lookup k = none := by
        apply Option.eq_none_iff_forall_ne_some.mpr
        intro v hv
        exact hnodup.1 (hk ▸ List.mem_map_of_mem ((mem_iff_lookup hnodup.2).mpr hv))
      rw [hnone]
      by_cases hp : p e.2 = true
      · simp [hk, hp, Option.filter_some]
      · simp [hk, hp, Option.filter_some]
    · rw [if_neg fun h => hk h.1, beq_false_of_ne hk]

lemma get?_foldl_entries (hnodup : (es.map Prod.fst).Nodup) (d : Dict κ ν) (k : κ) :
    (es.foldl (fun d e => d.set e.1 e.2) d).get? k = (es.lookup k).or (d.get? k) := by
  rw [read_foldl_entries (k := k) (fun d : Dict κ ν => d.get? k) (fun _ => true) id hnodup]
  · cases es.lookup k with
    | none => rfl
    | some v => rfl
  · intro e _ s
    simp [get?_set]

/-- What a loop leaves behind comes from one of its rounds, or was there before. -/
lemma exists_of_foldl {σ α : Type} {step : σ → α → σ} {Q : σ → Prop} {P : α → Prop}
    (hstep : ∀ s a, Q (step s a) → P a ∨ Q s) {l : List α} {s : σ} (h : Q (l.foldl step s)) : (∃ a ∈ l, P a) ∨ Q s := by
  induction l generalizing s with
  | nil => exact .inr h
  | cons a l ih =>
    rcases ih h with ⟨b, hb, hP⟩ | h
    · exact .inl ⟨b, List.mem_cons_of_mem a hb, hP⟩
    · rcases hstep s a h with hP | h
      · exact .inl ⟨a, List.mem_cons_self, hP⟩
      · exact .inr h

lemma length_set (d : Dict κ ν) (k : κ) (v : ν) :
    (d.set k v).entries.length = if k ∈ d.keys then d.entries.length else d.entries.length + 1 := by
  have hlength := congrArg List.length (assign_keys k v d.entries)
  rw [List.length_map] at hlength
  change (assign k v d.entries).length = _
  rw [hlength]
  unfold keys
  split
  · exact List.length_map _
  · simp

lemma length_erase (d : Dict κ ν) (k : κ) :
    (d.erase k).entries.length + (if k ∈ d.keys then 1 else 0) = d.entries.length := by
  have hkeys : (d.erase k).entries.map Prod.fst = d.keys.erase k := by
    unfold erase filter keys
    rw [d.nodup.erase_eq_filter, List.filter_map]
    congr 1
    exact List.filter_congr fun e _ => by simp [bne, beq_eq_decide]
  have hlength := congrArg List.length hkeys
  rw [List.length_map, List.length_erase] at hlength
  rw [hlength]
  unfold keys
  split
  · rename_i hk
    have := List.length_pos_of_mem hk
    rw [List.length_map] at this ⊢
    omega
  · rw [List.length_map, Nat.add_zero]

lemma exists_of_mem_getD {α : Type} {d : Dict κ (List α)} {k : κ} {a : α} (h : a ∈ (d.get? k).getD []) :
    ∃ l, d.get? k = some l ∧ a ∈ l := by
  cases hget : d.get? k with
  | none =>
    rw [hget] at h
    cases h
  | some l =>
    rw [hget] at h
    exact ⟨l, rfl, h⟩

lemma contains_iff : d.contains k = true ↔ ∃ v, d.get? k = some v := by
  exact Option.isSome_iff_exists

end Dict

end SectorChain.Lib
