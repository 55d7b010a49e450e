import SectorChain.Lib.Dict
import Mathlib.Data.List.Perm.Subperm
import Mathlib.Data.Nat.Find

/-!
# Numbered slots

The first `n` slots are in use, and no key twice.
-/

namespace SectorChain.Lib

open List

variable {α κ : Type}

def entries (n : ℕ) (t : ℕ → Option α) : List α := (List.range n).filterMap t

lemma mem_entries {n : ℕ} {t : ℕ → Option α} {a : α} : a ∈ entries n t ↔ ∃ i, i < n ∧ t i = some a := by
  simp [entries]

def FirstFree (t : ℕ → Option α) (i : ℕ) : Prop := t i = none ∧ ∀ j, j < i → ∃ a, t j = some a

lemma exists_firstFree {t : ℕ → Option α} {k : ℕ} (h : t k = none) : ∃ i, FirstFree t i ∧ i ≤ k := by
  have hex : ∃ i, t i = none := ⟨k, h⟩
  refine ⟨Nat.find hex, ⟨Nat.find_spec hex, ?_⟩, Nat.find_min' hex h⟩
  intro j hj
  exact Option.ne_none_iff_exists'.mp (Nat.find_min hex hj)

lemma le_length_of_contains [DecidableEq κ] {d : Dict κ α} {f : ℕ → κ} (hinj : Function.Injective f) {n : ℕ}
    (h : ∀ i, i < n → ∃ a, d.get? (f i) = some a) : n ≤ d.entries.length := by
  have hnodup : ((List.range n).map f).Nodup := nodup_range.map hinj
  have hsub : (List.range n).map f ⊆ d.keys := by
    intro k hk
    obtain ⟨i, hi, rfl⟩ := mem_map.mp hk
    exact Dict.mem_keys.mpr (h i (mem_range.mp hi))
  have hle := (subperm_of_subset hnodup hsub).length_le
  rwa [length_map, length_range, Dict.keys, length_map] at hle

/-- A table whose entries are in the first `n` slots and have different keys. -/
structure Slots (key : α → κ) (n : ℕ) where
  entry : ℕ → Option α
  within : ∀ i, n ≤ i → entry i = none
  keyed : ∀ i j a b, entry i = some a → entry j = some b → key a = key b → i = j

namespace Slots

variable {key : α → κ} {n : ℕ}

lemma lt_of_entry (T : Slots key n) {i : ℕ} {a : α} (h : T.entry i = some a) : i < n := by
  by_contra hle
  rw [T.within i (Nat.le_of_not_lt hle)] at h
  cases h

lemma mem_entries_iff (T : Slots key n) {a : α} : a ∈ entries n T.entry ↔ ∃ i, T.entry i = some a := by
  rw [mem_entries]
  exact ⟨fun ⟨i, _, hi⟩ => ⟨i, hi⟩, fun ⟨i, hi⟩ => ⟨i, T.lt_of_entry hi, hi⟩⟩

def empty : Slots key n := ⟨fun _ => none, fun _ _ => rfl, fun _ _ _ _ h => by cases h⟩

def put (T : Slots key n) (i : ℕ) (a : α) (hi : i < n) (hnew : ∀ j b, T.entry j = some b → key b ≠ key a) :
    Slots key n where
  entry := Function.update T.entry i (some a)
  within := by
    intro j hj
    rw [Function.update_of_ne (by omega)]
    exact T.within j hj
  keyed := by
    intro j j' b b' hb hb' hkey
    rw [Function.update_apply] at hb hb'
    split at hb
    · rename_i hj
      cases hb
      split at hb'
      · rename_i hj'
        exact hj.trans hj'.symm
      · exact absurd hkey.symm (hnew _ _ hb')
    · split at hb'
      · cases hb'
        exact absurd hkey (hnew _ _ hb)
      · exact T.keyed j j' b b' hb hb' hkey

variable [DecidableEq κ]

def removeKey (T : Slots key n) (k : κ) : Slots key n where
  entry := fun i => (T.entry i).filter fun a => key a ≠ k
  within := fun i hi => by rw [T.within i hi, Option.filter_none]
  keyed := fun i j a b ha hb => T.keyed i j a b (Option.eq_some_of_filter_eq_some ha) (Option.eq_some_of_filter_eq_some hb)

end Slots

end SectorChain.Lib
