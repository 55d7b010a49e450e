import SectorChain.Lib.Dict

/-!
# Least recently used caches

Entries are in the order of their last use.
-/

namespace SectorChain.Lib

open List

/-- The entries, the oldest one first, and how many there may be. -/
structure LruCache (κ ν : Type) where
  cache : Dict κ ν
  capacity : ℕ
  fits : cache.entries.length ≤ capacity

namespace LruCache

variable {κ ν : Type} [DecidableEq κ]
variable {k : κ} {n : ℕ} {w : ν}

def new (capacity : ℕ) : LruCache κ ν := ⟨.empty, capacity, Nat.zero_le _⟩

def peek (c : LruCache κ ν) (k : κ) : Option ν := c.cache.get? k

variable (d : Dict κ ν)

/-- Assignment to a key and `move_to_end`. -/
def refresh (k : κ) (v : ν) : Dict κ ν := (d.erase k).set k v

lemma get?_refresh (k k' : κ) (v : ν) : (refresh d k v).get? k' = if k' = k then some v else d.get? k' := by
  unfold refresh
  rw [Dict.get?_set]
  by_cases hk : k' = k
  · simp [hk]
  · simp [hk]

lemma length_refresh (k : κ) (v : ν) :
    (refresh d k v).entries.length = if k ∈ d.keys then d.entries.length else d.entries.length + 1 := by
  have hnot : k ∉ (d.erase k).keys := by
    rw [Dict.mem_keys]
    simp
  have herase := d.length_erase k
  unfold refresh
  rw [Dict.length_set, if_neg hnot]
  split at herase
  · rename_i hk
    rw [if_pos hk, herase]
  · rename_i hk
    rw [if_neg hk, ← herase]

lemma length_refresh_of_mem {d : Dict κ ν} (v : ν) (h : d.get? k = some w) :
    (refresh d k v).entries.length = d.entries.length := by
  rw [length_refresh, if_pos (Dict.mem_keys.mpr ⟨w, h⟩)]

def get (c : LruCache κ ν) (k : κ) : Option ν × LruCache κ ν :=
  match h : c.cache.get? k with
  | none => (none, c)
  | some v => (some v, ⟨refresh c.cache k v, c.capacity, by rw [length_refresh_of_mem v h]; exact c.fits⟩)

/-- The oldest entry goes if the cache overflows. -/
def put (c : LruCache κ ν) (k : κ) (v : ν) : LruCache κ ν :=
  let cache := refresh c.cache k v
  if h : cache.entries.length > c.capacity then
    ⟨cache.popFirst, c.capacity, by
      have hlength := length_refresh c.cache k v
      have hfits := c.fits
      change cache.entries.tail.length ≤ _
      rw [length_tail, hlength]
      split
      · omega
      · omega⟩
  else ⟨cache, c.capacity, Nat.le_of_not_gt h⟩

def remove (c : LruCache κ ν) (k : κ) : LruCache κ ν where
  cache := c.cache.erase k
  capacity := c.capacity
  fits := by
    have hlength := c.cache.length_erase k
    have hfits := c.fits
    omega

@[simp] lemma get_fst (c : LruCache κ ν) (k : κ) : (c.get k).1 = c.peek k := by
  unfold get peek
  split
  · rename_i h
    exact h.symm
  · rename_i v h
    exact h.symm

@[simp] lemma peek_get (c : LruCache κ ν) (k k' : κ) : (c.get k).2.peek k' = c.peek k' := by
  unfold get
  split
  · rfl
  rename_i v hk
  unfold peek
  rw [get?_refresh]
  by_cases hk' : k' = k
  · rw [if_pos hk', hk', hk]
  · rw [if_neg hk']

lemma peek_put {c : LruCache κ ν} {k' : κ} {v : ν} (h : (c.put k v).peek k' = some w) :
    if k' = k then w = v else c.peek k' = some w := by
  have hrefresh : (refresh c.cache k v).get? k' = some w := by
    unfold put peek at h
    dsimp only at h
    split at h
    · exact Dict.get?_of_popFirst h
    · exact h
  rw [get?_refresh] at hrefresh
  by_cases hk : k' = k
  · rw [if_pos hk] at hrefresh ⊢
    exact (Option.some.inj hrefresh).symm
  · rw [if_neg hk] at hrefresh ⊢
    exact hrefresh

lemma peek_put_of_mem {c : LruCache κ ν} (v : ν) (h : c.peek k = some w) (k' : κ) :
    (c.put k v).peek k' = if k' = k then some v else c.peek k' := by
  have hfits : ¬ (refresh c.cache k v).entries.length > c.capacity := by
    rw [length_refresh_of_mem v h]
    exact Nat.not_lt.mpr c.fits
  unfold put peek
  rw [dif_neg hfits, get?_refresh]

@[simp] lemma peek_remove (c : LruCache κ ν) (k k' : κ) : (c.remove k).peek k' = if k' = k then none else c.peek k' :=
  Dict.get?_erase c.cache k k'

/-- Every entry of the cache is what `f` returns. -/
def Within (c : LruCache κ ν) (f : κ → Option ν) : Prop := ∀ k v, c.peek k = some v → f k = some v

variable {c : LruCache κ ν} {f g : κ → Option ν}

lemma within_new (capacity : ℕ) (f : κ → Option ν) : (new capacity : LruCache κ ν).Within f := by
  intro k v h
  cases h

end LruCache

end SectorChain.Lib
