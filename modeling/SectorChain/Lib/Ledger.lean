import Mathlib.Data.List.Nodup
import Mathlib.Data.Int.Notation

/-!
# Ledgers with heights

Rolling a ledger back to a height leaves what the events up to that height give.
-/

namespace SectorChain.Lib

open Function (update update_self update_of_ne)

/-- A value with the heights at which it was created and spent. -/
structure Entry (ν : Type) where
  value : ν
  created : ℕ
  spent : Option ℕ

/-- What a ledger knows about each id. -/
abbrev Ledger (κ ν : Type) := κ → Option (Entry ν)

/-- A creation or a spend at a height, in any order of heights. -/
inductive Event (κ ν : Type) where
  | create (height : ℕ) (key : κ) (value : ν)
  | spend (height : ℕ) (key : κ)

def Event.height {κ ν : Type} : Event κ ν → ℕ
  | .create height _ _ => height
  | .spend height _ => height

namespace Ledger

variable {κ ν : Type}
variable {c : κ × ν} {e : Event κ ν} {events : List (Event κ ν)} {f : ℤ}

def empty : Ledger κ ν := fun _ => none

/-- The ledger without what happened above a height, which may be negative. -/
def rollback (height : ℤ) (L : Ledger κ ν) : Ledger κ ν := fun k =>
  match L k with
  | none => none
  | some e => if e.created ≤ height then some { e with spent := e.spent.filter fun h => h ≤ height }
    else none

variable [DecidableEq κ] {height : ℕ} {L L' : Ledger κ ν} {k : κ}

def create (height : ℕ) (L : Ledger κ ν) (c : κ × ν) : Option (Ledger κ ν) :=
  match L c.1 with
  | none => some (update L c.1 (some ⟨c.2, height, none⟩))
  | some _ => none

def spend (height : ℕ) (L : Ledger κ ν) (k : κ) : Option (Ledger κ ν) :=
  match L k with
  | some ⟨v, created, none⟩ => some (update L k (some ⟨v, created, some height⟩))
  | _ => none

lemma create_eq_some (h : create height L c = some L') :
    L c.1 = none ∧ L' = update L c.1 (some ⟨c.2, height, none⟩) := by
  unfold create at h
  cases hk : L c.1 with
  | none =>
    rw [hk] at h
    cases h
    exact ⟨rfl, rfl⟩
  | some e =>
    rw [hk] at h
    cases h

lemma spend_eq_some (h : spend height L k = some L') :
    ∃ v created, L k = some ⟨v, created, none⟩ ∧ L' = update L k (some ⟨v, created, some height⟩) := by
  unfold spend at h
  rcases hk : L k with _ | ⟨v, created, _ | spent⟩
  · rw [hk] at h
    cases h
  · rw [hk] at h
    cases h
    exact ⟨v, created, rfl, rfl⟩
  · rw [hk] at h
    cases h

lemma rollback_update_of_eq {e : Option (Entry ν)} (h : rollback f (update L k e) k = rollback f L k) :
    rollback f (update L k e) = rollback f L := by
  funext k'
  by_cases hk : k' = k
  · rw [hk, h]
  · unfold rollback
    rw [update_of_ne hk]

lemma rollback_create (hf : f < height) (h : create height L c = some L') : rollback f L' = rollback f L := by
  obtain ⟨hnone, rfl⟩ := create_eq_some h
  apply rollback_update_of_eq
  unfold rollback
  rw [update_self, hnone]
  exact if_neg (by dsimp only; omega)

lemma rollback_spend (hf : f < height) (h : spend height L k = some L') : rollback f L' = rollback f L := by
  obtain ⟨v, created, hk, rfl⟩ := spend_eq_some h
  apply rollback_update_of_eq
  unfold rollback
  rw [hk]
  have hnot : ¬ (height : ℤ) ≤ f := by omega
  simp [Option.filter, hnot]

/-- An event of a history. A spend is not below the creation. -/
def step (L : Ledger κ ν) : Event κ ν → Option (Ledger κ ν)
  | .create height k v => create height L (k, v)
  | .spend height k =>
    match L k with
    | some e => if e.created ≤ height then spend height L k else none
    | none => none

def replay (events : List (Event κ ν)) (L : Ledger κ ν) : Option (Ledger κ ν) := events.foldlM step L

lemma replay_append {events' : List (Event κ ν)} :
    replay (events ++ events') L = (replay events L).bind (replay events') := by
  exact List.foldlM_append

lemma step_spend_eq_some (h : step L (.spend height k) = some L') :
    ∃ v created, L k = some ⟨v, created, none⟩ ∧ created ≤ height ∧
      L' = update L k (some ⟨v, created, some height⟩) := by
  unfold step at h
  cases hk : L k with
  | none => simp [hk] at h
  | some e =>
    simp only [hk] at h
    split at h
    · rename_i hle
      obtain ⟨v, created, he, rfl⟩ := spend_eq_some h
      obtain rfl := Option.some.inj (hk.symm.trans he)
      exact ⟨v, created, rfl, hle, rfl⟩
    · cases h

lemma step_spend {v : ν} {created : ℕ} (hk : L k = some ⟨v, created, none⟩) (hle : created ≤ height) :
    step L (.spend height k) = some (update L k (some ⟨v, created, some height⟩)) := by
  unfold step
  dsimp only
  rw [hk]
  dsimp only
  rw [if_pos hle]
  unfold spend
  rw [hk]

lemma rollback_update {e : Entry ν} (hcreated : e.created ≤ f) (hspent : ∀ h, e.spent = some h → (h : ℤ) ≤ f) :
    rollback f (update L k (some e)) = update (rollback f L) k (some e) := by
  funext k'
  by_cases hk : k' = k
  · subst hk
    unfold rollback
    rw [update_self, update_self]
    dsimp only
    rw [if_pos hcreated]
    obtain ⟨v, created, _ | h⟩ := e
    · rfl
    · have hle : (h : ℤ) ≤ f := hspent h rfl
      simp [Option.filter, hle]
  · rw [update_of_ne hk]
    unfold rollback
    rw [update_of_ne hk]

lemma step_rollback (hf : e.height ≤ f) (h : step L e = some L') :
    step (rollback f L) e = some (rollback f L') := by
  cases e with
  | create height k v =>
    obtain ⟨hnone, rfl⟩ := create_eq_some (show create height L (k, v) = some L' from h)
    have hnone' : rollback f L k = none := by
      unfold rollback
      rw [show L k = none from hnone]
    change create height (rollback f L) (k, v) = _
    unfold create
    rw [hnone', rollback_update hf (by simp)]
  | spend height k =>
    obtain ⟨v, created, hk, hle, rfl⟩ := step_spend_eq_some h
    have hheight : (height : ℤ) ≤ f := hf
    have hk' : rollback f L k = some ⟨v, created, none⟩ := by
      unfold rollback
      rw [hk]
      exact if_pos (by dsimp only; omega)
    rw [step_spend hk' hle, rollback_update (by dsimp only; omega)]
    intro h' hs
    cases hs
    exact hheight

lemma rollback_step (hf : f < e.height) (h : step L e = some L') : rollback f L' = rollback f L := by
  cases e with
  | create height k v => exact rollback_create hf h
  | spend height k =>
    obtain ⟨v, created, hk, -, rfl⟩ := step_spend_eq_some h
    have hspend : spend height L k = some (update L k (some ⟨v, created, some height⟩)) := by
      unfold spend
      rw [hk]
    exact rollback_spend hf hspend

lemma replay_filter (h : replay events L = some L') :
    replay (events.filter fun e => e.height ≤ f) (rollback f L) = some (rollback f L') := by
  induction events generalizing L with
  | nil =>
    cases h
    rfl
  | cons e events ih =>
    obtain ⟨L₁, hstep, h⟩ := Option.bind_eq_some_iff.mp h
    by_cases hf : (e.height : ℤ) ≤ f
    · rw [List.filter_cons_of_pos (by simpa using hf)]
      unfold replay
      rw [List.foldlM_cons, step_rollback hf hstep]
      exact ih h
    · rw [List.filter_cons_of_neg (by simpa using hf), ← rollback_step (by omega) hstep]
      exact ih h

end Ledger

end SectorChain.Lib
