import Mathlib.Data.List.Basic

/-!
# Invariants of runs

A run folds a step function over a list of calls.
-/

namespace SectorChain.Lib

open List

variable {σ α : Type} {calls : List α} (step : σ → α → σ) (init : σ)

lemma foldl_take_add_one {n : ℕ} {a : α} (ha : calls[n]? = some a) :
    (calls.take (n + 1)).foldl step init = step ((calls.take n).foldl step init) a := by
  rw [take_add_one, ha, foldl_append]
  rfl

/-- If `C` says when a step keeps `P`, then `P` always holds exactly if `C` holds of all steps. -/
lemma forall_take_foldl_iff (P : σ → Prop) (C : σ → α → Prop) (hinit : P init)
    (hstep : ∀ s a, P s → (P (step s a) ↔ C s a)) : (∀ n, P ((calls.take n).foldl step init)) ↔
      ∀ n a, calls[n]? = some a → C ((calls.take n).foldl step init) a := by
  constructor
  · intro h n a ha
    rw [← hstep _ a (h n), ← foldl_take_add_one step init ha]
    exact h (n + 1)
  intro h n
  induction n with
  | zero => exact hinit
  | succ n ih =>
    cases ha : calls[n]? with
    | none => rwa [take_add_one, ha, Option.toList_none, append_nil]
    | some a =>
      rw [foldl_take_add_one step init ha, hstep _ a ih]
      exact h n a ha

end SectorChain.Lib
