import SectorChain.Lib.Except

/-!
# Checks that reject or raise

The rules say when a sequence of checks accepts.
-/

namespace SectorChain.Lib

/-- A program that returns a value or an error of `err`, or raises an exception of `ε`. -/
structure Check (ε err α : Type) where
  run : Except ε (Except err α)

namespace Check

variable {ε err α β σ : Type}
variable {a b : α} {c : β} {e : err} {f : α → Check ε err β} {m : Check ε err α} {x : Except ε α}

def andThen (m : Check ε err α) (f : α → Check ε err β) : Check ε err β where
  run := do
    match ← m.run with
    | .ok a => (f a).run
    | .error e => return .error e

instance : Monad (Check ε err) where
  pure a := ⟨.ok (.ok a)⟩
  bind := Check.andThen

instance : MonadExceptOf err (Check ε err) where
  throw e := ⟨.ok (.error e)⟩
  tryCatch m h := ⟨do
    match ← m.run with
    | .ok a => return .ok a
    | .error e => (h e).run⟩

instance : MonadLift (Except ε) (Check ε err) where
  monadLift x := ⟨.ok <$> x⟩

def require (b : Bool) (e : err) : Check ε err Unit := if b then pure () else throw e

def Accepts (m : Check ε err α) (a : α) : Prop := m.run = .ok (.ok a)

@[simp] lemma accepts_pure : Accepts (pure a : Check ε err α) b ↔ a = b := by
  constructor
  · intro h
    cases h
    rfl
  · rintro rfl
    rfl

lemma run_bind (m : Check ε err α) (f : α → Check ε err β) : (m >>= f).run = m.run >>= fun r => match r with
    | .ok a => (f a).run
    | .error e => .ok (.error e) := rfl

lemma accepts_bind {b : β} : Accepts (m >>= f) b ↔ ∃ a, Accepts m a ∧ Accepts (f a) b := by
  unfold Accepts
  rw [run_bind, bind_eq_ok]
  constructor
  · rintro ⟨r, hr, h⟩
    cases r with
    | error e => cases h
    | ok a => exact ⟨a, hr, h⟩
  · rintro ⟨a, ha, h⟩
    exact ⟨.ok a, ha, h⟩

@[simp] lemma accepts_lift : Accepts (liftM x : Check ε err α) a ↔ x = .ok a := by
  cases x with
  | error e =>
    constructor
    · intro h
      cases h
    · intro h
      cases h
  | ok b =>
    constructor
    · intro h
      cases h
      rfl
    · intro h
      cases h
      rfl

@[simp] lemma accepts_require {b : Bool} {u : Unit} : Accepts (require b e : Check ε err Unit) u ↔ b = true := by
  cases b with
  | true => exact ⟨fun _ => rfl, fun _ => rfl⟩
  | false => exact ⟨fun h => (by cases h), fun h => (by cases h)⟩

lemma accepts_require_bind {b : Bool} {f : Unit → Check ε err β} :
    Accepts (require b e >>= f) c ↔ b = true ∧ Accepts (f ()) c := by
  rw [accepts_bind]
  constructor
  · rintro ⟨_, hb, h⟩
    exact ⟨accepts_require.mp hb, h⟩
  · rintro ⟨hb, h⟩
    exact ⟨(), accepts_require.mpr hb, h⟩

lemma accepts_lift_bind : Accepts ((liftM x : Check ε err α) >>= f) c ↔ ∃ a, x = .ok a ∧ Accepts (f a) c := by
  rw [accepts_bind]
  constructor
  · rintro ⟨a, ha, h⟩
    exact ⟨a, accepts_lift.mp ha, h⟩
  · rintro ⟨a, ha, h⟩
    exact ⟨a, accepts_lift.mpr ha, h⟩

end Check

end SectorChain.Lib
