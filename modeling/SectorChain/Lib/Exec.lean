import Mathlib.Data.List.Forall2

/-!
# Programs with state and exceptions

The changes made before a raise stay in place.
-/

namespace SectorChain.Lib

open List

/-- A program over the states `σ` that returns an `α` or raises an `ε`. -/
abbrev Exec (ε σ α : Type) := ExceptT ε (StateM σ) α

variable {ε ε' σ α β : Type}
variable {f : α → Exec ε σ β} {l : List α} {m x : Exec ε σ α} {r : Except ε α} {s s' : σ}

/-- The outcome of a program and the state it leaves behind. -/
def exec (m : Exec ε σ α) (s : σ) : Except ε α × σ := (ExceptT.run m).run s

def Exec.mk (f : σ → Except ε α × σ) : Exec ε σ α := ExceptT.mk f

@[simp] lemma exec_mk (f : σ → Except ε α × σ) (s : σ) : exec (Exec.mk f) s = f s := rfl

@[simp] lemma exec_pure (a : α) (s : σ) : exec (pure a : Exec ε σ α) s = (.ok a, s) := rfl

@[simp] lemma exec_throw (e : ε) (s : σ) : exec (throw e : Exec ε σ α) s = (.error e, s) := rfl

@[simp] lemma exec_get (s : σ) : exec (get : Exec ε σ σ) s = (.ok s, s) := rfl

@[simp] lemma exec_modify (f : σ → σ) (s : σ) :
    exec (modify f : Exec ε σ PUnit) s = (.ok ⟨⟩, f s) := rfl

@[simp] lemma exec_lift (x : Except ε α) (s : σ) :
    exec (liftM x : Exec ε σ α) s = (x, s) := by
  cases x <;> rfl

lemma exec_bind (x : Exec ε σ α) (f : α → Exec ε σ β) (s : σ) : exec (x >>= f) s = match exec x s with
      | (.ok a, s') => exec (f a) s'
      | (.error e, s') => (.error e, s') := by
  change (match exec x s with
    | (r, s') => (ExceptT.bindCont f r : StateM σ (Except ε β)) s') = _
  rcases exec x s with ⟨a | a, s'⟩ <;> rfl

@[simp] lemma exec_tryCatch (x : Exec ε σ α) (h : ε → Exec ε σ α) (s : σ) :
    exec (tryCatch x h) s = match exec x s with
      | (.ok a, s') => (.ok a, s')
      | (.error e, s') => exec (h e) s' := by
  unfold exec
  rw [ExceptT.run_tryCatch, StateT.run_bind]
  rcases (ExceptT.run x).run s with ⟨a | a, s'⟩ <;> rfl

@[simp] lemma exec_adapt (g : ε → ε') (x : Exec ε σ α) (s : σ) :
    exec (ExceptT.adapt g x : Exec ε' σ α) s = ((exec x s).1.mapError g, (exec x s).2) := rfl

lemma exec_eq_of_fst (h : (exec x s).1 = r) : exec x s = (r, (exec x s).2) :=
  Prod.ext h rfl

lemma exec_bind_of_ok {a : α} (h : exec x s = (.ok a, s')) : exec (x >>= f) s = exec (f a) s' := by
  rw [exec_bind, h]

lemma exec_bind_of_error {e : ε} (h : exec x s = (.error e, s')) : exec (x >>= f) s = (.error e, s') := by
  rw [exec_bind, h]

lemma exec_forM_cons (f : α → Exec ε σ PUnit) (a : α) (l : List α) (s : σ) :
    exec ((a :: l).forM f) s = exec (f a >>= fun _ => l.forM f) s := rfl

@[simp] lemma exec_pure_bind (a : α) (f : α → Exec ε σ β) (s : σ) :
    exec ((pure a : Exec ε σ α) >>= f) s = exec (f a) s := rfl

@[simp] lemma exec_get_bind (f : σ → Exec ε σ β) (s : σ) :
    exec ((get : Exec ε σ σ) >>= f) s = exec (f s) s := rfl

@[simp] lemma exec_modify_bind (g : σ → σ) (f : PUnit → Exec ε σ β) (s : σ) :
    exec ((modify g : Exec ε σ PUnit) >>= f) s = exec (f ⟨⟩) (g s) := rfl

@[simp] lemma exec_lift_ok_bind (a : α) (f : α → Exec ε σ β) (s : σ) :
    exec ((liftM (.ok a : Except ε α) : Exec ε σ α) >>= f) s = exec (f a) s := rfl

lemma exec_bind_ok {b : β} :
    exec (x >>= f) s = (.ok b, s') ↔ ∃ a s₁, exec x s = (.ok a, s₁) ∧ exec (f a) s₁ = (.ok b, s') := by
  rw [exec_bind]
  rcases exec x s with ⟨e | a, s₁⟩
  · simp
  · simp

lemma exec_bind_cases {r : Except ε β} (h : exec (x >>= f) s = (r, s')) :
    (∃ e, exec x s = (.error e, s') ∧ r = .error e) ∨ ∃ a s₁, exec x s = (.ok a, s₁) ∧ exec (f a) s₁ = (r, s') := by
  rcases hx : exec x s with ⟨e | a, s₁⟩
  · cases h.symm.trans (exec_bind_of_error hx)
    exact .inl ⟨e, rfl, rfl⟩
  · exact .inr ⟨a, s₁, rfl, exec_bind_of_ok hx ▸ h⟩

lemma exec_lift_bind_cases {x : Except ε α} {r : Except ε β} (h : exec ((liftM x : Exec ε σ α) >>= f) s = (r, s')) :
    (∃ e, x = .error e ∧ r = .error e ∧ s' = s) ∨ ∃ a, x = .ok a ∧ exec (f a) s = (r, s') := by
  cases x with
  | error e =>
    cases h
    exact .inl ⟨e, rfl, rfl, rfl⟩
  | ok a => exact .inr ⟨a, rfl, h⟩

lemma exec_lift_eq {x : Except ε α} : exec (liftM x : Exec ε σ α) s = (r, s') ↔ x = r ∧ s = s' := by
  rw [exec_lift, Prod.mk.injEq]

lemma exec_mapM_ok {bs : List β} (h : exec (l.mapM f) s = (.ok bs, s')) :
    List.Forall₂ (fun a b => ∃ s₁ s₂, exec (f a) s₁ = (.ok b, s₂)) l bs := by
  induction l generalizing bs s with
  | nil =>
    cases h
    exact .nil
  | cons a l ih =>
    rw [mapM_cons] at h
    obtain ⟨b, s₁, hfirst, h⟩ := exec_bind_ok.mp h
    obtain ⟨bs', s₂, hrest, h⟩ := exec_bind_ok.mp h
    cases h
    exact .cons ⟨s, s₁, hfirst⟩ (ih hrest)

/-- However the program ends, the state it leaves is `R`-related to the one it found. -/
def Keeps (R : σ → σ → Prop) (m : Exec ε σ α) : Prop := ∀ s, R s (exec m s).2

def Same (part : σ → β) (s s' : σ) : Prop := part s' = part s

instance (part : σ → β) : Std.Refl (Same part) := ⟨fun _ => rfl⟩

instance (part : σ → β) : IsTrans σ (Same part) := ⟨fun _ _ _ h h' => Eq.trans h' h⟩

lemma Same.apply {γ : Type} {part : σ → β} (h : Same part s s') (f : β → γ) : f (part s') = f (part s) :=
  congrArg f h

section Keeps

variable {R : σ → σ → Prop}

lemma Keeps.rel (h : Keeps R m) (hrun : exec m s = (r, s')) : R s s' := by
  have hs := h s
  rwa [hrun] at hs

lemma Keeps.imp {R' : σ → σ → Prop} (h : Keeps R m) (himp : ∀ s s', R s s' → R' s s') :
    Keeps R' m := fun s => himp _ _ (h s)

lemma keeps_modify {f : σ → σ} (h : ∀ s, R s (f s)) : Keeps R (modify f : Exec ε σ PUnit) := h

lemma keeps_adapt {g : ε → ε'} (h : Keeps R m) : Keeps R (ExceptT.adapt g m : Exec ε' σ α) := h

section Trans

variable [IsTrans σ R]

lemma keeps_bind (hx : Keeps R x) (hf : ∀ a, Keeps R (f a)) : Keeps R (x >>= f) := by
  intro s
  have hs := hx s
  rw [exec_bind]
  rcases hrun : exec x s with ⟨e | a, s₁⟩
  · rwa [hrun] at hs
  · rw [hrun] at hs
    exact IsTrans.trans _ _ _ hs (hf a s₁)

lemma keeps_tryCatch {h : ε → Exec ε σ α} (hx : Keeps R x) (hh : ∀ e, Keeps R (h e)) : Keeps R (tryCatch x h) := by
  intro s
  have hs := hx s
  rw [exec_tryCatch]
  rcases hrun : exec x s with ⟨e | a, s₁⟩
  · rw [hrun] at hs
    exact IsTrans.trans _ _ _ hs (hh e s₁)
  · rwa [hrun] at hs

end Trans

variable [Std.Refl R]

lemma keeps_pure (a : α) : Keeps R (pure a : Exec ε σ α) := fun s => Std.Refl.refl s

lemma keeps_throw (e : ε) : Keeps R (throw e : Exec ε σ α) := fun s => Std.Refl.refl s

lemma keeps_get : Keeps R (get : Exec ε σ σ) := fun s => Std.Refl.refl s

lemma keeps_lift (x : Except ε α) : Keeps R (liftM x : Exec ε σ α) := by
  intro s
  exact Std.Refl.refl s

variable [IsTrans σ R]

lemma keeps_get_bind {f : σ → Exec ε σ β} (hf : ∀ s, Keeps R (f s)) :
    Keeps R ((get : Exec ε σ σ) >>= f) := keeps_bind keeps_get hf

lemma keeps_lift_bind {x : Except ε α} (hf : ∀ a, Keeps R (f a)) :
    Keeps R ((liftM x : Exec ε σ α) >>= f) := keeps_bind (keeps_lift x) hf

lemma keeps_forM {f : α → Exec ε σ PUnit} (h : ∀ a ∈ l, Keeps R (f a)) : Keeps R (l.forM f) := by
  induction l with
  | nil => exact keeps_pure _
  | cons a l ih =>
    apply keeps_bind (h a mem_cons_self)
    intro _
    exact ih fun b hb => h b (mem_cons_of_mem a hb)

lemma keeps_foldlM {f : β → α → Exec ε σ β} (h : ∀ b, ∀ a ∈ l, Keeps R (f b a)) (b : β) : Keeps R (l.foldlM f b) := by
  induction l generalizing b with
  | nil => exact keeps_pure _
  | cons a l ih =>
    apply keeps_bind (h b a mem_cons_self)
    intro b'
    exact ih (fun c x hx => h c x (mem_cons_of_mem a hx)) b'

lemma keeps_mapM (h : ∀ a ∈ l, Keeps R (f a)) : Keeps R (l.mapM f) := by
  induction l with
  | nil => exact keeps_pure _
  | cons a l ih =>
    rw [mapM_cons]
    apply keeps_bind (h a mem_cons_self)
    intro b
    apply keeps_bind (ih fun x hx => h x (mem_cons_of_mem a hx))
    intro bs
    exact keeps_pure _

end Keeps

/-- Started with `P` and returning, the program ends with `P`. -/
def Preserves (P : σ → Prop) (m : Exec ε σ α) : Prop := ∀ s a s', P s → exec m s = (.ok a, s') → P s'

section Preserves

variable {P : σ → Prop}

lemma preserves_pure (a : α) : Preserves P (pure a : Exec ε σ α) := by
  intro s _ s' hs h
  cases h
  exact hs

lemma preserves_throw (e : ε) : Preserves P (throw e : Exec ε σ α) := fun _ _ _ _ h => (by cases h)

lemma preserves_lift (x : Except ε α) : Preserves P (liftM x : Exec ε σ α) := by
  intro s _ s' hs h
  cases h
  exact hs

lemma preserves_bind (hx : Preserves P x) (hf : ∀ a, Preserves P (f a)) : Preserves P (x >>= f) := by
  intro s b s' hs h
  obtain ⟨a, s₁, hrun, hrest⟩ := exec_bind_ok.mp h
  exact hf a s₁ b s' (hx s a s₁ hs hrun) hrest

lemma preserves_forM {f : α → Exec ε σ PUnit} (h : ∀ a, Preserves P (f a)) : Preserves P (l.forM f) := by
  induction l with
  | nil => exact preserves_pure _
  | cons a l ih => exact preserves_bind (h a) fun _ => ih

lemma preserves_foldlM {f : β → α → Exec ε σ β} (h : ∀ b a, Preserves P (f b a)) (b : β) :
    Preserves P (l.foldlM f b) := by
  induction l generalizing b with
  | nil => exact preserves_pure _
  | cons a l ih =>
    exact preserves_bind (h b a) ih

end Preserves

end SectorChain.Lib
