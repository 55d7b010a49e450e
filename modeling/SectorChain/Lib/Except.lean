import Mathlib.Data.List.Forall2

/-!
# Computations that may raise

How a composed program came to return.
-/

namespace SectorChain.Lib

open List

variable {ε α β : Type}
variable {l : List α} {l' : List β}

@[simp] lemma except_pure (a : α) : (pure a : Except ε α) = .ok a := rfl

@[simp] lemma except_throw (e : ε) : (throw e : Except ε α) = .error e := rfl

@[simp] lemma ok_bind (a : α) (f : α → Except ε β) : ((.ok a : Except ε α) >>= f) = f a := rfl

@[simp] lemma error_bind (e : ε) (f : α → Except ε β) :
    ((.error e : Except ε α) >>= f) = .error e := rfl

lemma bind_eq_ok {x : Except ε α} {f : α → Except ε β} {b : β} :
    (x >>= f) = .ok b ↔ ∃ a, x = .ok a ∧ f a = .ok b := by
  cases x with
  | error e => simp
  | ok a => simp

lemma map_eq_ok {x : Except ε α} {f : α → β} {b : β} : f <$> x = .ok b ↔ ∃ a, x = .ok a ∧ f a = b := by
  cases x with
  | error e => simp [Functor.map, Except.map]
  | ok a => simp [Functor.map, Except.map]

lemma mapError_eq_ok {ε' : Type} {x : Except ε α} {g : ε → ε'} {a : α} : x.mapError g = .ok a ↔ x = .ok a := by
  cases x with
  | error e => simp [Except.mapError]
  | ok b => simp [Except.mapError]

lemma mapM_eq_ok {f : α → Except ε β} : l.mapM f = .ok l' ↔ List.Forall₂ (fun a b => f a = .ok b) l l' := by
  induction l generalizing l' with
  | nil =>
    rw [forall₂_nil_left_iff]
    constructor
    · intro h
      cases h
      rfl
    · rintro rfl
      rfl
  | cons a l ih =>
    rw [mapM_cons, bind_eq_ok, forall₂_cons_left_iff]
    constructor
    · rintro ⟨b, hb, h⟩
      obtain ⟨bs, hbs, h⟩ := bind_eq_ok.mp h
      cases h
      exact ⟨b, bs, hb, ih.mp hbs, rfl⟩
    · rintro ⟨b, bs, hb, hbs, rfl⟩
      exact ⟨b, hb, bind_eq_ok.mpr ⟨bs, ih.mpr hbs, rfl⟩⟩

lemma exists_of_mem_right {R : α → β → Prop} (h : List.Forall₂ R l l') {b : β} (hb : b ∈ l') : ∃ a ∈ l, R a b := by
  induction h with
  | nil => cases hb
  | cons hhead _ ih =>
    rcases mem_cons.mp hb with rfl | hb
    · exact ⟨_, mem_cons_self, hhead⟩
    · obtain ⟨a, ha, hab⟩ := ih hb
      exact ⟨a, mem_cons_of_mem _ ha, hab⟩

lemma exists_of_mem_left {R : α → β → Prop} (h : List.Forall₂ R l l') {a : α} (ha : a ∈ l) : ∃ b ∈ l', R a b :=
  exists_of_mem_right h.flip ha

lemma exists_of_mem_mapM {f : α → Except ε β} (h : l.mapM f = .ok l') {b : β} (hb : b ∈ l') : ∃ a ∈ l, f a = .ok b :=
  exists_of_mem_right (mapM_eq_ok.mp h) hb

lemma flatten_mapM_subset {f : α → Except ε (List β)} {l' : List α} {r r' : List β} (hsub : l ⊆ l')
    (h : List.flatten <$> l.mapM f = .ok r) (h' : List.flatten <$> l'.mapM f = .ok r') : r ⊆ r' := by
  obtain ⟨lists, hlists, rfl⟩ := map_eq_ok.mp h
  obtain ⟨lists', hlists', rfl⟩ := map_eq_ok.mp h'
  intro b hb
  obtain ⟨bs, hbs, hb⟩ := mem_flatten.mp hb
  obtain ⟨a, ha, hround⟩ := exists_of_mem_mapM hlists hbs
  obtain ⟨bs', hbs', hround'⟩ := exists_of_mem_left (mapM_eq_ok.mp hlists') (hsub ha)
  obtain rfl : bs = bs' := Except.ok.inj (hround.symm.trans hround')
  exact mem_flatten.mpr ⟨bs, hbs', hb⟩

lemma forM_ok {f : α → Except ε PUnit} (h : ∀ a ∈ l, f a = .ok ⟨⟩) : l.forM f = .ok ⟨⟩ := by
  induction l with
  | nil => rfl
  | cons a l ih =>
    have hhead : (a :: l).forM f = f a >>= fun _ => l.forM f := rfl
    rw [hhead, h a mem_cons_self]
    exact ih fun a' ha' => h a' (mem_cons_of_mem a ha')

lemma flatten_mapM_flatMap {ι : Type} {f : α → Except ε (List β)} {part : ι → List α} {result : ι → List β}
    {parts : List ι} (h : ∀ i ∈ parts, List.flatten <$> (part i).mapM f = .ok (result i)) :
    List.flatten <$> (parts.flatMap part).mapM f = .ok (parts.flatMap result) := by
  induction parts with
  | nil => rfl
  | cons i parts ih =>
    obtain ⟨lists, hlists, hfirst⟩ := map_eq_ok.mp (h i mem_cons_self)
    obtain ⟨rest, hrest, hothers⟩ := map_eq_ok.mp (ih fun j hj => h j (mem_cons_of_mem i hj))
    rw [flatMap_cons, mapM_append, hlists, hrest, flatMap_cons, ← hfirst, ← hothers, ← flatten_append]
    rfl

section

variable {ε α β : Type} {f : β → α → Except ε β} {init b b' : β} {pre pre' : List α} {a a' : α} {e e' : ε}

lemma foldlM_of_stop (post : List α) (hfold : pre.foldlM f init = .ok b) (hstop : f b a = .error e) :
    (pre ++ a :: post).foldlM f init = .error e := by
  rw [foldlM_append, hfold]
  change (a :: post).foldlM f b = .error e
  rw [foldlM_cons, hstop]
  rfl

lemma foldlM_stop_unique {post post' : List α} (hfold : pre.foldlM f init = .ok b) (hstop : f b a = .error e)
    (hfold' : pre'.foldlM f init = .ok b') (hstop' : f b' a' = .error e')
    (hsplit : pre ++ a :: post = pre' ++ a' :: post') : pre = pre' ∧ a = a' ∧ e = e' := by
  have hprefix : pre = pre' := by
    rcases append_eq_append_iff.mp hsplit with ⟨l, hpre, hrest⟩ | ⟨l, hpre, hrest⟩
    · cases l with
      | nil => rw [hpre, append_nil]
      | cons c l =>
        obtain ⟨rfl, -⟩ := List.cons.inj hrest
        rw [hpre, foldlM_of_stop l hfold hstop] at hfold'
        cases hfold'
    cases l with
    | nil => rw [hpre, append_nil]
    | cons c l =>
      obtain ⟨rfl, -⟩ := List.cons.inj hrest
      rw [hpre, foldlM_of_stop l hfold' hstop'] at hfold
      cases hfold
  subst hprefix
  obtain ⟨rfl, -⟩ := List.cons.inj (append_cancel_left hsplit)
  obtain rfl := Except.ok.inj (hfold.symm.trans hfold')
  exact ⟨rfl, rfl, Except.error.inj (hstop.symm.trans hstop')⟩

end

/-- Both computations raise the same, or they return related values. -/
inductive Agree {ε α β : Type} (R : α → β → Prop) : Except ε α → Except ε β → Prop where
  | ok {a : α} {b : β} (h : R a b) : Agree R (.ok a) (.ok b)
  | error (e : ε) : Agree R (.error e) (.error e)

lemma Agree.bind {ε α β γ δ : Type} {R : α → β → Prop} {S : γ → δ → Prop} {x : Except ε α} {y : Except ε β}
    {f : α → Except ε γ} {g : β → Except ε δ} (h : Agree R x y)
    (hfg : ∀ a b, R a b → Agree S (f a) (g b)) : Agree S (x >>= f) (y >>= g) := by
  cases h with
  | ok hab => exact hfg _ _ hab
  | error e => exact .error e

lemma agree_self {ε α : Type} (x : Except ε α) : Agree (· = ·) x x := by
  cases x with
  | ok a => exact .ok rfl
  | error e => exact .error e

/-- A value with a property, or the given exception, which is not raised under the condition. -/
inductive ReturnsOr {ε α : Type} (c : Prop) (e : ε) (P : α → Prop) : Except ε α → Prop where
  | ok {a : α} (h : P a) : ReturnsOr c e P (.ok a)
  | error (h : ¬c) : ReturnsOr c e P (.error e)

lemma ReturnsOr.bind {ε α β : Type} {c : Prop} {e : ε} {P : α → Prop} {Q : β → Prop} {x : Except ε α} {f : α → Except ε β}
    (h : ReturnsOr c e P x) (hf : ∀ a, P a → ReturnsOr c e Q (f a)) : ReturnsOr c e Q (x >>= f) := by
  cases h with
  | ok ha => exact hf _ ha
  | error hc => exact .error hc

lemma ReturnsOr.imp {ε α : Type} {c : Prop} {e : ε} {P Q : α → Prop} {x : Except ε α} (h : ReturnsOr c e P x)
    (himp : ∀ a, P a → Q a) : ReturnsOr c e Q x := by
  cases h with
  | ok ha => exact .ok (himp _ ha)
  | error hc => exact .error hc

end SectorChain.Lib
