import SectorChain.Wallet.Puzzles.Evaluation

/-!
# Rules of evaluation

A deeper evaluation does not change a value that was found.
-/

namespace SectorChain.Clvm

open Lib Option

variable {args program v : SExp} {vs : List SExp}

lemma evalList_mono {f g : SExp → Option SExp} (h : ∀ p v, f p = some v → g p = some v) {programs : SExp}
    (hvs : evalList f programs = some vs) : evalList g programs = some vs := by
  induction programs generalizing vs with
  | atom bs => exact hvs
  | pair program programs _ ih =>
    obtain ⟨v, hv, hrest⟩ := bind_eq_some_iff.mp hvs
    obtain ⟨vs', hvs', hcons⟩ := bind_eq_some_iff.mp hrest
    exact bind_eq_some_iff.mpr ⟨v, h _ _ hv, bind_eq_some_iff.mpr ⟨vs', ih hvs', hcons⟩⟩

lemma eval_mono {depth depth' : ℕ} (hle : depth ≤ depth') {env : SExp} (h : eval depth program env = some v) :
    eval depth' program env = some v := by
  induction depth generalizing depth' program env v with
  | zero => cases h
  | succ depth ih =>
    obtain ⟨depth', rfl⟩ : ∃ d, depth' = d + 1 := ⟨depth' - 1, by omega⟩
    have hle : depth ≤ depth' := by omega
    match program with
    | .atom path => exact h
    | .pair (.pair _ _) _ => cases h
    | .pair (.atom op) args =>
      rw [eval] at h ⊢
      split at h
      · rename_i hquote
        rw [if_pos hquote]
        exact h
      rename_i hquote
      rw [if_neg hquote]
      obtain ⟨vs, hvs, h⟩ := bind_eq_some_iff.mp h
      refine bind_eq_some_iff.mpr ⟨vs, evalList_mono (fun p v hp => ih hle hp) hvs, ?_⟩
      split at h
      · rename_i happly
        rw [if_pos happly]
        split at h
        · split at h
          · rename_i hmod
            rw [if_pos hmod]
            exact h
          · rename_i hmod
            rw [if_neg hmod]
            exact ih hle h
        · cases h
      · rename_i happly
        rw [if_neg happly]
        exact h

def Evaluates (program env v : SExp) : Prop := ∃ depth, eval depth program env = some v

variable {env : SExp}

def EvaluatesList (programs env : SExp) (vs : List SExp) : Prop :=
  ∃ depth, evalList (fun program => eval depth program env) programs = some vs

lemma evaluates_path {path : Bytes} (h : traversePath (beNat path) env = some v) :
    Evaluates (.atom path) env v := ⟨1, h⟩

lemma evaluates_quote : Evaluates (.pair (.atom [1]) v) env v := ⟨1, rfl⟩

lemma evaluatesList_nil : EvaluatesList (.atom []) env [] := ⟨0, rfl⟩

lemma evaluatesList_cons {programs : SExp} (h : Evaluates program env v)
    (hrest : EvaluatesList programs env vs) : EvaluatesList (.pair program programs) env (v :: vs) := by
  obtain ⟨depth, h⟩ := h
  obtain ⟨depth', hrest⟩ := hrest
  refine ⟨max depth depth', ?_⟩
  have hvs := evalList_mono (fun p v hp => eval_mono (Nat.le_max_right depth depth') hp) hrest
  exact bind_eq_some_iff.mpr ⟨v, eval_mono (Nat.le_max_left _ _) h, bind_eq_some_iff.mpr ⟨vs, hvs, rfl⟩⟩

lemma evaluates_operator {op : Bytes} (hop : op ≠ [1] ∧ op ≠ [2])
    (hargs : EvaluatesList args env vs) (h : applyOperator op vs = some v) : Evaluates (.pair (.atom op) args) env v := by
  obtain ⟨depth, hargs⟩ := hargs
  refine ⟨depth + 1, ?_⟩
  rw [eval, if_neg hop.1]
  refine bind_eq_some_iff.mpr ⟨vs, hargs, ?_⟩
  rw [if_neg hop.2]
  exact h

lemma evaluates_apply {env' : SExp} (hargs : EvaluatesList args env [program, env'])
    (hmod : program ≠ LOCAL_DESERIALIZE_MOD) (h : Evaluates program env' v) :
    Evaluates (.pair (.atom [2]) args) env v := by
  obtain ⟨depth, hargs⟩ := hargs
  obtain ⟨depth', h⟩ := h
  refine ⟨max depth depth' + 1, ?_⟩
  refine bind_eq_some_iff.mpr
    ⟨_, evalList_mono (fun p v hp => eval_mono (Nat.le_max_left depth depth') hp) hargs, ?_⟩
  dsimp only
  rw [if_neg hmod]
  exact eval_mono (Nat.le_max_right _ _) h

lemma evaluates_deserialize {bs : Bytes} {rest : SExp}
    (hargs : EvaluatesList args env [LOCAL_DESERIALIZE_MOD, .pair (.atom bs) rest]) (h : SExp.fromBytes bs = some v) :
    Evaluates (.pair (.atom [2]) args) env v := by
  obtain ⟨depth, hargs⟩ := hargs
  refine ⟨depth + 1, ?_⟩
  refine bind_eq_some_iff.mpr ⟨_, hargs, ?_⟩
  rw [if_pos rfl]
  dsimp only
  rw [if_pos rfl]
  exact h

/-- `(c a b)`. -/
lemma evaluates_c {a b w : SExp} (ha : Evaluates a env v) (hb : Evaluates b env w) :
    Evaluates (.ofList [.atom [4], a, b]) env (.pair v w) :=
  evaluates_operator (by decide) (evaluatesList_cons ha (evaluatesList_cons hb evaluatesList_nil)) rfl

/-- `(a program env)`. -/
lemma evaluates_a {p e env' : SExp} (hp : Evaluates p env program) (he : Evaluates e env env')
    (hmod : program ≠ LOCAL_DESERIALIZE_MOD) (h : Evaluates program env' v) :
    Evaluates (.ofList [.atom [2], p, e]) env v :=
  evaluates_apply (evaluatesList_cons hp (evaluatesList_cons he evaluatesList_nil)) hmod h

/-- `(a (i condition a b) 1)`, which the compiler makes of `if`. -/
lemma evaluates_if {c a b condition p q : SExp} (hc : Evaluates c env condition) (ha : Evaluates a env p)
    (hb : Evaluates b env q) (hmod : (if truthy condition then p else q) ≠ LOCAL_DESERIALIZE_MOD)
    (h : Evaluates (if truthy condition then p else q) env v) :
    Evaluates (.ofList [.atom [2], .ofList [.atom [3], c, a, b], .atom [1]]) env v := by
  have hchoice : Evaluates (.ofList [.atom [3], c, a, b]) env (if truthy condition then p else q) :=
    evaluates_operator (by decide) (evaluatesList_cons hc (evaluatesList_cons ha (evaluatesList_cons hb
      evaluatesList_nil))) rfl
  exact evaluates_a hchoice (evaluates_path rfl) hmod h

lemma evaluates_nil : Evaluates (.atom []) env (.atom []) := ⟨1, rfl⟩

/-- `(c a (c b ... ()))`, which the compiler makes of `list`. -/
def listProgram (programs : List SExp) : SExp :=
  programs.foldr (fun program rest => .ofList [.atom [4], program, rest]) (.atom [])

lemma evaluates_listProgram {programs : List SExp} (h : List.Forall₂ (Evaluates · env) programs vs) :
    Evaluates (listProgram programs) env (.ofList vs) := by
  induction h with
  | nil => exact evaluates_nil
  | cons hv _ ih => exact evaluates_c hv ih

lemma evaluates_curry {args : List SExp} (hmod : program ≠ LOCAL_DESERIALIZE_MOD)
    (h : Evaluates program (args.foldr .pair env) v) : Evaluates (curry program args) env v := by
  have hargs : Evaluates (curriedArgs args) env (args.foldr .pair env) := by
    clear h
    induction args with
    | nil => exact evaluates_path rfl
    | cons arg args ih => exact evaluates_c evaluates_quote ih
  exact evaluates_a evaluates_quote hargs hmod h

end SectorChain.Clvm
