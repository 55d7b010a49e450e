import SectorChain.Proofs.ConditionCosts

/-!
# Conditions with unknown opcodes

`UNKNOWN` itself counts as a known opcode without a parser.
-/

namespace SectorChain.Proofs

open Lib List

variable {codes : Set SExp} {npc : NPC}
variable {code conditions conditions' spends spends' : SExp} {l : List ConditionWithArgs} {npc' : NPC} {α : Type}

/-- The opcode is not one of the assigned condition codes. -/
def Unassigned (code : SExp) : Prop := ∀ op : ConditionOpcode, op ≠ .UNKNOWN → code ≠ .atom op.value

/-- Conditions with opcodes from `codes` are inserted into a list of conditions. -/
inductive InsertsConditions (codes : Set SExp) : SExp → SExp → Prop where
  | same (conditions : SExp) : InsertsConditions codes conditions conditions
  | keep (cond : SExp) {rest rest' : SExp} :
      InsertsConditions codes rest rest' → InsertsConditions codes (.pair cond rest) (.pair cond rest')
  | insert (code args : SExp) {rest rest' : SExp} : code ∈ codes →
      InsertsConditions codes rest rest' → InsertsConditions codes rest (.pair (.pair code args) rest')

/-- Conditions are inserted into the spends of a list. -/
inductive InsertsSpends (codes : Set SExp) : SExp → SExp → Prop where
  | same (spends : SExp) : InsertsSpends codes spends spends
  | keep (res : SExp) {spends spends' : SExp} :
      InsertsSpends codes spends spends' → InsertsSpends codes (.pair res spends) (.pair res spends')
  | spend (parent puzzleHash amount rest : SExp) {conditions conditions' spends spends' : SExp} :
      InsertsConditions codes conditions conditions' → InsertsSpends codes spends spends' →
      InsertsSpends codes
        (.pair (.pair parent (.pair puzzleHash (.pair amount (.pair conditions rest)))) spends)
        (.pair (.pair parent (.pair puzzleHash (.pair amount (.pair conditions' rest)))) spends')

def withOutput (env : Env) (clvmCost : ℕ) (result : SExp) : Env :=
  { env with runGenerator := fun _ _ _ _ => some (clvmCost, result) }

def recognised (npc : NPC) : List (ConditionOpcode × List ConditionWithArgs) :=
  npc.conditions.filter fun e => e.1 ≠ .UNKNOWN

/-- Success, costs, coins and recognised conditions are the same. -/
structure SameOutcome (env : Env) (program : Bytes) (before after : NPCResult) : Prop where
  success : before.error = none ↔ after.error = none
  clvmCost : before.clvmCost = after.clvmCost
  cost : calculateCostOfProgram env program before = calculateCostOfProgram env program after
  coins : before.npcList.map (fun npc => (npc.coinName, npc.puzzleHash)) =
    after.npcList.map fun npc => (npc.coinName, npc.puzzleHash)
  conditions : before.npcList.map recognised = after.npcList.map recognised

def isRecognised (cvp : ConditionWithArgs) : Bool := cvp.opcode ≠ .UNKNOWN

def SameConditions (acc acc' : ℕ × List ConditionWithArgs) : Prop :=
  acc.1 = acc'.1 ∧ acc.2.filter isRecognised = acc'.2.filter isRecognised

lemma conditionOpcode_of_unassigned (h : Unassigned code)
    (hne : code ≠ .atom ConditionOpcode.UNKNOWN.value) : conditionOpcode code = none := by
  cases hop : conditionOpcode code with
  | none => rfl
  | some op =>
    have hcode := conditionOpcode_eq_some.mp hop
    by_cases hunknown : op = .UNKNOWN
    · exact absurd (hunknown ▸ hcode) hne
    · exact absurd hcode (h op hunknown)

lemma parseSpendCondition_unknown {args : SExp} (h : conditionOpcode code = none) (acc : ℕ × List ConditionWithArgs) :
    parseSpendCondition false acc (.pair code args) = .ok (acc.1, acc.2 ++ [⟨.UNKNOWN, args.asAtomList⟩]) := by
  have hcond : parseCondition (.pair code args) false = .ok (0, some ⟨.UNKNOWN, args.asAtomList⟩) := by
    unfold parseCondition
    rw [show (SExp.pair code args).first = .ok code from rfl, ok_bind, h]
    rfl
  unfold parseSpendCondition
  rw [hcond]
  rfl

lemma agree_parseSpendCondition {acc acc' : ℕ × List ConditionWithArgs} (h : SameConditions acc acc') (cond : SExp) :
    Agree SameConditions (parseSpendCondition false acc cond) (parseSpendCondition false acc' cond) := by
  refine (agree_self _).bind ?_
  rintro ⟨cost, cvl⟩ _ rfl
  rw [h.1]
  refine (agree_self _).bind ?_
  rintro left _ rfl
  refine .ok ⟨rfl, ?_⟩
  rw [filter_append, filter_append, h.2]

lemma agree_foldIter_self {err : Err} {R : α → α → Prop} {f : α → SExp → Except Err α}
    (hf : ∀ a b x, R a b → Agree R (f a x) (f b x)) {a b : α} (hab : R a b) (list : SExp) :
    Agree R (list.foldIter err f a) (list.foldIter err f b) := by
  induction list generalizing a b with
  | atom bs =>
    unfold SExp.foldIter
    split
    · exact .ok hab
    · exact .error err
  | pair x rest _ ih =>
    exact (hf a b x hab).bind fun _ _ hnext => ih hnext

lemma agree_conditions (hcodes : ∀ code ∈ codes, conditionOpcode code = none)
    (h : InsertsConditions codes conditions conditions') {acc acc' : ℕ × List ConditionWithArgs}
    (hacc : SameConditions acc acc') :
    Agree SameConditions (conditions.foldIter .GENERATOR_RUNTIME_ERROR (parseSpendCondition false) acc)
      (conditions'.foldIter .GENERATOR_RUNTIME_ERROR (parseSpendCondition false) acc') := by
  induction h generalizing acc acc' with
  | same conditions => exact agree_foldIter_self (fun _ _ x hab => agree_parseSpendCondition hab x) hacc conditions
  | keep cond _ ih => exact (agree_parseSpendCondition hacc cond).bind fun _ _ hnext => ih hnext
  | insert code args hcode _ ih =>
    -- the inserted condition leaves the cost and the conditions with a meaning alone
    rename_i rest rest' _
    have hround : SExp.foldIter .GENERATOR_RUNTIME_ERROR (parseSpendCondition false) (.pair (.pair code args) rest') acc' =
        rest'.foldIter .GENERATOR_RUNTIME_ERROR (parseSpendCondition false)
          (acc'.1, acc'.2 ++ [⟨.UNKNOWN, args.asAtomList⟩]) := by
      rw [SExp.foldIter, parseSpendCondition_unknown (hcodes code hcode)]
      rfl
    rw [hround]
    refine ih ⟨hacc.1, ?_⟩
    rw [hacc.2]
    simp [isRecognised]

/-- The same coin, with the same recognised conditions. -/
structure SameSpend (npc npc' : NPC) : Prop where
  coinName : npc.coinName = npc'.coinName
  puzzleHash : npc.puzzleHash = npc'.puzzleHash
  conditions : ∃ l l' : List ConditionWithArgs, npc.conditions = (conditionsByOpcode l).entries ∧
    npc'.conditions = (conditionsByOpcode l').entries ∧ l.filter isRecognised = l'.filter isRecognised

lemma recognised_eq (h : npc.conditions = (conditionsByOpcode l).entries) :
    recognised npc = (conditionsByOpcode (l.filter isRecognised)).entries := by
  rw [recognised, h, conditionsByOpcode_eq, conditionsByOpcode_eq]
  exact congrArg Dict.entries (Dict.filter_groupBy (fun op => decide (op ≠ .UNKNOWN)) ConditionWithArgs.opcode l)

lemma npcCost_eq (h : npc.conditions = (conditionsByOpcode l).entries) :
    npcCost npc = ((l.filter isRecognised).map fun cvp => conditionCost cvp.opcode).sum := by
  rw [npcCost, entries_conditionDict h, conditionsByOpcode_eq, Dict.sum_groupBy]
  clear h
  induction l with
  | nil => rfl
  | cons cvp l ih =>
    rw [map_cons, sum_cons, ih, filter_cons]
    split
    · rw [map_cons, sum_cons]
    · rename_i hunknown
      have hop : cvp.opcode = .UNKNOWN := by simpa [isRecognised] using hunknown
      rw [hop]
      exact Nat.zero_add _

lemma SameSpend.recognised_eq (h : SameSpend npc npc') : recognised npc = recognised npc' := by
  obtain ⟨l, l', hl, hl', hsame⟩ := h.conditions
  rw [Proofs.recognised_eq hl, Proofs.recognised_eq hl', hsame]

lemma SameSpend.npcCost_eq (h : SameSpend npc npc') : npcCost npc = npcCost npc' := by
  obtain ⟨l, l', hl, hl', hsame⟩ := h.conditions
  rw [Proofs.npcCost_eq hl, Proofs.npcCost_eq hl', hsame]

def SameSpends (acc acc' : ℕ × List NPC) : Prop := acc.1 = acc'.1 ∧ List.Forall₂ SameSpend acc.2 acc'.2

lemma parseSpentCoin_pair (parent puzzleHash amount rest : SExp) :
    parseSpentCoin false (.pair parent (.pair puzzleHash (.pair amount rest))) =
      (parseSpentCoin false (.pair parent (.pair puzzleHash (.pair amount (.atom []))))).map
        fun r => (r.1, rest) := by
  change (parseBytes32 parent >>= _) = Except.map _ (parseBytes32 parent >>= _)
  cases parseBytes32 parent with
  | error e => rfl
  | ok parentId =>
    change (parseBytes32 puzzleHash >>= _) = Except.map _ (parseBytes32 puzzleHash >>= _)
    cases parseBytes32 puzzleHash with
    | error e => rfl
    | ok hash =>
      change (sanitizeInt amount false >>= _) = Except.map _ (sanitizeInt amount false >>= _)
      cases sanitizeInt amount false with
      | error e => rfl
      | ok z =>
        simp only [ok_bind]
        cases uint64 z <;> rfl

def lenientResult (env : Env) (generator : BlockGenerator) (maxCost clvmCost : ℕ) (result : SExp) : NPCResult :=
  getNamePuzzleConditions (withOutput env clvmCost result) generator maxCost false

/-- Insertions of conditions with opcodes from `codes` do not matter. -/
def Tolerates (codes : Set SExp) : Prop :=
  ∀ (env : Env) (generator : BlockGenerator) (maxCost clvmCost : ℕ) (spends spends' rest : SExp),
    InsertsSpends codes spends spends' →
    SameOutcome env generator.program (lenientResult env generator maxCost clvmCost (.pair spends rest))
      (lenientResult env generator maxCost clvmCost (.pair spends' rest))

def SameRun (r r' : List NPC × ℕ) : Prop := List.Forall₂ SameSpend r.1 r'.1 ∧ r.2 = r'.2

section Spends

variable {env : Env} {acc acc' : ℕ × List NPC}

lemma agree_parseSpend (h : SameSpends acc acc') (res : SExp) :
    Agree SameSpends (parseSpend env false acc res) (parseSpend env false acc' res) := by
  refine (agree_self _).bind ?_
  rintro ⟨coin, rest⟩ _ rfl
  refine (agree_self _).bind ?_
  rintro conditions _ rfl
  refine (agree_foldIter_self (fun _ _ x hab => agree_parseSpendCondition hab x)
    (⟨h.1, rfl⟩ : SameConditions (acc.1, []) (acc'.1, [])) conditions).bind ?_
  rintro ⟨left, l⟩ ⟨left', l'⟩ ⟨hleft, hl⟩
  refine .ok ⟨hleft, rel_append h.2 ?_⟩
  exact .cons ⟨rfl, rfl, l, l', rfl, rfl, hl⟩ .nil

variable (hcodes : ∀ code ∈ codes, conditionOpcode code = none)
include hcodes

lemma agree_spend (h : SameSpends acc acc')
    (hinserts : InsertsConditions codes conditions conditions') (parent puzzleHash amount rest : SExp) :
    Agree SameSpends
      (parseSpend env false acc (.pair parent (.pair puzzleHash (.pair amount (.pair conditions rest)))))
      (parseSpend env false acc' (.pair parent (.pair puzzleHash (.pair amount (.pair conditions' rest))))) := by
  unfold parseSpend
  rw [parseSpentCoin_pair parent puzzleHash amount (.pair conditions rest),
    parseSpentCoin_pair parent puzzleHash amount (.pair conditions' rest)]
  cases parseSpentCoin false (.pair parent (.pair puzzleHash (.pair amount (.atom [])))) with
  | error e => exact .error e
  | ok r =>
    refine (agree_conditions hcodes hinserts (⟨h.1, rfl⟩ : SameConditions (acc.1, []) (acc'.1, []))).bind ?_
    rintro ⟨left, l⟩ ⟨left', l'⟩ ⟨hleft, hl⟩
    refine .ok ⟨hleft, rel_append h.2 ?_⟩
    exact .cons ⟨rfl, rfl, l, l', rfl, rfl, hl⟩ .nil

lemma agree_spends (hinserts : InsertsSpends codes spends spends') (h : SameSpends acc acc') :
    Agree SameSpends (spends.foldIter .GENERATOR_RUNTIME_ERROR (parseSpend env false) acc)
      (spends'.foldIter .GENERATOR_RUNTIME_ERROR (parseSpend env false) acc') := by
  induction hinserts generalizing acc acc' with
  | same spends => exact agree_foldIter_self (fun _ _ x hab => agree_parseSpend hab x) h spends
  | keep res _ ih => exact (agree_parseSpend h res).bind fun _ _ hnext => ih hnext
  | spend parent puzzleHash amount rest hconditions _ ih =>
    exact (agree_spend hcodes h hconditions parent puzzleHash amount rest).bind fun _ _ hnext => ih hnext

lemma agree_runBlockGenerator (hinserts : InsertsSpends codes spends spends') (env : Env) (gen : BlockGenerator)
    (maxCost clvmCost : ℕ) (rest : SExp) :
    Agree SameRun (runBlockGenerator (withOutput env clvmCost (.pair spends rest)) gen maxCost false)
      (runBlockGenerator (withOutput env clvmCost (.pair spends' rest)) gen maxCost false) := by
  refine (agree_self (chargeCost maxCost (gen.program.length * env.constants.costPerByte))).bind ?_
  rintro left _ rfl
  refine (agree_self (chargeCost left clvmCost)).bind ?_
  rintro left _ rfl
  refine (agree_spends hcodes hinserts (⟨rfl, .nil⟩ : SameSpends (left, []) (left, []))).bind ?_
  rintro ⟨_, npcList⟩ ⟨_, npcList'⟩ ⟨-, hsame⟩
  exact .ok ⟨hsame, rfl⟩

end Spends

lemma map_eq_of_forall₂ {β : Type} {R : α → α → Prop} {f : α → β} (hf : ∀ {a b}, R a b → f a = f b)
    {l l' : List α} (h : List.Forall₂ R l l') : l.map f = l'.map f := by
  induction h with
  | nil => rfl
  | cons hab _ ih => rw [map_cons, map_cons, hf hab, ih]

lemma sameOutcome_of_agree {env env₁ env₂ : Env} {gen : BlockGenerator} {maxCost : ℕ} (h : Agree SameRun
      (runBlockGenerator env₁ gen maxCost false) (runBlockGenerator env₂ gen maxCost false)) :
    SameOutcome env gen.program (getNamePuzzleConditions env₁ gen maxCost false)
      (getNamePuzzleConditions env₂ gen maxCost false) := by
  unfold getNamePuzzleConditions
  generalize hx : runBlockGenerator env₁ gen maxCost false = x at h
  generalize hy : runBlockGenerator env₂ gen maxCost false = y at h
  cases h with
  | error e => exact ⟨Iff.rfl, rfl, rfl, rfl, rfl⟩
  | ok hrun =>
    rename_i r r'
    obtain ⟨npcList, clvmCost⟩ := r
    obtain ⟨npcList', clvmCost'⟩ := r'
    obtain ⟨hspends, rfl⟩ := hrun
    refine ⟨Iff.rfl, rfl, ?_, ?_, ?_⟩
    · change clvmCost + (npcList.map npcCost).sum + _ = clvmCost + (npcList'.map npcCost).sum + _
      rw [map_eq_of_forall₂ (fun h => SameSpend.npcCost_eq h) hspends]
    · exact map_eq_of_forall₂ (fun h => by rw [h.coinName, h.puzzleHash]) hspends
    · exact map_eq_of_forall₂ (fun h => SameSpend.recognised_eq h) hspends

def plainSpend (conditions : SExp) : SExp :=
  .ofList [.atom (beBytes 32 1), .atom (beBytes 32 2), .atom [1], conditions]

/-- A condition without arguments whose opcode is the value of `UNKNOWN`. -/
def placeholderCondition : SExp := .pair (.atom ConditionOpcode.UNKNOWN.value) (.atom [])

def plainResult (conditions : SExp) : NPCResult :=
  lenientResult (sampleEnv fun _ _ => none) ⟨[], []⟩ 0 0 (.pair (.pair (plainSpend conditions) (.atom [])) (.atom []))

lemma inserts_placeholder (h : .atom ConditionOpcode.UNKNOWN.value ∈ codes) :
    InsertsSpends codes (.pair (plainSpend (.atom [])) (.atom []))
      (.pair (plainSpend (.pair placeholderCondition (.atom []))) (.atom [])) :=
  .spend _ _ _ _ (.insert _ _ h (.same _)) (.same _)

lemma plainResult_nil : (plainResult (.atom [])).error = none := by decide +kernel

lemma plainResult_placeholder :
    (plainResult (.pair placeholderCondition (.atom []))).error = some .INVALID_CONDITION := by decide +kernel

/-- Insertions of unassigned opcodes do not matter, unless the value of the placeholder `UNKNOWN` is
among them. -/
theorem unknown_conditions_iff (codes : Set SExp) (hcodes : ∀ code ∈ codes, Unassigned code) :
    Tolerates codes ↔ .atom ConditionOpcode.UNKNOWN.value ∉ codes := by
  constructor
  · intro h hmem
    have hsame := h (sampleEnv fun _ _ => none) ⟨[], []⟩ 0 0 _ _ (.atom []) (inserts_placeholder hmem)
    have hnone := hsame.success.mp plainResult_nil
    cases hnone
  · intro hplaceholder env generator maxCost clvmCost spends spends' rest hinserts
    refine sameOutcome_of_agree (agree_runBlockGenerator ?_ hinserts env generator maxCost clvmCost rest)
    intro code hcode
    exact conditionOpcode_of_unassigned (hcodes code hcode) fun heq => hplaceholder (heq ▸ hcode)

/-- The opcode 99 has no meaning yet. -/
theorem tolerates_opcode_99 : Tolerates {.atom [99]} := by
  refine (unknown_conditions_iff {.atom [99]} ?_).mpr (by simp [ConditionOpcode.value])
  rintro code rfl op hop
  cases op <;> simp_all [ConditionOpcode.value]

/-- A condition with the opcode 48, which is not assigned, makes a generator fail. -/
theorem placeholder_not_tolerated : Unassigned (.atom [48]) ∧
    InsertsSpends {.atom [48]} (.pair (plainSpend (.atom [])) (.atom []))
      (.pair (plainSpend (.pair placeholderCondition (.atom []))) (.atom [])) ∧
    (plainResult (.atom [])).error = none ∧
    (plainResult (.pair placeholderCondition (.atom []))).error = some .INVALID_CONDITION := by
  refine ⟨?_, inserts_placeholder rfl, plainResult_nil, plainResult_placeholder⟩
  intro op hop
  cases op <;> simp_all [ConditionOpcode.value]

end SectorChain.Proofs
