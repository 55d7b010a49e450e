import SectorChain.Lib.Grouping
import SectorChain.Proofs.BodyChecks
import SectorChain.Proofs.ConditionModes

/-!
# What a generator costs

The parser also charges for a condition that it drops because it always holds.
-/

namespace SectorChain.Proofs

open Lib List

variable {env : Env} {safe : Bool}

def parsedOf (safeMode : Bool) (cond : SExp) : List ConditionWithArgs :=
  match parseCondition cond safeMode with
  | .ok (_, cvl) => cvl.toList
  | .error _ => []

def Parses (safeMode : Bool) (cond : SExp) : Prop := ∃ r, parseCondition cond safeMode = .ok r

lemma conditionOpcode_eq_some {code : SExp} {op : ConditionOpcode} :
    conditionOpcode code = some op ↔ code = .atom op.value := by
  constructor
  · intro h
    obtain ⟨blob, hblob, hop⟩ := Option.bind_eq_some_iff.mp h
    have hvalue : op.value = blob := by simpa using find?_some hop
    cases code with
    | atom bs =>
      cases hblob
      rw [hvalue]
    | pair l r => cases hblob
  · rintro rfl
    cases op <;> rfl

def chargedCost : SExp → ℕ
  | .pair condition _ => ((conditionOpcode condition).map conditionCost).getD 0
  | .atom _ => 0

lemma conditionCost_of_dropped {args : SExp} {opcode : ConditionOpcode}
    (h : parseConditionArgs args opcode safe = .ok none) : conditionCost opcode = 0 := by
  cases opcode with
  | AGG_SIG_UNSAFE =>
    obtain ⟨_, -, hnone⟩ := map_eq_ok.mp h
    cases hnone
  | AGG_SIG_ME =>
    obtain ⟨_, -, hnone⟩ := map_eq_ok.mp h
    cases hnone
  | CREATE_COIN =>
    obtain ⟨_, -, hnone⟩ := map_eq_ok.mp h
    cases hnone
  | _ => rfl

lemma parseCondition_cost {cond : SExp} {cost : ℕ} {cvl : Option ConditionWithArgs}
    (h : parseCondition cond safe = .ok (cost, cvl)) :
    cost = chargedCost cond ∧ (cvl.toList.map fun cvp => conditionCost cvp.opcode).sum = cost := by
  obtain ⟨condition, hfirst, h⟩ := bind_eq_ok.mp h
  obtain ⟨args, rfl⟩ := first_eq_ok hfirst
  cases hop : conditionOpcode condition with
  | some opcode =>
    rw [hop] at h
    obtain ⟨_, hrest, h⟩ := bind_eq_ok.mp h
    cases hrest
    obtain ⟨vars, hvars, h⟩ := bind_eq_ok.mp h
    cases h
    refine ⟨by rw [chargedCost, hop]; rfl, ?_⟩
    cases vars with
    | none => exact (conditionCost_of_dropped hvars).symm
    | some vars => simp
  | none =>
    rw [hop] at h
    cases safe with
    | true => cases h
    | false =>
      cases h
      exact ⟨by rw [chargedCost, hop]; rfl, rfl⟩

lemma chargeCost_eq_ok {maxCost cost left : ℕ} :
    chargeCost maxCost cost = .ok left ↔ cost ≤ maxCost ∧ left = maxCost - cost := by
  unfold chargeCost
  split
  · rename_i hlt
    simp [Nat.not_le.mpr hlt]
  · rename_i hle
    rw [Except.ok.injEq]
    exact ⟨fun h => ⟨Nat.not_lt.mp hle, h.symm⟩, fun h => h.2.symm⟩

lemma chargeCost_add (maxCost a b : ℕ) :
    chargeCost maxCost (a + b) = chargeCost maxCost a >>= fun left => chargeCost left b := by
  unfold chargeCost
  by_cases ha : maxCost < a
  · rw [if_pos ha, if_pos (by omega)]
    rfl
  · rw [if_neg ha, ok_bind, ← Nat.sub_sub]
    by_cases hb : maxCost - a < b
    · rw [if_pos hb, if_pos (by omega)]
    · rw [if_neg hb, if_neg (by omega)]

/-- A list whose elements satisfy `P`; it ends in the empty atom. -/
def ListOf (P : SExp → Prop) : SExp → Prop
  | .atom bs => bs = []
  | .pair x rest => P x ∧ ListOf P rest

lemma foldIter_metered {β : Type} {err : Err} {f : ℕ × β → SExp → Except Err (ℕ × β)} {P : SExp → Prop}
    {cost : SExp → ℕ} {next : β → SExp → β}
    (hf : ∀ left b x, P x → f (left, b) x = (chargeCost left (cost x)).map fun left => (left, next b x))
    {list : SExp} (hlist : ListOf P list) (left : ℕ) (b : β) :
    list.foldIter err f (left, b) =
      (chargeCost left ((elements list).map cost).sum).map fun left => (left, (elements list).foldl next b) := by
  induction list generalizing left b with
  | atom bs =>
    rw [ListOf] at hlist
    unfold SExp.foldIter
    rw [if_pos hlist]
    rfl
  | pair x rest _ ih =>
    unfold SExp.foldIter elements
    rw [hf left b x hlist.1, map_cons, sum_cons, chargeCost_add]
    cases chargeCost left (cost x) with
    | error e => rfl
    | ok left' => exact ih hlist.2 left' (next b x)

def ParsesSpend (safeMode : Bool) (res : SExp) : Prop :=
  ∃ coin conditions rest, parseSpentCoin safeMode res = .ok (coin, .pair conditions rest) ∧
    ListOf (Parses safeMode) conditions

def ParsesOutput (safeMode : Bool) : SExp → Prop
  | .pair spends _ => ListOf (ParsesSpend safeMode) spends
  | .atom _ => False

def spendCost : SExp → ℕ
  | .pair _ (.pair _ (.pair _ (.pair conditions _))) => ((elements conditions).map chargedCost).sum
  | _ => 0

def outputCost : SExp → ℕ
  | .pair spends _ => ((elements spends).map spendCost).sum
  | .atom _ => 0

lemma parseSpendCondition_metered {cond : SExp} (h : Parses safe cond) (left : ℕ)
    (list : List ConditionWithArgs) : parseSpendCondition safe (left, list) cond =
      (chargeCost left (chargedCost cond)).map fun left => (left, list ++ parsedOf safe cond) := by
  obtain ⟨⟨cost, cvl⟩, hcond⟩ := h
  unfold parseSpendCondition parsedOf
  rw [hcond, ok_bind, ← (parseCondition_cost hcond).1]
  dsimp only
  cases chargeCost left cost <;> rfl

def npcOf (env : Env) (safeMode : Bool) (res : SExp) : NPC :=
  match parseSpentCoin safeMode res with
  | .ok (coin, .pair conditions _) => ⟨coin.name env.stdHash, coin.puzzleHash,
      (conditionsByOpcode ((elements conditions).flatMap (parsedOf safeMode))).entries⟩
  | _ => ⟨.ofNat 32 0, .ofNat 32 0, []⟩

lemma foldl_append_eq_flatMap {α β : Type} (f : α → List β) (l : List α) (b : List β) :
    l.foldl (fun b a => b ++ f a) b = b ++ l.flatMap f := by
  induction l generalizing b with
  | nil => simp
  | cons a l ih => rw [foldl_cons, ih, flatMap_cons, append_assoc]

lemma parseSpend_metered {res : SExp} (h : ParsesSpend safe res) (left : ℕ)
    (list : List NPC) : parseSpend env safe (left, list) res =
      (chargeCost left (spendCost res)).map fun left => (left, list ++ [npcOf env safe res]) := by
  obtain ⟨coin, conds, rest, hcoin, hconditions⟩ := h
  obtain ⟨parent, puzzleHash, amount, rfl⟩ := parseSpentCoin_shape hcoin
  unfold parseSpend npcOf spendCost
  rw [hcoin]
  change (SExp.foldIter _ _ conds (left, []) >>= _) = _
  rw [foldIter_metered (fun left b x hx => parseSpendCondition_metered hx left b) hconditions,
    foldl_append_eq_flatMap]
  cases chargeCost left ((elements conds).map chargedCost).sum <;> rfl

lemma sum_parsedOf {conds : SExp} (h : ListOf (Parses safe) conds) :
    (((elements conds).flatMap (parsedOf safe)).map fun cvp => conditionCost cvp.opcode).sum =
      ((elements conds).map chargedCost).sum := by
  induction conds with
  | atom bs => rfl
  | pair cond rest _ ih =>
    obtain ⟨⟨cost, cvl⟩, hcond⟩ := h.1
    have hsum := parseCondition_cost hcond
    rw [elements, flatMap_cons, map_append, sum_append, ih h.2, map_cons, sum_cons, ← hsum.1, ← hsum.2]
    unfold parsedOf
    rw [hcond]

lemma conditionsByOpcode_eq (conds : List ConditionWithArgs) :
    conditionsByOpcode conds = Dict.groupBy ConditionWithArgs.opcode conds := by
  unfold conditionsByOpcode Dict.groupBy
  congr 1
  funext d cvp
  unfold Dict.push
  cases d.get? cvp.opcode <;> rfl

lemma entries_conditionDict {npc : NPC} {conds : List ConditionWithArgs}
    (h : npc.conditions = (conditionsByOpcode conds).entries) :
    npc.conditionDict.entries = (conditionsByOpcode conds).entries := by
  unfold NPC.conditionDict
  rw [h]
  exact Dict.entries_foldl_set (d := .empty) (conditionsByOpcode conds).nodup

def npcCost (npc : NPC) : ℕ := (npc.conditionDict.entries.map fun e => e.2.length * conditionCost e.1).sum

lemma npcCost_npcOf {res : SExp} (h : ParsesSpend safe res) : npcCost (npcOf env safe res) = spendCost res := by
  obtain ⟨coin, conds, rest, hcoin, hconditions⟩ := h
  obtain ⟨parent, puzzleHash, amount, rfl⟩ := parseSpentCoin_shape hcoin
  unfold npcOf spendCost
  rw [hcoin]
  dsimp only
  rw [npcCost, entries_conditionDict rfl, ← sum_parsedOf hconditions, conditionsByOpcode_eq]
  exact Dict.sum_groupBy conditionCost ConditionWithArgs.opcode _

lemma sum_npcCost {spends : SExp} (h : ListOf (ParsesSpend safe) spends) :
    (((elements spends).map (npcOf env safe)).map npcCost).sum = ((elements spends).map spendCost).sum := by
  induction spends with
  | atom bs => rfl
  | pair res rest _ ih =>
    rw [elements, map_cons, map_cons, sum_cons, map_cons, sum_cons, ih h.2, npcCost_npcOf h.1]

def totalCost (env : Env) (generator : BlockGenerator) (clvmCost : ℕ) (result : SExp) : ℕ :=
  generator.program.length * env.constants.costPerByte + clvmCost + outputCost result

lemma runBlockGenerator_of_parses {gen : BlockGenerator} {maxCost clvmCost : ℕ}
    {spends rest : SExp} (hrun : generatorOutput env safe gen maxCost = some (clvmCost, .pair spends rest))
    (hparses : ListOf (ParsesSpend safe) spends) :
    runBlockGenerator env gen maxCost safe =
      (chargeCost maxCost (totalCost env gen clvmCost (.pair spends rest))).map fun _ =>
        ((elements spends).map (npcOf env safe), clvmCost) := by
  unfold runBlockGenerator totalCost
  unfold generatorOutput at hrun
  rw [chargeCost_add, chargeCost_add]
  cases hsize : chargeCost maxCost (gen.program.length * env.constants.costPerByte) with
  | error e => rfl
  | ok left =>
    rw [ok_bind, (chargeCost_eq_ok.mp hsize).2, hrun]
    change ((chargeCost _ clvmCost) >>= _) = Except.map _ ((chargeCost _ clvmCost) >>= _)
    cases chargeCost (maxCost - gen.program.length * env.constants.costPerByte) clvmCost with
    | error e => rfl
    | ok left =>
      rw [ok_bind, ok_bind]
      change (SExp.foldIter _ _ spends (left, []) >>= _) = _
      rw [foldIter_metered (fun left b x hx => parseSpend_metered hx left b) hparses, outputCost,
        foldl_append_eq_flatMap]
      have hmap : (elements spends).flatMap (fun res => [npcOf env safe res]) =
          (elements spends).map (npcOf env safe) := map_eq_flatMap.symm
      rw [hmap]
      cases chargeCost left ((elements spends).map spendCost).sum <;> rfl

/-- What passes in safe mode passes in the other mode. The cost is that of size, CLVM and conditions, and passing
means that it stays within the limit. -/
theorem condition_costs (env : Env) (generator : BlockGenerator) (maxCost : ℕ) :
    (generatorOutput env true generator maxCost = generatorOutput env false generator maxCost →
      (getNamePuzzleConditions env generator maxCost true).error = none →
      getNamePuzzleConditions env generator maxCost false = getNamePuzzleConditions env generator maxCost true) ∧
    ∀ safe clvmCost result, generatorOutput env safe generator maxCost = some (clvmCost, result) →
      ParsesOutput safe result →
      ((getNamePuzzleConditions env generator maxCost safe).error = none ↔
        totalCost env generator clvmCost result ≤ maxCost) ∧
      ((getNamePuzzleConditions env generator maxCost safe).error = none →
        calculateCostOfProgram env generator.program (getNamePuzzleConditions env generator maxCost safe) =
          totalCost env generator clvmCost result) := by
  refine ⟨fun hsame hsafe => ((getNamePuzzleConditions_safe env generator maxCost hsame).2 hsafe).symm, ?_⟩
  intro safe clvmCost result hrun hparses
  cases result with
  | atom bs => exact hparses.elim
  | pair spends rest =>
    have hresult := runBlockGenerator_of_parses hrun hparses
    unfold getNamePuzzleConditions
    rw [hresult]
    unfold chargeCost
    by_cases hcost : maxCost < totalCost env generator clvmCost (.pair spends rest)
    · rw [if_pos hcost]
      simp [Except.map, Nat.not_le.mpr hcost]
    rw [if_neg hcost]
    refine ⟨⟨fun _ => Nat.not_lt.mp hcost, fun _ => rfl⟩, fun _ => ?_⟩
    change clvmCost + (((elements spends).map (npcOf env safe)).map npcCost).sum + _ = _
    rw [sum_npcCost hparses, totalCost, outputCost]
    ring

def payingOutput : SExp :=
  .pair (.pair (.ofList [.atom (beBytes 32 1), .atom (beBytes 32 2), .atom [1],
    .ofList [.ofList [.atom ConditionOpcode.CREATE_COIN.value, .atom (beBytes 32 3), .atom [1]]]]) (.atom []))
    (.atom [])

def payingEnv : Env := sampleEnv fun _ _ => some (1000, payingOutput)

lemma parses_payingOutput : ParsesOutput true payingOutput :=
  ⟨⟨⟨.ofNat 32 1, .ofNat 32 2, 1, by decide⟩, _, _, rfl, ⟨_, rfl⟩, rfl⟩, rfl⟩

theorem condition_costs_paying : getNamePuzzleConditions payingEnv ⟨[1], []⟩ 2000000 false =
      getNamePuzzleConditions payingEnv ⟨[1], []⟩ 2000000 true ∧
    calculateCostOfProgram payingEnv [1] (getNamePuzzleConditions payingEnv ⟨[1], []⟩ 2000000 true) =
      12000 + 1000 + 1800000 := by
  have hcosts := condition_costs payingEnv ⟨[1], []⟩ 2000000
  have hnone : (getNamePuzzleConditions payingEnv ⟨[1], []⟩ 2000000 true).error = none := by decide +kernel
  exact ⟨hcosts.1 rfl hnone, (hcosts.2 true 1000 payingOutput rfl parses_payingOutput).2 hnone⟩

end SectorChain.Proofs
