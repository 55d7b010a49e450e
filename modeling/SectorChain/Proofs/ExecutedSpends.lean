import SectorChain.FullNode.MempoolManager
import SectorChain.Proofs.ConditionModes
import SectorChain.Proofs.ProgramStream

/-!
# What a bundle executes
-/

namespace SectorChain.Proofs

open Lib List Option

variable {Q : Type}
variable {env : MempoolEnv Q} {safeMode : Bool}

/-- What `rom_bootstrap_generator.clvm` does with a program that quotes its spends. -/
structure RomLaws (env : MempoolEnv Q) : Prop where
  quoted : ∀ {strict maxCost program args spends cost result},
    SExp.fromBytes program = some (.pair (.atom [1]) (.pair spends (.atom []))) →
    env.runGenerator strict maxCost program args = some (cost, result) →
    ∃ out, processCoinSolutions env spends = some out ∧ result = .pair out (.atom [])

lemma get?_conditionsByOpcode (conditions : List ConditionWithArgs) (opcode : ConditionOpcode) :
    ((conditionsByOpcode conditions).get? opcode).getD [] = conditions.filter fun cvp => cvp.opcode = opcode := by
  induction conditions using List.reverseRecOn with
  | nil => rfl
  | append_singleton conditions cvp ih =>
    rw [conditionsByOpcode, foldl_append, foldl_cons, foldl_nil, ← conditionsByOpcode, filter_append, ← ih]
    by_cases hop : cvp.opcode = opcode
    · subst hop
      cases hget : (conditionsByOpcode conditions).get? cvp.opcode <;> simp
    · have hne : opcode ≠ cvp.opcode := fun h => hop h.symm
      cases hget : (conditionsByOpcode conditions).get? cvp.opcode <;> simp [Dict.get?_set, hop, hne]

lemma conditionsOf_conditionsByOpcode {npc : NPC} {conditions : List ConditionWithArgs}
    (h : npc.conditions = (conditionsByOpcode conditions).entries) (opcode : ConditionOpcode) :
    npc.conditionsOf opcode = conditions.filter fun cvp => cvp.opcode = opcode := by
  rw [← get?_conditionsByOpcode, NPC.conditionsOf, NPC.conditionDict, h,
    Dict.get?_foldl_entries (conditionsByOpcode conditions).nodup, Dict.get?_empty, or_none]
  rfl

lemma asAtom_eq_ok {s : SExp} {bs : Bytes} (h : s.asAtom = .ok bs) : s = .atom bs := by
  cases s with
  | atom bs' =>
    cases h
    rfl
  | pair l r => cases h

lemma sanitizeInt_ok {n : SExp} {z : ℤ} (h : sanitizeInt n safeMode = .ok z) :
    ∃ buf, n = .atom buf ∧ z = intFromBytes buf := by
  obtain ⟨buf, hbuf, h⟩ := bind_eq_ok.mp h
  refine ⟨buf, asAtom_eq_ok hbuf, ?_⟩
  split at h
  · cases h
  · cases h
    rfl

lemma parseCreateCoin_ok {args : SExp} {vars : List Bytes} (h : parseCreateCoin args safeMode = .ok vars) :
    ∃ puzzleHash amount rest, args = .pair (.atom puzzleHash) (.pair (.atom amount) rest) ∧
      puzzleHash.length = 32 ∧ 0 ≤ intFromBytes amount ∧ intFromBytes amount < 2 ^ 64 ∧
        vars = [puzzleHash, intToBytes (intFromBytes amount).toNat] := by
  obtain ⟨first, hfirst, h⟩ := bind_eq_ok.mp h
  obtain ⟨puzzleHash, hpuzzle, h⟩ := bind_eq_ok.mp h
  obtain ⟨args', hrest, h⟩ := bind_eq_ok.mp h
  dsimp only at h
  split at h
  · cases h
  obtain ⟨second, hsecond, h⟩ := bind_eq_ok.mp h
  obtain ⟨z, hz, h⟩ := bind_eq_ok.mp h
  split at h
  · cases h
  split at h
  · cases h
  cases h
  obtain ⟨rest, rfl⟩ := first_eq_ok hfirst
  obtain rfl : rest = args' := Except.ok.inj hrest
  obtain ⟨rest', rfl⟩ := first_eq_ok hsecond
  obtain ⟨amount, rfl, rfl⟩ := sanitizeInt_ok hz
  obtain rfl := asAtom_eq_ok hpuzzle
  exact ⟨puzzleHash, amount, rest', rfl, by omega, by omega, by omega, rfl⟩

def SameOutput (cvp cvp' : ConditionWithArgs) : Prop := ∀ name, createdOutput name cvp = createdOutput name cvp'

lemma sameOutput_of_parsed {puzzleHash amount : Bytes} {vars : List Bytes} (hamount : 0 ≤ intFromBytes amount) :
    SameOutput ⟨.CREATE_COIN, puzzleHash :: amount :: vars⟩
      ⟨.CREATE_COIN, [puzzleHash, intToBytes (intFromBytes amount).toNat]⟩ := by
  intro name
  have hsame : intFromBytes (intToBytes (intFromBytes amount).toNat) = intFromBytes amount :=
    (beInt_intToBytes _).trans (Int.toNat_of_nonneg hamount)
  unfold createdOutput ConditionWithArgs.var
  simp [hsame]

lemma parseCondition_sexp {cond : SExp} {cost : ℕ} {cvl : Option ConditionWithArgs}
    (h : parseCondition cond true = .ok (cost, cvl)) :
    ∃ cvp, parseSexpToCondition cond = some cvp ∧
      List.Forall₂ SameOutput ([cvp].filter fun cvp => cvp.opcode = .CREATE_COIN)
        (cvl.toList.filter fun cvp => cvp.opcode = .CREATE_COIN) := by
  obtain ⟨condition, hfirst, h⟩ := bind_eq_ok.mp h
  obtain ⟨rest, rfl⟩ := first_eq_ok hfirst
  cases hop : conditionOpcode condition with
  | none =>
    rw [hop] at h
    cases h
  | some opcode =>
    rw [hop] at h
    obtain ⟨blob, hblob, hopcode⟩ := bind_eq_some_iff.mp hop
    obtain rfl : condition = .atom blob := by
      cases condition with
      | atom bs =>
        cases hblob
        rfl
      | pair l r => cases hblob
    refine ⟨⟨opcode, rest.asAtomList⟩, ?_, ?_⟩
    · rw [parseSexpToCondition, SExp.asAtomList]
      simp [SExp.atom?, hopcode]
    obtain ⟨_, hrest, h⟩ := bind_eq_ok.mp h
    cases hrest
    obtain ⟨args, hargs, h⟩ := bind_eq_ok.mp h
    cases h
    by_cases hcreate : opcode = .CREATE_COIN
    · subst hcreate
      obtain ⟨vars, hvars, rfl⟩ := map_eq_ok.mp hargs
      obtain ⟨puzzleHash, amount, rest', rfl, -, hamount, -, rfl⟩ := parseCreateCoin_ok hvars
      simpa [SExp.asAtomList, SExp.atom?] using sameOutput_of_parsed hamount
    · cases args <;> simp [hcreate]

lemma foldIter_conditions {conditions : SExp} {acc acc' : ℕ × List ConditionWithArgs}
    (h : conditions.foldIter .GENERATOR_RUNTIME_ERROR (parseSpendCondition true) acc = .ok acc') :
    ∃ parsed added, parseSexpToConditions conditions = some parsed ∧ acc'.2 = acc.2 ++ added ∧
      List.Forall₂ SameOutput (parsed.filter fun cvp => cvp.opcode = .CREATE_COIN)
        (added.filter fun cvp => cvp.opcode = .CREATE_COIN) := by
  induction conditions generalizing acc with
  | atom bs =>
    unfold SExp.foldIter at h
    split at h
    · rename_i hnil
      cases h
      exact ⟨[], [], by rw [parseSexpToConditions, if_pos hnil], (append_nil _).symm, .nil⟩
    · cases h
  | pair cond rest _ ih =>
    obtain ⟨mid, hmid, h⟩ := bind_eq_ok.mp h
    obtain ⟨parsed, added, hparsed, hadded, hsame⟩ := ih h
    obtain ⟨⟨cost, cvl⟩, hcond, hmid⟩ := bind_eq_ok.mp hmid
    obtain ⟨maxCost, -, hmid⟩ := bind_eq_ok.mp hmid
    cases hmid
    obtain ⟨cvp, hcvp, hfirst⟩ := parseCondition_sexp hcond
    refine ⟨cvp :: parsed, cvl.toList ++ added, ?_, ?_, ?_⟩
    · rw [parseSexpToConditions, hcvp, hparsed]
      rfl
    · rw [hadded, append_assoc]
    · rw [filter_append, show cvp :: parsed = [cvp] ++ parsed from rfl, filter_append]
      exact rel_append hfirst hsame

lemma mapM_sameOutput {l l' : List ConditionWithArgs} (h : List.Forall₂ SameOutput l l') (name : Bytes32) :
    l.mapM (createdOutput name) = l'.mapM (createdOutput name) := by
  induction h with
  | nil => rfl
  | cons hhead _ ih => rw [mapM_cons, mapM_cons, hhead name, ih]

def executedCoin (env : MempoolEnv Q) (cs : CoinSolution) : Coin :=
  { cs.coin with puzzleHash := cs.puzzleReveal.program.treeHash env.stdHash }

/-- What the execution of a spend returns. -/
structure Executed (env : MempoolEnv Q) (cs : CoinSolution) (npc : NPC) : Prop where
  coinName : npc.coinName = (executedCoin env cs).name env.stdHash
  created : createdOutputsForConditionsDict npc = additionsForSolution env npc.coinName cs.puzzleReveal cs.solution

lemma uint64_natCast {n : ℕ} (h : n < 2 ^ 64) : uint64 n = .ok ⟨n, h⟩ := by
  unfold uint64
  rw [dif_pos ⟨by omega, by exact_mod_cast h⟩]
  rfl

lemma parseBytes32_ok {v : SExp} {b : Bytes32} (h : parseBytes32 v = .ok b) : v = .atom b.toBytes := by
  obtain ⟨bs, hbs, h⟩ := bind_eq_ok.mp h
  rw [asAtom_eq_ok hbs]
  split at h
  · cases h
    rfl
  · cases h

lemma parseSpentCoin_ok {parent puzzleHash : Bytes32} {amount : ℕ} (hamount : amount < 2 ^ 64) {rest rest' : SExp}
    {coin : Coin} (h : parseSpentCoin safeMode (.pair (.atom parent.toBytes) (.pair (.atom puzzleHash.toBytes) (.pair
      (.atom (intToBytes amount)) rest))) = .ok (coin, rest')) :
    coin = ⟨parent, puzzleHash, amount, hamount⟩ ∧ rest' = rest := by
  unfold parseSpentCoin at h
  simp only [bind_eq_ok] at h
  obtain ⟨_, hparent, p, hp, res₁, hres₁, _, hpuzzle, q, hq, res₂, hres₂, _, hthird, z, hz, res₃, hres₃, h⟩ := h
  cases hparent
  cases hres₁
  cases hpuzzle
  cases hres₂
  cases hthird
  cases hres₃
  obtain rfl : p = parent := SizedBytes.toBytes_injective (by simpa using (parseBytes32_ok hp).symm)
  obtain rfl : q = puzzleHash := SizedBytes.toBytes_injective (by simpa using (parseBytes32_ok hq).symm)
  obtain ⟨buf, hbuf, rfl⟩ := sanitizeInt_ok hz
  cases hbuf
  rw [show intFromBytes (intToBytes amount) = amount from beInt_intToBytes amount, uint64_natCast hamount] at h
  obtain ⟨hcoin, hrest⟩ := Prod.mk.inj (Except.ok.inj h)
  exact ⟨hcoin.symm, hrest.symm⟩

lemma parseSpend_ok {cs : CoinSolution} {spend : SExp} {acc acc' : ℕ × List NPC}
    (hspend : processCoinSolution env (entryValue cs) = some spend) (h : parseSpend env.toEnv true acc spend = .ok acc') :
    ∃ npc, acc'.2 = acc.2 ++ [npc] ∧ Executed env cs npc := by
  obtain ⟨conditions, hrun, hspend⟩ := bind_eq_some_iff.mp hspend
  cases hspend
  obtain ⟨⟨coin, rest⟩, hcoin, h⟩ := bind_eq_ok.mp h
  obtain ⟨rfl, rfl⟩ := parseSpentCoin_ok cs.coin.amount_lt hcoin
  obtain ⟨conditions', hfirst, h⟩ := bind_eq_ok.mp h
  cases hfirst
  obtain ⟨⟨maxCost, list⟩, hlist, h⟩ := bind_eq_ok.mp h
  cases h
  refine ⟨_, rfl, rfl, ?_⟩
  obtain ⟨parsed, added, hparsed, hadded, hsame⟩ := foldIter_conditions hlist
  obtain rfl : list = added := hadded
  unfold createdOutputsForConditionsDict additionsForSolution
  rw [conditionsOf_conditionsByOpcode rfl, hrun, bind_some, hparsed]
  dsimp only
  rw [get?_conditionsByOpcode]
  exact (mapM_sameOutput hsame _).symm

lemma foldIter_spends {l : List CoinSolution} {out : SExp} {acc acc' : ℕ × List NPC}
    (hout : processCoinSolutions env (.ofList (l.map entryValue)) = some out)
    (h : out.foldIter .GENERATOR_RUNTIME_ERROR (parseSpend env.toEnv true) acc = .ok acc') :
    ∃ npcs, acc'.2 = acc.2 ++ npcs ∧ List.Forall₂ (Executed env) l npcs := by
  induction l generalizing out acc with
  | nil =>
    cases hout
    cases h
    exact ⟨[], (append_nil _).symm, .nil⟩
  | cons cs l ih =>
    obtain ⟨spend, hspend, hout⟩ := bind_eq_some_iff.mp hout
    obtain ⟨spends, hspends, hout⟩ := bind_eq_some_iff.mp hout
    cases hout
    obtain ⟨mid, hmid, h⟩ := bind_eq_ok.mp h
    obtain ⟨npc, hnpc, hexecuted⟩ := parseSpend_ok hspend hmid
    obtain ⟨npcs, hnpcs, hall⟩ := ih hspends h
    exact ⟨npc :: npcs, by rw [hnpcs, hnpc, append_assoc, singleton_append], .cons hexecuted hall⟩

lemma executed_of_noError (hrom : RomLaws env) {bundle : SpendBundle}
    (h : (preValidateSpendbundle env bundle).error = none) :
    List.Forall₂ (Executed env) bundle.coinSolutions (preValidateSpendbundle env bundle).npcList := by
  unfold preValidateSpendbundle at h ⊢
  obtain ⟨⟨npcList, clvmCost⟩, hrun⟩ := getNamePuzzleConditions_error.mp h
  unfold getNamePuzzleConditions
  rw [hrun]
  obtain ⟨maxCost, -, hrun⟩ := bind_eq_ok.mp hrun
  obtain ⟨⟨cost, result⟩, hresult, hrun⟩ := bind_eq_ok.mp hrun
  obtain ⟨maxCost', -, hrun⟩ := bind_eq_ok.mp hrun
  obtain ⟨spends, hspends, hrun⟩ := bind_eq_ok.mp hrun
  obtain ⟨⟨left, npcs⟩, hfold, hrun⟩ := bind_eq_ok.mp hrun
  cases hrun
  have hsome : env.runGenerator true maxCost (simpleSolutionGenerator bundle).program
      (createGeneratorArgs (simpleSolutionGenerator bundle).generatorRefs) = some (clvmCost, result) := by
    cases hgen : env.runGenerator true maxCost (simpleSolutionGenerator bundle).program
      (createGeneratorArgs (simpleSolutionGenerator bundle).generatorRefs) with
    | none =>
      rw [hgen] at hresult
      cases hresult
    | some r =>
      rw [hgen] at hresult
      cases hresult
      rfl
  obtain ⟨out, hout, rfl⟩ := hrom.quoted (fromBytes_simpleSolutionGenerator bundle) hsome
  cases hspends
  obtain ⟨npcs', hnpcs, hall⟩ := foldIter_spends hout hfold
  obtain rfl : npcList = npcs' := hnpcs
  exact hall

end SectorChain.Proofs
