import SectorChain.Proofs.ExecutedSpends

/-!
# Checking conditions in two places

All checks but relative locks only get easier.
-/

namespace SectorChain.Proofs

open Lib List

variable {condition cvp : ConditionWithArgs} {env : Env} {errorCode : Err}
variable {check : Bytes → Bool} {coinNames coinNames' puzzleNames puzzleNames' : List Bytes32}
  {height time timestamp' : ℕ} {npc : NPC} {unspent unspent' : CoinRecord}

lemma foldIter_invariant {ε β : Type} {err : ε} {f : β → SExp → Except ε β} {P : β → Prop}
    (hstep : ∀ {b b' : β} {x : SExp}, P b → f b x = .ok b' → P b') {s : SExp} {b b' : β} (hb : P b)
    (h : s.foldIter err f b = .ok b') : P b' := by
  induction s generalizing b with
  | atom bs =>
    unfold SExp.foldIter at h
    split at h
    · cases h
      exact hb
    · cases h
  | pair x rest _ ih =>
    obtain ⟨b₁, hfirst, hrest⟩ := bind_eq_ok.mp h
    exact ih (hstep hb hfirst) hrest

/-- The strict parser returns the condition. -/
def ParsedCondition (cvp : ConditionWithArgs) : Prop :=
  ∃ cond cost, parseCondition cond true = .ok (cost, some cvp)

def allConditions (npc : NPC) : List ConditionWithArgs := npc.conditionDict.entries.flatMap Prod.snd

lemma mem_allConditions {conditions : List ConditionWithArgs}
    (h : npc.conditions = (conditionsByOpcode conditions).entries)
    (hcvp : cvp ∈ allConditions npc) : cvp ∈ conditions := by
  obtain ⟨⟨opcode, cvps⟩, hentry, hmem⟩ := mem_flatMap.mp hcvp
  have hget := Dict.mem_entries.mp hentry
  have hof : npc.conditionsOf opcode = cvps := by
    unfold NPC.conditionsOf
    rw [hget]
    rfl
  rw [conditionsOf_conditionsByOpcode h] at hof
  exact mem_of_mem_filter (hof ▸ hmem)

lemma parsed_of_parseSpend {acc acc' : ℕ × List NPC} {res : SExp}
    (hacc : ∀ npc ∈ acc.2, ∀ cvp ∈ allConditions npc, ParsedCondition cvp) (h : parseSpend env true acc res = .ok acc') :
    ∀ npc ∈ acc'.2, ∀ cvp ∈ allConditions npc, ParsedCondition cvp := by
  obtain ⟨⟨coin, rest⟩, -, h⟩ := bind_eq_ok.mp h
  obtain ⟨conditions, -, h⟩ := bind_eq_ok.mp h
  obtain ⟨⟨maxCost, list⟩, hlist, h⟩ := bind_eq_ok.mp h
  cases h
  have hparsed : ∀ cvp ∈ list, ParsedCondition cvp := by
    refine foldIter_invariant (P := fun acc : ℕ × List ConditionWithArgs => ∀ cvp ∈ acc.2, ParsedCondition cvp)
      ?_ (forall_mem_nil _) hlist
    intro b b' x hb hx
    obtain ⟨⟨cost, cvl⟩, hcond, hx⟩ := bind_eq_ok.mp hx
    obtain ⟨left, -, hx⟩ := bind_eq_ok.mp hx
    cases hx
    intro cvp hcvp
    rcases mem_append.mp hcvp with hcvp | hcvp
    · exact hb cvp hcvp
    · rw [Option.mem_toList] at hcvp
      cases hcvp
      exact ⟨x, cost, hcond⟩
  intro npc hnpc cvp hcvp
  rcases mem_append.mp hnpc with hnpc | hnpc
  · exact hacc npc hnpc cvp hcvp
  · rw [mem_singleton.mp hnpc] at hcvp
    exact hparsed cvp (mem_allConditions rfl hcvp)

lemma parsed_of_preValidate {Q : Type} {env : MempoolEnv Q} {bundle : SpendBundle} :
    ∀ npc ∈ (preValidateSpendbundle env bundle).npcList, ∀ cvp ∈ allConditions npc, ParsedCondition cvp := by
  unfold preValidateSpendbundle getNamePuzzleConditions
  split
  · rename_i npcList clvmCost hrun
    obtain ⟨_, -, hrun⟩ := bind_eq_ok.mp hrun
    obtain ⟨⟨cost, result⟩, -, hrun⟩ := bind_eq_ok.mp hrun
    obtain ⟨_, -, hrun⟩ := bind_eq_ok.mp hrun
    obtain ⟨spends, -, hrun⟩ := bind_eq_ok.mp hrun
    obtain ⟨⟨left, npcs⟩, hfold, hrun⟩ := bind_eq_ok.mp hrun
    cases hrun
    exact foldIter_invariant
      (P := fun acc : ℕ × List NPC => ∀ npc ∈ acc.2, ∀ cvp ∈ allConditions npc, ParsedCondition cvp)
      parsed_of_parseSpend (forall_mem_nil _) hfold
  · exact fun npc hnpc => (nomatch hnpc)

lemma parseLock_ok {bound : ℤ} {args : SExp} {safeMode : Bool} {vars : List Bytes}
    (h : parseLock bound args safeMode errorCode = .ok (some vars)) : ∃ n : ℕ, 0 < n ∧ vars = [intToBytes n] := by
  obtain ⟨_, -, h⟩ := bind_eq_ok.mp h
  obtain ⟨lock, -, h⟩ := bind_eq_ok.mp h
  split at h
  · cases h
  split at h
  · cases h
  cases h
  exact ⟨lock.toNat, by omega, rfl⟩

lemma ParsedCondition.lock_pos (h : ParsedCondition cvp)
    (hop : cvp.opcode = .ASSERT_HEIGHT_RELATIVE ∨ cvp.opcode = .ASSERT_SECONDS_RELATIVE) :
    ∃ n : ℕ, 0 < n ∧ cvp.vars = [intToBytes n] := by
  obtain ⟨cond, cost, h⟩ := h
  obtain ⟨condition, -, h⟩ := bind_eq_ok.mp h
  cases hopcode : conditionOpcode condition with
  | none =>
    rw [hopcode] at h
    cases h
  | some opcode =>
    rw [hopcode] at h
    obtain ⟨rest, -, h⟩ := bind_eq_ok.mp h
    obtain ⟨args, hargs, h⟩ := bind_eq_ok.mp h
    obtain ⟨-, hcvp⟩ := Prod.mk.inj (Except.ok.inj h)
    obtain ⟨vars, rfl, rfl⟩ := Option.map_eq_some_iff.mp hcvp
    rcases hop with rfl | rfl
    · exact parseLock_ok hargs
    · exact parseLock_ok hargs

lemma firstError_ok_none {α : Type} {check : α → Except PyError (Option Err)} {l : List α} :
    firstError check l = .ok none ↔ ∀ a ∈ l, check a = .ok none := by
  induction l with
  | nil => exact ⟨fun _ => forall_mem_nil _, fun _ => rfl⟩
  | cons a l ih =>
    rw [forall_mem_cons, ← ih, firstError]
    cases hcheck : check a with
    | error e => exact ⟨fun h => (by cases h), fun h => (by cases h.1)⟩
    | ok r =>
      cases r with
      | some e => exact ⟨fun h => (by cases h), fun h => (by cases h.1)⟩
      | none => exact ⟨fun h => ⟨rfl, h⟩, fun h => h.2⟩

lemma assertVar_ok_none :
    assertVar condition errorCode check = .ok none ↔ ∃ v, condition.var 0 = .ok v ∧ check v = true := by
  unfold assertVar
  rw [bind_eq_ok]
  constructor
  · rintro ⟨v, hv, h⟩
    refine ⟨v, hv, ?_⟩
    split at h
    · assumption
    · cases h
  · rintro ⟨v, hv, hcheck⟩
    exact ⟨v, hv, by rw [if_pos hcheck]; rfl⟩

lemma assertVar_mono {check' : Bytes → Bool} (h : assertVar condition errorCode check = .ok none)
    (hcheck : ∀ v, condition.var 0 = .ok v → check v = true → check' v = true) :
    assertVar condition errorCode check' = .ok none := by
  obtain ⟨v, hv, hpass⟩ := assertVar_ok_none.mp h
  exact assertVar_ok_none.mpr ⟨v, hv, hcheck v hv hpass⟩

lemma mempoolAssertAnnouncement_mono {announcements announcements' : List Bytes32}
    (hsub : announcements ⊆ announcements') (h : mempoolAssertAnnouncement condition announcements = .ok none) :
    mempoolAssertAnnouncement condition announcements' = .ok none := by
  obtain ⟨v, hv, h⟩ := bind_eq_ok.mp h
  obtain ⟨hash, hhash, h⟩ := bind_eq_ok.mp h
  refine bind_eq_ok.mpr ⟨v, hv, bind_eq_ok.mpr ⟨hash, hhash, ?_⟩⟩
  split at h
  · rename_i hmem
    rw [if_pos (hsub hmem)]
    rfl
  · cases h

structure LaterRecord (height timestamp : ℕ) (unspent unspent' : CoinRecord) : Prop where
  coin : unspent'.coin = unspent.coin
  confirmed : unspent'.confirmedBlockIndex = unspent.confirmedBlockIndex ∧ unspent'.timestamp = unspent.timestamp ∨
    height < unspent.confirmedBlockIndex ∧ timestamp < unspent.timestamp

lemma checkCondition_later
    (hrecord : LaterRecord height time unspent unspent') (htimestamp : time ≤ timestamp')
    (hcoinNames : coinNames ⊆ coinNames')
    (hpuzzleNames : puzzleNames ⊆ puzzleNames') (hparsed : ParsedCondition cvp)
    (h : checkCondition env unspent coinNames puzzleNames height time cvp = .ok none) :
    checkCondition env unspent' coinNames' puzzleNames' height timestamp' cvp = .ok none := by
  -- a relative lock that passed was on a confirmed coin
  have hlock : cvp.opcode = .ASSERT_HEIGHT_RELATIVE ∨ cvp.opcode = .ASSERT_SECONDS_RELATIVE →
      ∀ v, cvp.var 0 = .ok v → 0 < intFromBytes v := by
    intro hop v hv
    obtain ⟨n, hn, hvars⟩ := hparsed.lock_pos hop
    unfold ConditionWithArgs.var at hv
    rw [hvars] at hv
    cases hv
    rw [show intFromBytes (intToBytes n) = n from beInt_intToBytes n]
    exact_mod_cast hn
  unfold checkCondition at h ⊢
  split
  all_goals rename_i hop; simp only [hop] at h
  · unfold mempoolAssertMyCoinId at h ⊢
    rwa [hrecord.coin]
  · exact mempoolAssertAnnouncement_mono hcoinNames h
  · exact mempoolAssertAnnouncement_mono hpuzzleNames h
  · exact h
  · refine assertVar_mono h fun v hv hpass => ?_
    have hpos := hlock (.inl hop) v hv
    simp only [Bool.not_eq_true', decide_eq_false_iff_not, not_lt] at hpass ⊢
    rcases hrecord.confirmed with ⟨hsame, -⟩ | ⟨hlt, -⟩
    · rwa [hsame]
    · omega
  · refine assertVar_mono h fun v hv hpass => ?_
    simp only [Bool.not_eq_true', decide_eq_false_iff_not, not_lt] at hpass ⊢
    omega
  · refine assertVar_mono h fun v hv hpass => ?_
    have hpos := hlock (.inr hop) v hv
    simp only [Bool.not_eq_true', decide_eq_false_iff_not, not_lt] at hpass ⊢
    rcases hrecord.confirmed with ⟨-, hsame⟩ | ⟨-, hlt⟩
    · omega
    · omega
  · unfold mempoolAssertMyParentId at h ⊢
    rwa [hrecord.coin]
  · unfold mempoolAssertMyPuzzlehash at h ⊢
    rwa [hrecord.coin]
  · unfold mempoolAssertMyAmount at h ⊢
    rwa [hrecord.coin]
  · rfl

lemma mempoolCheckConditionsDict_later (hrecord : LaterRecord height time unspent unspent')
    (htimestamp : time ≤ timestamp') (hcoinNames : coinNames ⊆ coinNames')
    (hpuzzleNames : puzzleNames ⊆ puzzleNames') (hparsed : ∀ cvp ∈ allConditions npc, ParsedCondition cvp)
    (h : mempoolCheckConditionsDict env unspent coinNames puzzleNames npc height time = .ok none) :
    mempoolCheckConditionsDict env unspent' coinNames' puzzleNames' npc height timestamp' = .ok none := by
  refine firstError_ok_none.mpr fun cvp hcvp => ?_
  exact checkCondition_later hrecord htimestamp hcoinNames hpuzzleNames (hparsed cvp hcvp)
    (firstError_ok_none.mp h cvp hcvp)

end SectorChain.Proofs
