import SectorChain.Proofs.ConditionChecks
import SectorChain.Proofs.ConditionCosts
import SectorChain.Proofs.MempoolRuns
import SectorChain.Proofs.TreeHashes

/-!
# Histories of spends

A spend relies on its conditions and on announcements in its block.
-/

namespace SectorChain.Proofs

open Lib Clvm List

variable {Q : Type} {env : MempoolEnv Q}
variable {args cond : SExp} {c : Coin} {op : ConditionOpcode}

def listElements : SExp → List SExp
  | .atom _ => []
  | .pair l r => l :: listElements r

@[simp] lemma listElements_ofList (l : List SExp) : listElements (.ofList l) = l := by
  induction l with
  | nil => rfl
  | cons a l ih => rw [SExp.ofList, listElements, ih]

lemma foldIter_parsed {safe : Bool} {conditions : SExp} {acc acc' : ℕ × List ConditionWithArgs}
    (h : conditions.foldIter .GENERATOR_RUNTIME_ERROR (parseSpendCondition safe) acc = .ok acc') :
    (∀ cond ∈ listElements conditions, Parses safe cond) ∧
      acc'.2 = acc.2 ++ (listElements conditions).flatMap (parsedOf safe) := by
  induction conditions generalizing acc with
  | atom bs =>
    unfold SExp.foldIter at h
    split at h
    · cases h
      exact ⟨forall_mem_nil _, (append_nil _).symm⟩
    · cases h
  | pair cond rest _ ih =>
    obtain ⟨mid, hmid, h⟩ := bind_eq_ok.mp h
    obtain ⟨⟨cost, cvl⟩, hcond, hmid⟩ := bind_eq_ok.mp hmid
    obtain ⟨maxCost, -, hmid⟩ := bind_eq_ok.mp hmid
    cases hmid
    obtain ⟨hparses, hlist⟩ := ih h
    refine ⟨forall_mem_cons.mpr ⟨⟨_, hcond⟩, hparses⟩, ?_⟩
    rw [hlist, append_assoc]
    congr 2
    unfold parsedOf
    rw [hcond]

def argsOf (op : ConditionOpcode) (safeMode : Bool) : SExp → List ConditionWithArgs
  | .pair code args =>
    if code = .atom op.value then
      match parseConditionArgs args op safeMode with
      | .ok (some vars) => [⟨op, vars⟩]
      | _ => []
    else []
  | .atom _ => []

lemma filter_parsedOf (hop : op ≠ .UNKNOWN) {safe : Bool} (h : Parses safe cond) :
    (parsedOf safe cond).filter (fun cvp => cvp.opcode = op) = argsOf op safe cond := by
  obtain ⟨⟨cost, cvl⟩, hcond⟩ := h
  unfold parsedOf
  rw [hcond]
  obtain ⟨code, hfirst, hcond⟩ := bind_eq_ok.mp hcond
  obtain ⟨args, rfl⟩ := first_eq_ok hfirst
  unfold argsOf
  dsimp only
  cases hcode : conditionOpcode code with
  | none =>
    rw [hcode] at hcond
    have hne : code ≠ .atom op.value := fun heq => by simp [conditionOpcode_eq_some.mpr heq] at hcode
    rw [if_neg hne]
    dsimp only at hcond
    split at hcond
    · cases hcond
    · cases hcond
      simp [hop.symm]
  | some op' =>
    rw [hcode] at hcond
    have hcode' := conditionOpcode_eq_some.mp hcode
    obtain ⟨_, hrest, hcond⟩ := bind_eq_ok.mp hcond
    cases hrest
    obtain ⟨vars, hvars, hcond⟩ := bind_eq_ok.mp hcond
    cases hcond
    by_cases hsame : op' = op
    · subst hsame
      rw [if_pos hcode', hvars]
      cases vars <;> simp
    have hne : code ≠ .atom op.value := by
      intro heq
      rw [conditionOpcode_eq_some.mpr heq] at hcode
      exact hsame (Option.some.inj hcode).symm
    rw [if_neg hne]
    cases vars <;> simp [hsame]

lemma parses_args {safe : Bool}
    (h : Parses safe (.pair (.atom op.value) args)) : ∃ vars, parseConditionArgs args op safe = .ok vars := by
  obtain ⟨⟨cost, cvl⟩, hcond⟩ := h
  obtain ⟨code, hfirst, hcond⟩ := bind_eq_ok.mp hcond
  cases hfirst
  rw [conditionOpcode_eq_some.mpr rfl] at hcond
  obtain ⟨_, hrest, hcond⟩ := bind_eq_ok.mp hcond
  cases hrest
  obtain ⟨vars, hvars, -⟩ := bind_eq_ok.mp hcond
  exact ⟨vars, hvars⟩

/-- A spend: record, puzzle, solution, the conditions returned, and what was parsed out of them. -/
structure LedgerSpend where
  record : CoinRecord
  puzzle : SExp
  solution : SExp
  conditions : SExp
  npc : NPC

namespace LedgerSpend

def coin (s : LedgerSpend) : Coin := s.record.coin

def outputs (s : LedgerSpend) : List SExp := listElements s.conditions

def createdCoin? (inputCoinName : Bytes32) : SExp → Option Coin
  | .pair (.atom code) (.pair (.atom puzzleHash) (.pair (.atom amount) _)) =>
    if h : code = ConditionOpcode.CREATE_COIN.value ∧ puzzleHash.length = 32 ∧ 0 ≤ intFromBytes amount ∧
        intFromBytes amount < 2 ^ 64 then
      some ⟨inputCoinName, ⟨puzzleHash, h.2.1⟩, (intFromBytes amount).toNat, by omega⟩
    else none
  | _ => none

def created (s : LedgerSpend) : List Coin := s.outputs.filterMap (createdCoin? s.npc.coinName)

end LedgerSpend

/-- The revealed puzzle has the puzzle hash of the coin, and its conditions were parsed. -/
structure Executes (env : MempoolEnv Q) (safeMode : Bool) (s : LedgerSpend) : Prop where
  coinName : s.npc.coinName = s.coin.name env.stdHash
  puzzleHash : s.coin.puzzleHash = s.puzzle.treeHash env.stdHash
  run : env.runPuzzle s.puzzle s.solution = some s.conditions
  parsed : ∃ maxCost rest list, s.conditions.foldIter .GENERATOR_RUNTIME_ERROR (parseSpendCondition safeMode)
    (maxCost, []) = .ok (rest, list) ∧ s.npc.conditions = (conditionsByOpcode list).entries

namespace Executes

variable {safe : Bool} {s : LedgerSpend} (h : Executes env safe s)
include h

lemma parses (hcond : cond ∈ s.outputs) : Parses safe cond := by
  obtain ⟨maxCost, rest, list, hfold, -⟩ := h.parsed
  exact (foldIter_parsed hfold).1 cond hcond

lemma conditionsOf (hop : op ≠ .UNKNOWN) : s.npc.conditionsOf op = s.outputs.flatMap (argsOf op safe) := by
  obtain ⟨maxCost, rest, list, hfold, hconditions⟩ := h.parsed
  obtain ⟨hparses, hlist⟩ := foldIter_parsed hfold
  rw [conditionsOf_conditionsByOpcode hconditions]
  change list = [] ++ _ at hlist
  rw [hlist, nil_append, filter_flatMap]
  exact flatMap_congr fun cond hcond => filter_parsedOf hop (hparses cond hcond)

lemma mem_conditionsOf (hop : op ≠ .UNKNOWN) (hcond : .pair (.atom op.value) args ∈ s.outputs) {vars : List Bytes}
    (hargs : parseConditionArgs args op safe = .ok (some vars)) : ⟨op, vars⟩ ∈ s.npc.conditionsOf op := by
  rw [h.conditionsOf hop]
  refine mem_flatMap.mpr ⟨_, hcond, ?_⟩
  unfold argsOf
  dsimp only
  rw [if_pos rfl, hargs]
  exact mem_singleton_self _

lemma exists_args (hcond : .pair (.atom op.value) args ∈ s.outputs) :
    ∃ vars, parseConditionArgs args op safe = .ok vars :=
  parses_args (h.parses hcond)

end Executes

lemma createdCoin?_eq_some {name : Bytes32} (h : LedgerSpend.createdCoin? name cond = some c) :
    c.parentCoinInfo = name ∧ ∃ amount rest, cond = .pair (opcode .CREATE_COIN)
        (.pair (.atom c.puzzleHash.toBytes) (.pair (.atom amount) rest)) ∧ intFromBytes amount = c.amount := by
  unfold LedgerSpend.createdCoin? at h
  split at h
  · split at h
    · rename_i code puzzleHash amount rest hall
      cases h
      obtain ⟨rfl, -, hnonneg, -⟩ := id hall
      exact ⟨rfl, amount, rest, rfl, (Int.toNat_of_nonneg hnonneg).symm⟩
    · cases h
  · cases h

lemma createdOutput_parsed {safe : Bool} {vars : List Bytes} (h : parseCreateCoin args safe = .ok vars)
    (name : Bytes32) :
    ∃ coin, createdOutput name ⟨.CREATE_COIN, vars⟩ = .ok coin ∧
      LedgerSpend.createdCoin? name (.pair (.atom ConditionOpcode.CREATE_COIN.value) args) = some coin := by
  obtain ⟨puzzleHash, amount, rest, rfl, hlength, hnonneg, hlt, rfl⟩ := parseCreateCoin_ok h
  refine ⟨_, ?_, dif_pos ⟨rfl, hlength, hnonneg, hlt⟩⟩
  have hsame : createdOutput name ⟨.CREATE_COIN, [puzzleHash, amount]⟩ = _ := sameOutput_of_parsed hnonneg name
  rw [← hsame]
  have hamount : uint64 (intFromBytes amount) = .ok ⟨(intFromBytes amount).toNat, by omega⟩ := dif_pos ⟨hnonneg, hlt⟩
  simp [createdOutput, ConditionWithArgs.var, hamount, SizedBytes.ofBytes, hlength]

lemma mapM_argsOf {safe : Bool} (h : Parses safe cond) (name : Bytes32) :
    (argsOf .CREATE_COIN safe cond).mapM (createdOutput name) = .ok (LedgerSpend.createdCoin? name cond).toList := by
  cases cond with
  | atom bs => rfl
  | pair code args =>
    unfold argsOf
    dsimp only
    split
    · rename_i hcode
      subst hcode
      obtain ⟨vars, hvars⟩ := parses_args h
      obtain ⟨vars', hparsed, rfl⟩ := map_eq_ok.mp hvars
      obtain ⟨coin, houtput, hcoin⟩ := createdOutput_parsed hparsed name
      rw [hvars, hcoin]
      dsimp only
      rw [mapM_cons, houtput]
      rfl
    · rename_i hcode
      cases hcoin : LedgerSpend.createdCoin? name (.pair code args) with
      | none => rfl
      | some coin =>
        obtain ⟨-, amount, rest, heq, -⟩ := createdCoin?_eq_some hcoin
        cases heq
        exact absurd rfl hcode

/-- The coins of the history are those that the node computes from what it parsed. -/
lemma Executes.createdOutputs {safe : Bool} {s : LedgerSpend} (h : Executes env safe s) :
    createdOutputsForConditionsDict s.npc = .ok s.created := by
  unfold createdOutputsForConditionsDict LedgerSpend.created
  rw [h.conditionsOf (by decide)]
  have hparses : ∀ cond ∈ s.outputs, Parses safe cond := fun _ hcond => h.parses hcond
  generalize s.outputs = l at hparses
  induction l with
  | nil => rfl
  | cons cond l ih =>
    rw [forall_mem_cons] at hparses
    rw [flatMap_cons, mapM_append, mapM_argsOf hparses.1, ok_bind, ih hparses.2, filterMap_cons]
    cases LedgerSpend.createdCoin? s.npc.coinName cond <;> rfl

lemma LedgerSpend.parent_of_created {s : LedgerSpend} (h : c ∈ s.created) : c.parentCoinInfo = s.npc.coinName := by
  obtain ⟨cond, -, hcond⟩ := mem_filterMap.mp h
  exact (createdCoin?_eq_some hcond).1

/-- The spends of a generator and the reward coins. -/
structure LedgerBlock where
  height : ℕ
  prevTransactionBlockHeight : ℕ
  timestamp : ℕ
  spends : List LedgerSpend
  rewards : List Coin

namespace LedgerBlock

def npcList (b : LedgerBlock) : List NPC := b.spends.map LedgerSpend.npc

/-- The checks of `validate_block_body` on the conditions of the spends. -/
structure Valid (env : MempoolEnv Q) (b : LedgerBlock) : Prop where
  executes : ∃ safeMode, ∀ s ∈ b.spends, Executes env safeMode s
  conditions : ∃ coinNames puzzleNames, coinAnnouncementsNamesForNpc env.toEnv b.npcList = .ok coinNames ∧
    puzzleAnnouncementsNamesForNpc env.toEnv b.npcList = .ok puzzleNames ∧
    ∀ s ∈ b.spends, mempoolCheckConditionsDict env.toEnv s.record coinNames puzzleNames s.npc
      b.prevTransactionBlockHeight b.timestamp = .ok none

/-- The coins that the node adds for the spends. -/
def additions (b : LedgerBlock) : List Coin := (additionsForNpc b.npcList).toOption.getD []

lemma Valid.additions_eq {b : LedgerBlock} (h : b.Valid env) : b.additions = b.spends.flatMap LedgerSpend.created := by
  obtain ⟨safe, hexecutes⟩ := h.executes
  have hcreated : b.npcList.mapM createdOutputsForConditionsDict = .ok (b.spends.map LedgerSpend.created) :=
    mapM_eq_ok.mpr (forall₂_map_left_iff.mpr (forall₂_map_right_iff.mpr
      (forall₂_same.mpr fun s hs => (hexecutes s hs).createdOutputs)))
  unfold additions additionsForNpc
  rw [hcreated]
  rfl

end LedgerBlock

lemma mem_allConditions_of_conditionsOf {npc : NPC} {cvp : ConditionWithArgs}
    (h : cvp ∈ npc.conditionsOf op) : cvp ∈ allConditions npc := by
  obtain ⟨cvps, hget, h⟩ := Dict.exists_of_mem_getD h
  exact mem_flatMap.mpr ⟨(op, cvps), Dict.mem_entries.mpr hget, h⟩

section Valid

variable {b : LedgerBlock} {s : LedgerSpend}

lemma LedgerBlock.Valid.checked (h : b.Valid env) (hs : s ∈ b.spends)
    (hop : op ≠ .UNKNOWN) (hcond : .pair (.atom op.value) args ∈ s.outputs) :
    ∃ safe vars, parseConditionArgs args op safe = .ok vars ∧
      ∃ coinNames puzzleNames, coinAnnouncementsNamesForNpc env.toEnv b.npcList = .ok coinNames ∧
        puzzleAnnouncementsNamesForNpc env.toEnv b.npcList = .ok puzzleNames ∧
        ∀ v, vars = some v → checkCondition env.toEnv s.record coinNames puzzleNames b.prevTransactionBlockHeight
          b.timestamp ⟨op, v⟩ = .ok none := by
  obtain ⟨safe, hexecutes⟩ := h.executes
  obtain ⟨coinNames, puzzleNames, hcoin, hpuzzle, hall⟩ := h.conditions
  obtain ⟨vars, hvars⟩ := (hexecutes s hs).exists_args hcond
  refine ⟨safe, vars, hvars, coinNames, puzzleNames, hcoin, hpuzzle, ?_⟩
  rintro v rfl
  have hmem := (hexecutes s hs).mem_conditionsOf hop hcond hvars
  exact firstError_ok_none.mp (hall s hs) _ (mem_allConditions_of_conditionsOf hmem)

lemma parseHash_ok {hash : Bytes} {rest : SExp} {error : Err} {vars : List Bytes}
    (h : parseHash (.pair (.atom hash) rest) error = .ok vars) : vars = [hash] := by
  obtain ⟨_, hfirst, h⟩ := bind_eq_ok.mp h
  cases hfirst
  obtain ⟨_, hatom, h⟩ := bind_eq_ok.mp h
  cases hatom
  split at h
  · cases h
  · cases h
    rfl

lemma assertVar_ok {cvp : ConditionWithArgs} {v : Bytes} {error : Err} {check : Bytes → Bool}
    (hvar : cvp.var 0 = .ok v) (h : assertVar cvp error check = .ok none) : check v = true := by
  unfold assertVar at h
  rw [hvar, ok_bind] at h
  by_contra hcheck
  rw [if_neg hcheck] at h
  cases h

lemma LedgerBlock.Valid.myCoinId (h : b.Valid env) (hs : s ∈ b.spends) {id : Bytes} {rest : SExp}
    (hcond : .pair (opcode .ASSERT_MY_COIN_ID) (.pair (.atom id) rest) ∈ s.outputs) :
    id = (s.coin.name env.stdHash).toBytes := by
  obtain ⟨safe, vars, hvars, coinNames, puzzleNames, -, -, hcheck⟩ := h.checked hs (by decide) hcond
  obtain ⟨vars, hparsed, rfl⟩ := map_eq_ok.mp hvars
  obtain rfl := parseHash_ok hparsed
  have hsame := assertVar_ok (v := id) rfl (hcheck [id] rfl)
  exact (of_decide_eq_true hsame).symm

end Valid

def allSpends (blocks : List LedgerBlock) : List LedgerSpend := blocks.flatMap LedgerBlock.spends

/-- No coin is spent twice, and a spent coin was created in the block that confirms it. -/
structure History (env : MempoolEnv Q) (blocks : List LedgerBlock) : Prop where
  valid : ∀ b ∈ blocks, b.Valid env
  spentOnce : ((allSpends blocks).map LedgerSpend.coin).Nodup
  origin : ∀ s ∈ allSpends blocks, ∃ b ∈ blocks, b.height = s.record.confirmedBlockIndex ∧
    (s.coin ∈ b.rewards ∨ s.coin ∈ b.additions)

def coinTuple (c : Coin) : List Bytes :=
  [c.parentCoinInfo.toBytes, c.puzzleHash.toBytes, intToBytes c.amount]

/-- There are no collisions among the tuples `T`, and no coin is its own ancestor. -/
structure HashLaws (env : MempoolEnv Q) (T : Set (List Bytes)) (blocks : List LedgerBlock) : Prop where
  injective : Set.InjOn (sha256 env.stdHash) T
  coins : ∀ s ∈ allSpends blocks, coinTuple s.coin ∈ T
  puzzles : ∀ s ∈ allSpends blocks, Hashed env.stdHash T s.puzzle
  rewards : ∀ b ∈ blocks, ∀ c ∈ b.rewards, ∀ t ∈ T, c.parentCoinInfo.toBytes ≠ sha256 env.stdHash t
  acyclic : ∃ rank : Bytes32 → ℕ, ∀ s ∈ allSpends blocks, rank s.coin.parentCoinInfo < rank (s.coin.name env.stdHash)

lemma sha256_coinTuple (stdHash : Bytes → Bytes32) (c : Coin) :
    sha256 stdHash (coinTuple c) = (c.name stdHash).toBytes := by
  simp [sha256, coinTuple, Coin.name, Coin.getHash, Coin.preimage]

lemma coinTuple_injective {c' : Coin} (h : coinTuple c = coinTuple c') : c = c' := by
  simp only [coinTuple, List.cons.injEq, and_true] at h
  have hamount : c.amount = c'.amount := by
    rw [← beNat_intToBytes c.amount, h.2.2, beNat_intToBytes]
  cases c
  cases c'
  simp only [Coin.mk.injEq]
  exact ⟨SizedBytes.toBytes_injective h.1, SizedBytes.toBytes_injective h.2.1, hamount⟩

variable {blocks : List LedgerBlock} {T : Set (List Bytes)}

lemma mem_allSpends {s : LedgerSpend} : s ∈ allSpends blocks ↔ ∃ b ∈ blocks, s ∈ b.spends := mem_flatMap

lemma History.executes (h : History env blocks) {s : LedgerSpend} (hs : s ∈ allSpends blocks) :
    ∃ safe, Executes env safe s := by
  obtain ⟨b, hb, hs⟩ := mem_allSpends.mp hs
  obtain ⟨safe, hexecutes⟩ := (h.valid b hb).executes
  exact ⟨safe, hexecutes s hs⟩

lemma History.eq_of_coin (h : History env blocks) {s t : LedgerSpend} (hs : s ∈ allSpends blocks)
    (ht : t ∈ allSpends blocks) (hcoin : s.coin = t.coin) : s = t :=
  inj_on_of_nodup_map h.spentOnce hs ht hcoin

lemma HashLaws.coinTuple_eq (h : HashLaws env T blocks) {s : LedgerSpend} (hs : s ∈ allSpends blocks) {t : List Bytes}
    (ht : t ∈ T) (hid : (s.coin.name env.stdHash).toBytes = sha256 env.stdHash t) : coinTuple s.coin = t :=
  h.injective (h.coins s hs) ht ((sha256_coinTuple _ _).trans hid)

lemma HashLaws.eq_of_name (h : HashLaws env T blocks) (hhistory : History env blocks) {s t : LedgerSpend}
    (hs : s ∈ allSpends blocks) (ht : t ∈ allSpends blocks)
    (hname : s.coin.name env.stdHash = t.coin.name env.stdHash) : s = t := by
  refine hhistory.eq_of_coin hs ht (coinTuple_injective ?_)
  exact h.coinTuple_eq hs (h.coins t ht) (by rw [hname, sha256_coinTuple])

lemma HashLaws.exists_parent (h : HashLaws env T blocks) (hhistory : History env blocks) {s : LedgerSpend}
    (hs : s ∈ allSpends blocks) {t : List Bytes} (ht : t ∈ T)
    (hid : s.coin.parentCoinInfo.toBytes = sha256 env.stdHash t) :
    ∃ p ∈ allSpends blocks, s.coin ∈ p.created ∧ p.coin.name env.stdHash = s.coin.parentCoinInfo ∧
      coinTuple p.coin = t := by
  obtain ⟨b, hb, -, hreward | hadded⟩ := hhistory.origin s hs
  · exact absurd hid (h.rewards b hb s.coin hreward t ht)
  rw [(hhistory.valid b hb).additions_eq] at hadded
  obtain ⟨p, hp, hcreated⟩ := mem_flatMap.mp hadded
  have hpmem : p ∈ allSpends blocks := mem_allSpends.mpr ⟨b, hb, hp⟩
  obtain ⟨safe, hexecutes⟩ := hhistory.executes hpmem
  have hname : p.coin.name env.stdHash = s.coin.parentCoinInfo := by
    rw [LedgerSpend.parent_of_created hcreated, hexecutes.coinName]
  exact ⟨p, hpmem, hcreated, hname, h.coinTuple_eq hpmem ht (by rw [hname, hid])⟩

def hashNumber (t : List Bytes) : ℕ := beNat (1 :: t.flatten) % (2 ^ 256 - 189)

lemma hashNumber_eq {a b : List Bytes} (h : sha256 sampleHash a = sha256 sampleHash b) :
    hashNumber a = hashNumber b := by
  have hlt : ∀ t, hashNumber t < 256 ^ 32 := fun t =>
    lt_of_lt_of_le (Nat.mod_lt _ (by norm_num)) (by norm_num)
  have hread : beNat (beBytes 32 (hashNumber a)) = beNat (beBytes 32 (hashNumber b)) := congrArg beNat h
  rw [beNat_beBytes, beNat_beBytes, Nat.mod_eq_of_lt (hlt a), Nat.mod_eq_of_lt (hlt b)] at hread
  exact hread

lemma injOn_sampleHash {tuples : List (List Bytes)} (h : tuples.Pairwise fun a b => hashNumber a = hashNumber b → a = b) :
    Set.InjOn (sha256 sampleHash) {t | t ∈ tuples} := by
  intro a ha b hb hab
  by_contra hne
  have : Std.Symm fun a b : List Bytes => hashNumber a = hashNumber b → a = b :=
    ⟨fun _ _ himp hsame => (himp hsame.symm).symm⟩
  exact hne (h.forall ha hb hne (hashNumber_eq hab))

def ledgerEnv (run : SExp → SExp → Option SExp) : MempoolEnv ℚ :=
  { mempoolEnvOf (fun _ _ => none) 0 with runPuzzle := run }

section

variable (run : SExp → SExp → Option SExp)

def parsedConditions (conditions : SExp) : Option (ℕ × List ConditionWithArgs) :=
  (conditions.foldIter Err.GENERATOR_RUNTIME_ERROR (parseSpendCondition true)
    (DEFAULT_CONSTANTS.maxBlockCostClvm, [])).toOption

def executedSpend (record : CoinRecord) (puzzle solution : SExp) : LedgerSpend :=
  let conditions := (run puzzle solution).getD (.atom [])
  ⟨record, puzzle, solution, conditions, record.coin.name sampleHash, record.coin.puzzleHash,
    (conditionsByOpcode (((parsedConditions conditions).map Prod.snd).getD [])).entries⟩

def executesWell (s : LedgerSpend) : Bool :=
  s.coin.puzzleHash = s.puzzle.treeHash sampleHash ∧ run s.puzzle s.solution = some s.conditions ∧
    (parsedConditions s.conditions).isSome

lemma executes_executedSpend {record : CoinRecord} {puzzle solution : SExp}
    (h : executesWell run (executedSpend run record puzzle solution) = true) :
    Executes (ledgerEnv run) true (executedSpend run record puzzle solution) := by
  obtain ⟨hhash, hrun, hparsed⟩ := of_decide_eq_true h
  obtain ⟨⟨rest, list⟩, hlist⟩ := Option.isSome_iff_exists.mp hparsed
  refine ⟨rfl, hhash, hrun, DEFAULT_CONSTANTS.maxBlockCostClvm, rest, list, ?_, ?_⟩
  · unfold parsedConditions at hlist
    cases hfold : (executedSpend run record puzzle solution).conditions.foldIter Err.GENERATOR_RUNTIME_ERROR
        (parseSpendCondition true) (DEFAULT_CONSTANTS.maxBlockCostClvm, []) with
    | error e =>
      rw [hfold] at hlist
      cases hlist
    | ok r =>
      rw [hfold] at hlist
      rw [Option.some.inj hlist]
  · have hlist : parsedConditions ((run puzzle solution).getD (.atom [])) = some (rest, list) := hlist
    simp only [executedSpend, hlist, Option.map_some, Option.getD_some]

def blockChecks (b : LedgerBlock) : Except PyError (List (Option Err)) := do
  let coinNames ← coinAnnouncementsNamesForNpc (ledgerEnv run).toEnv b.npcList
  let puzzleNames ← puzzleAnnouncementsNamesForNpc (ledgerEnv run).toEnv b.npcList
  b.spends.mapM fun s => mempoolCheckConditionsDict (ledgerEnv run).toEnv s.record coinNames puzzleNames
    s.npc b.prevTransactionBlockHeight b.timestamp

def passes (b : LedgerBlock) : Bool :=
  match blockChecks run b with
  | .ok errors => errors.all Option.isNone
  | .error _ => false

lemma valid_of_passes {b : LedgerBlock} (hexecutes : ∀ s ∈ b.spends, Executes (ledgerEnv run) true s)
    (h : passes run b = true) : b.Valid (ledgerEnv run) := by
  unfold passes at h
  split at h
  · rename_i errors hchecks
    obtain ⟨coinNames, hcoin, hchecks⟩ := bind_eq_ok.mp hchecks
    obtain ⟨puzzleNames, hpuzzle, herrors⟩ := bind_eq_ok.mp hchecks
    refine ⟨⟨true, hexecutes⟩, coinNames, puzzleNames, hcoin, hpuzzle, ?_⟩
    intro s hs
    obtain ⟨error, herror, hcheck⟩ := exists_of_mem_left (mapM_eq_ok.mp herrors) hs
    rw [hcheck, Option.isNone_iff_eq_none.mp (all_eq_true.mp h error herror)]
  · cases h

end

end SectorChain.Proofs
