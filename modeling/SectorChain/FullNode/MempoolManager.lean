import SectorChain.Consensus.BlockBodyValidation
import SectorChain.FullNode.Mempool

/-!
# The mempool manager

A call of `add_spendbundle` that returns early leaves through `AddExit`.
-/

namespace SectorChain

open Lib

inductive MempoolInclusionStatus where
  | SUCCESS
  | PENDING
  | FAILED
deriving DecidableEq, Repr

structure AddResult where
  cost : Option ℕ
  status : MempoolInclusionStatus
  error : Option Err
deriving DecidableEq, Repr

/-- The ways out of `add_spendbundle`. -/
inductive AddExit where
  | raised (error : PyError)
  | returned (result : AddResult)
deriving DecidableEq, Repr

structure MempoolManager (Q : Type) [LinearOrder Q] where
  potentialTxs : Dict Bytes32 MempoolItem
  seenBundleHashes : Dict Bytes32 Bytes32
  potentialCacheMaxTotalCost : ℤ
  potentialCacheCost : ℕ
  peak : Option BlockRecord
  mempool : Mempool Q

structure MempoolNode (Q : Type) [LinearOrder Q] where
  node : Node
  manager : MempoolManager Q

variable {Q : Type} [LinearOrder Q]

abbrev ManagerM (Q : Type) [LinearOrder Q] (α : Type) := Exec PyError (MempoolNode Q) α

abbrev AddM (Q : Type) [LinearOrder Q] (α : Type) := Exec AddExit (MempoolNode Q) α

def onNode {α : Type} (m : NodeM α) : ManagerM Q α := .mk fun s =>
  ((exec m s.node).1, { s with node := (exec m s.node).2 })

def onManager {α : Type} (m : Exec PyError (MempoolManager Q) α) : ManagerM Q α := .mk fun s =>
  ((exec m s.manager).1, { s with manager := (exec m s.manager).2 })

def onMempool {α : Type} (m : MempoolM Q α) : ManagerM Q α := onManager <| .mk fun s =>
  ((exec m s.mempool).1, { s with mempool := (exec m s.mempool).2 })

def calling {α : Type} (m : ManagerM Q α) : AddM Q α := ExceptT.adapt .raised m

def orRaised {α : Type} (x : Except PyError α) : Except AddExit α := x.mapError .raised

def failed (error : Err) : AddExit := .returned ⟨none, .FAILED, some error⟩

def demand (ok : Bool) (error : Err) : Except AddExit Unit :=
  if ok then .ok () else .error (failed error)

def addUint64 (a b : ℕ) : Except AddExit ℕ :=
  if a + b < 2 ^ 64 then .ok (a + b) else .error (.raised .valueError)

section

variable (env : MempoolEnv Q)

def limitCost : ℕ := env.constants.maxBlockCostClvm / 2

def mempoolMaxTotalCost : ℕ := env.constants.maxBlockCostClvm * env.mempoolBlockBuffer

def MempoolManager.new : MempoolManager Q where
  potentialTxs := .empty
  seenBundleHashes := .empty
  potentialCacheMaxTotalCost := env.constants.maxBlockCostClvm * 5
  potentialCacheCost := 0
  peak := none
  mempool := .new (mempoolMaxTotalCost env)

/-- The sum of the created amounts. Amounts are not negative, as they were cast before. -/
def additionAmount (additions : List Coin) : Except AddExit ℕ :=
  additions.foldlM (fun sum coin => do
    demand (coin.amount ≤ env.constants.maxCoinAmount) .COIN_AMOUNT_EXCEEDS_MAXIMUM
    addUint64 sum coin.amount) 0

variable (npcList : List NPC) (m : Mempool Q) (peak : BlockRecord) (newItem : MempoolItem)
  (removals : Dict Bytes32 CoinRecord) (newSpend : SpendBundle)

def checkCoins : Except AddExit (List Coin × ℕ) := do
  let additions ← orRaised (additionsForNpc npcList)
  let amount ← additionAmount env additions
  demand (additions.map (Coin.name env.stdHash)).Nodup .DUPLICATE_OUTPUT
  demand (npcList.map NPC.coinName).Nodup .DOUBLE_SPEND
  return (additions, amount)

def ephemeralRecord (removalCoin : Coin) : Except PyError CoinRecord := do
  let timestamp ← assertSome peak.timestamp
  return ⟨removalCoin, peak.height + 1, 0, false, false, timestamp + 1⟩

def removalRecord (peak : BlockRecord) (additionsDict : Dict Bytes32 Coin) (name : Bytes32) : AddM Q CoinRecord := do
  let removalRecord ← calling (onNode (getCoinRecord env.toEnv name))
  match additionsDict.get? name, removalRecord with
  | some removalCoin, _ => orRaised (ephemeralRecord peak removalCoin)
  | none, some removalRecord => return removalRecord
  | none, none => throw (failed .UNKNOWN_UNSPENT)

/-- `removal_record_dict`, `removal_coin_dict` and `removal_amount`. -/
structure Removals where
  records : Dict Bytes32 CoinRecord
  coins : Dict Bytes32 Coin
  amount : ℕ

def Removals.add (additionsDict : Dict Bytes32 Coin) (removals : Removals) (name : Bytes32) : AddM Q Removals := do
  let record ← removalRecord env peak additionsDict name
  let amount ← addUint64 removals.amount record.coin.amount
  return ⟨removals.records.set name record, removals.coins.set name record.coin, amount⟩

def findRemovals (additions : List Coin) (npcList : List NPC) : AddM Q Removals :=
  (npcList.map NPC.coinName).foldlM (Removals.add env peak (coinsByName env.toEnv additions))
    ⟨.empty, .empty, 0⟩

def reservedFees : Except AddExit ℕ :=
  (npcList.flatMap fun npc => npc.conditionsOf .RESERVE_FEE).foldlM (fun sum cvp => do
    let var ← orRaised (cvp.var 0)
    demand (0 ≤ intFromBytes var) .RESERVE_FEE_CONDITION_FAILED
    return sum + (intFromBytes var).toNat) 0

def checkFees (additionAmount removalAmount cost : ℕ) : Except AddExit ℕ := do
  demand (additionAmount ≤ removalAmount) .MINTING_COIN
  let fees := removalAmount - additionAmount
  let assertFeeSum ← reservedFees npcList
  demand (assertFeeSum ≤ fees) .RESERVE_FEE_CONDITION_FAILED
  demand (cost ≠ 0) .UNKNOWN
  return fees

def nonzeroFeeMinimumFpc : Q := env.perCost 5 1

/-- A full mempool asks for a fee. -/
def checkCapacity (fees cost : ℕ) : Except AddExit Unit :=
  if m.atFullCapacity cost then do
    demand (nonzeroFeeMinimumFpc env ≤ env.perCost fees cost) .INVALID_FEE_TOO_CLOSE_TO_ZERO
    let minFeeRate ← orRaised (m.getMinFeeRate env cost)
    demand (minFeeRate < env.perCost fees cost) .INVALID_FEE_LOW_FEE
  else .ok ()

def checkRemovals : Option Err × List Coin :=
  let records := removals.entries.map Prod.snd
  let conflicts := (records.map CoinRecord.coin).filter fun c => m.removals.contains (c.name env.stdHash)
  if records.any CoinRecord.spent then (some .DOUBLE_SPEND, [])
  else if conflicts.length > 0 then (some .MEMPOOL_CONFLICT, conflicts)
  else (none, [])

def conflictingPoolItems (conflicts : List Coin) : Except PyError (Dict Bytes32 MempoolItem) :=
  conflicts.foldlM (fun items conflicting =>
    match m.removals.get? (conflicting.name env.stdHash) with
    | some sb => .ok (items.set sb.name sb)
    | none => .error .keyError) .empty

/-- 0.00001 XSC. -/
def getMinFeeIncrease : ℕ := 10000000

def canReplace (conflictingItems : Dict Bytes32 MempoolItem) (removals : Dict Bytes32 CoinRecord)
    (fees : ℕ) (feesPerCost : Q) : Bool :=
  let items := conflictingItems.entries.map Prod.snd
  let conflictingFees := (items.map MempoolItem.fee).sum
  let conflictingCost := (items.map MempoolItem.cost).sum
  -- all coins spent in all conflicting items must also be spent in the new item
  (items.all fun item => item.removals.all fun coin => removals.contains (coin.name env.stdHash)) &&
    env.perCost conflictingFees conflictingCost < feesPerCost &&
    conflictingFees + getMinFeeIncrease ≤ fees

/-- The loop that shortens the potential set. It lowers the limit and not the cost. -/
def shrinkPotential : ℕ → Exec PyError (MempoolManager Q) Unit
  | 0 => throw .doesNotReturn
  | fuel + 1 => do
    let s ← get
    if s.potentialCacheCost > s.potentialCacheMaxTotalCost then
      match s.potentialTxs.entries with
      | [] => throw .indexError
      | (_, first) :: _ => do
        modify fun s => { s with
          potentialCacheMaxTotalCost := s.potentialCacheMaxTotalCost - first.cost
          potentialTxs := s.potentialTxs.popFirst }
        shrinkPotential fuel
    else return

def addToPotentialTxSet (item : MempoolItem) : Exec PyError (MempoolManager Q) Unit := do
  if (← get).potentialTxs.contains item.spendBundleName then return
  modify fun s => { s with
    potentialTxs := s.potentialTxs.set item.spendBundleName item
    potentialCacheCost := s.potentialCacheCost + item.cost }
  shrinkPotential ((← get).potentialTxs.entries.length + 1)

def pending {α : Type} (item : MempoolItem) (error : Err) : AddM Q α := do
  calling (onManager (addToPotentialTxSet item))
  throw (.returned ⟨some item.cost, .PENDING, some error⟩)

def resolveConflicts : AddM Q (List MempoolItem) := do
  let m := (← get).manager.mempool
  match checkRemovals env m removals with
  | (some .MEMPOOL_CONFLICT, conflicts) =>
    let items ← orRaised (conflictingPoolItems env m conflicts)
    if canReplace env items removals newItem.fee (newItem.feePerCost env) then
      return items.entries.map Prod.snd
    else pending newItem .MEMPOOL_CONFLICT
  | (some failReason, _) => throw (failed failReason)
  | (none, _) => return []

/-- The height that height locks are compared with. -/
def chialispHeight : ℕ :=
  if !peak.isTransactionBlock then peak.prevTransactionBlockHeight else peak.height

/-- One round of the loop over the spends: what has to be signed. -/
def checkSpend
    (coinAnnouncements puzzleAnnouncements : List Bytes32) (validateSignature : Bool) (npc : NPC) :
    AddM Q (List (Bytes × Bytes)) := do
  match removals.get? npc.coinName with
  | none => throw (.raised .keyError)
  | some coinRecord =>
    demand (npc.puzzleHash = coinRecord.coin.puzzleHash) .WRONG_PUZZLE_HASH
    let timestamp ← orRaised (assertSome peak.timestamp)
    let error ← orRaised (mempoolCheckConditionsDict env.toEnv coinRecord coinAnnouncements
      puzzleAnnouncements npc (chialispHeight peak) timestamp)
    match error with
    | some .ASSERT_HEIGHT_ABSOLUTE_FAILED => pending newItem .ASSERT_HEIGHT_ABSOLUTE_FAILED
    | some .ASSERT_HEIGHT_RELATIVE_FAILED => pending newItem .ASSERT_HEIGHT_RELATIVE_FAILED
    | some error => throw (failed error)
    | none =>
      if validateSignature then orRaised (pkmPairsForConditionsDict env.toEnv npc) else return []

def checkSpends (validateSignature : Bool) (npcList : List NPC) : AddM Q Unit := do
  let coinAnnouncements ← orRaised (coinAnnouncementsNamesForNpc env.toEnv npcList)
  let puzzleAnnouncements ← orRaised (puzzleAnnouncementsNamesForNpc env.toEnv npcList)
  let pairs ← npcList.mapM
    (checkSpend env peak newItem removals coinAnnouncements puzzleAnnouncements validateSignature)
  if validateSignature then
    demand (env.aggregateVerify (pairs.flatten.map Prod.fst) (pairs.flatten.map Prod.snd)
      newItem.spendBundle.aggregatedSignature) .BAD_AGGREGATE_SIGNATURE

/-- `pre_validate_spendbundle`: the conditions of the bundle, in strict mode. -/
def preValidateSpendbundle : NPCResult :=
  getNamePuzzleConditions env.toEnv (simpleSolutionGenerator newSpend) (limitCost env) true

def includeItem (replaced : List MempoolItem) (removalCoins : Dict Bytes32 Coin) : MempoolM Q Unit := do
  replaced.forM (Mempool.removeFromPool env)
  Mempool.addToPool env newItem newItem.additions removalCoins

/-- The part of `add_spendbundle` after the bundle's own checks. -/
def addChecked (npcResult : NPCResult)
    (spendName : Bytes32) (validateSignature : Bool) (program : Bytes) (cost : ℕ)
    (additions : List Coin) (additionAmount : ℕ) : AddM Q AddResult := do
  let removals ← findRemovals env peak additions npcResult.npcList
  let fees ← checkFees npcResult.npcList additionAmount removals.amount cost
  checkCapacity env (← get).manager.mempool fees cost
  let newItem : MempoolItem := ⟨newSpend, fees, npcResult, cost, spendName, additions,
    removals.coins.entries.map Prod.snd, program⟩
  let replaced ← resolveConflicts env newItem removals.records
  checkSpends env peak newItem removals.records validateSignature npcResult.npcList
  calling (onMempool (includeItem env newItem replaced removals.coins))
  return ⟨some cost, .SUCCESS, none⟩

def addSteps (npcResult : NPCResult) (spendName : Bytes32)
    (validateSignature : Bool) (program : Option Bytes) : AddM Q AddResult := do
  match (← get).manager.peak with
  | none => throw (failed .MEMPOOL_NOT_INITIALIZED)
  | some peak =>
    let program := program.getD (simpleSolutionGenerator newSpend).program
    let cost := calculateCostOfProgram env.toEnv program npcResult
    demand (cost ≤ limitCost env) .BLOCK_COST_EXCEEDS_MAX
    if let some error := npcResult.error then throw (failed error)
    let (additions, additionAmount) ← checkCoins env npcResult.npcList
    if (← get).manager.mempool.spends.contains spendName then
      return ⟨some cost, .SUCCESS, none⟩
    addChecked env peak newSpend npcResult spendName validateSignature program cost additions
      additionAmount

def addSpendbundle (npcResult : NPCResult) (spendName : Bytes32)
    (validateSignature : Bool) (program : Option Bytes) : ManagerM Q AddResult := .mk fun s =>
  match exec (addSteps env newSpend npcResult spendName validateSignature program) s with
  | (.ok result, s') => (.ok result, s')
  | (.error (.returned result), s') => (.ok result, s')
  | (.error (.raised error), s') => (.error error, s')

def removeSeen (bundleHash : Bytes32) (s : MempoolManager Q) : MempoolManager Q :=
  { s with seenBundleHashes := s.seenBundleHashes.erase bundleHash }

def readdItem (item : MempoolItem) : ManagerM Q Unit := do
  let result ← addSpendbundle env item.spendBundle item.npcResult item.spendBundleName false
    (some item.program)
  if result.status ≠ .SUCCESS then onManager (modify (removeSeen item.spendBundleName))

def retryItem (txsAdded : List (SpendBundle × NPCResult × Bytes32)) (item : MempoolItem) :
    ManagerM Q (List (SpendBundle × NPCResult × Bytes32)) := do
  let result ← addSpendbundle env item.spendBundle item.npcResult item.spendBundleName true
    (some item.program)
  return if result.status = .SUCCESS then
    txsAdded ++ [(item.spendBundle, item.npcResult, item.spendBundleName)] else txsAdded

def rebuild : ManagerM Q (List (SpendBundle × NPCResult × Bytes32)) := do
  let oldPool := (← get).manager.mempool
  onManager (modify fun s => { s with peak := some peak, mempool := .new (mempoolMaxTotalCost env) })
  (oldPool.spends.entries.map Prod.snd).forM (readdItem env)
  let potentialTxsCopy := (← get).manager.potentialTxs
  onManager (modify fun s => { s with potentialTxs := .empty })
  let txsAdded ← (potentialTxsCopy.entries.map Prod.snd).foldlM (retryItem env) []
  -- the log line at the end asks for the minimum fee
  let _ ← (← get).manager.mempool.getMinFeeRate env 100000
  return txsAdded

def newPeak (newPeak : Option BlockRecord) : ManagerM Q (List (SpendBundle × NPCResult × Bytes32)) := do
  match newPeak with
  | none => return []
  | some peak =>
    match peak.timestamp with
    | none => return []
    | some timestamp =>
      if (← get).manager.peak = some peak then return []
      else if timestamp ≤ env.constants.initialFreezeEndTimestamp then return []
      else rebuild env peak

/-- The loop over the items: the first item that does not fit ends it. -/
def chooseItems : ℕ → ℕ → List MempoolItem → List MempoolItem
  | _, _, [] => []
  | costSum, feeSum, item :: items =>
    if item.cost + costSum ≤ limitCost env ∧ item.fee + feeSum ≤ env.constants.maxCoinAmount then
      item :: chooseItems (costSum + item.cost) (feeSum + item.fee) items
    else []

def Mempool.byFallingFee : List MempoolItem :=
  m.sortedSpends.entries.reverse.flatMap fun bucket => bucket.2.entries.map Prod.snd

/-- The bundle for the next block, with the coins that it creates and spends. -/
def createBundleFromMempool (s : MempoolManager Q) (lastTbHeaderHash : Bytes32) :
    Except PyError (Option (SpendBundle × List Coin × List Coin)) := do
  if s.peak.map BlockRecord.headerHash ≠ some lastTbHeaderHash ∨ env.time ≤ env.constants.initialFreezeEndTimestamp then
    return none
  let items := chooseItems env 0 0 s.mempool.byFallingFee
  let removals := items.flatMap MempoolItem.removals
  let additions := items.flatMap MempoolItem.additions
  if items.length > 0 then do
    let agg := SpendBundle.aggregateBundles env (items.map MempoolItem.spendBundle)
    let aggAdditions ← agg.additions env
    pyAssert (sameSet aggAdditions additions)
    pyAssert (sameSet agg.removals removals)
    return some (agg, additions, removals)
  else return none

end

/-- The loops over the items that stop once `limit` of them are found; `isMatch` is the filter. -/
def itemsNotInFilterFrom (isMatch : Bytes32 → Bool) (limit : ℤ) : ℤ → List MempoolItem → List MempoolItem
  | _, [] => []
  | counter, item :: rest =>
    if counter = limit then []
    else if isMatch item.spendBundleName then itemsNotInFilterFrom isMatch limit counter rest
    else item :: itemsNotInFilterFrom isMatch limit (counter + 1) rest

def getItemsNotInFilter (s : MempoolManager Q) (isMatch : Bytes32 → Bool) (limit : ℤ) : List MempoolItem :=
  itemsNotInFilterFrom isMatch limit 0 (s.mempool.inOrder.map Prod.snd)

end SectorChain
