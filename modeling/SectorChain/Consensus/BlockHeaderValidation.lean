import SectorChain.Consensus.Env

/-!
# Header validation

The checks that tie a header to the chain and to the body of its block.
-/

namespace SectorChain

open Lib

/-- An exception, or an error code that is returned. -/
inductive Exit where
  | raised (error : PyError)
  | rejected (error : Err)
deriving DecidableEq, Repr

def orRaise {α : Type} (x : Except PyError α) : Except Exit α := x.mapError .raised

def require (ok : Bool) (error : Err) : Except Exit Unit :=
  if ok then .ok () else .error (.rejected error)

def rejectSome : Option Err → Except Exit Unit
  | some error => .error (.rejected error)
  | none => .ok ()

def encodedFilter (env : Env) (additions : List Coin) (removals : List Bytes32) : Bytes :=
  env.bip158 (additions.map (fun coin => coin.puzzleHash.toBytes) ++ removals.map SizedBytes.toBytes)

/-- The header of a block (`generator_tools.py`). -/
def getBlockHeader (env : Env) (block : FullBlock) (txAdditionCoins : List Coin)
    (removalsNames : List Bytes32) : Except PyError HeaderBlock := do
  let rewardCoins ← block.getIncludedRewardCoins
  let filter := if block.isTransactionBlock then
      encodedFilter env (txAdditionCoins ++ rewardCoins) removalsNames
    else env.bip158 []
  return ⟨block.finishedSubSlots, block.rewardChainBlock, block.proofs, block.foliage,
    block.foliageTransactionBlock, filter, block.transactionsInfo⟩

section

variable (env : Env) (blocks : BlockchainInterface)

variable (headerBlock : HeaderBlock) (checkFilter : Bool)

/-- Check 15: the block is a transaction block exactly when it is due. -/
def checkIsTransactionBlock (expectedSubSlotIters : ℕ) :
    Option BlockRecord → Except Exit Unit
  | none => require headerBlock.foliage.foliageTransactionBlockHash.isSome .INVALID_IS_TRANSACTION_BLOCK
  | some prevB => do
    let curr ← orRaise (blocks.lastTransactionBlock (prevB.height + 1) prevB)
    let due := env.signagePointAfter blocks.blockRecords headerBlock expectedSubSlotIters curr
    require (due == headerBlock.foliage.foliageTransactionBlockHash.isSome)
      .INVALID_IS_TRANSACTION_BLOCK
    require (due == headerBlock.foliage.foliageTransactionBlockSignature.isSome)
      .INVALID_IS_TRANSACTION_BLOCK

variable (foliageTransactionBlock : FoliageTransactionBlock) (expectedDifficulty expectedSubSlotIters : ℕ)

/-- Checks 24a and 24b: the hash of the previous transaction block. -/
def checkPrevTransactionBlock :
    Option BlockRecord → Except Exit Unit
  | none =>
    require (foliageTransactionBlock.prevTransactionBlockHash = env.constants.genesisChallenge)
      .INVALID_PREV_BLOCK_HASH
  | some prevB => do
    let currB ← orRaise (blocks.lastTransactionBlock (prevB.height + 1) prevB)
    require (foliageTransactionBlock.prevTransactionBlockHash = currB.headerHash)
      .INVALID_PREV_BLOCK_HASH

/-- Check 26b: the timestamp is above that of the previous transaction block. -/
def checkTimestamp :
    Option BlockRecord → Except Exit Unit
  | none => .ok ()
  | some _ => do
    let prevTransactionB ←
      orRaise (blocks.blockRecord foliageTransactionBlock.prevTransactionBlockHash)
    match prevTransactionB.timestamp with
    | none => .error (.raised .assertionError)
    | some timestamp =>
      require (timestamp < foliageTransactionBlock.timestamp) .TIMESTAMP_TOO_FAR_IN_PAST

/-- Checks 23 to 26, on the foliage of a transaction block. -/
def checkFoliageTransactionBlock
    (prevB : Option BlockRecord) (foliageTransactionBlock : FoliageTransactionBlock) :
    Except Exit Unit := do
  require (headerBlock.foliage.foliageTransactionBlockHash =
    some (env.stdHash foliageTransactionBlock.stream)) .INVALID_FOLIAGE_BLOCK_HASH
  checkPrevTransactionBlock env blocks foliageTransactionBlock prevB
  if checkFilter then
    require (foliageTransactionBlock.filterHash = env.stdHash headerBlock.transactionsFilter)
      .INVALID_TRANSACTIONS_FILTER_HASH
  require (foliageTransactionBlock.timestamp ≤ env.time + env.constants.maxFutureTime)
    .TIMESTAMP_TOO_FAR_IN_FUTURE
  checkTimestamp blocks foliageTransactionBlock prevB

/-- Checks 22 to 26: the transaction foliage is present when the foliage says so. -/
def checkFoliagePresence (prevB : Option BlockRecord) : Except Exit Unit := do
  require (headerBlock.foliage.foliageTransactionBlockHash.isSome ==
    headerBlock.foliageTransactionBlock.isSome) .INVALID_FOLIAGE_BLOCK_PRESENCE
  require (headerBlock.foliage.foliageTransactionBlockSignature.isSome ==
    headerBlock.foliageTransactionBlock.isSome) .INVALID_FOLIAGE_BLOCK_PRESENCE
  match headerBlock.foliageTransactionBlock with
  | none => return
  | some foliageTransactionBlock =>
    checkFoliageTransactionBlock env blocks headerBlock checkFilter prevB foliageTransactionBlock

/-- Check 1: only a block on the genesis challenge has no previous block. -/
def checkPrevBlock :
    Option BlockRecord → Except Exit Unit
  | some _ => return
  | none => do
    require (headerBlock.foliage.prevBlockHash = env.constants.genesisChallenge)
      .INVALID_PREV_BLOCK_HASH
    orRaise (pyAssert (expectedDifficulty = env.constants.difficultyStarting))
    orRaise (pyAssert (expectedSubSlotIters = env.constants.subSlotItersStarting))

/-- The number of iterations required of the block. -/
def validateUnfinishedHeaderBlock : Except Exit ℕ := do
  let prevB := blocks.tryBlockRecord headerBlock.foliage.prevBlockHash
  checkPrevBlock env headerBlock expectedDifficulty expectedSubSlotIters prevB
  rejectSome (← orRaise
    (env.headerChecks .slots blocks.blockRecords headerBlock expectedDifficulty expectedSubSlotIters))
  checkIsTransactionBlock env blocks headerBlock expectedSubSlotIters prevB
  rejectSome (← orRaise
    (env.headerChecks .signatures blocks.blockRecords headerBlock expectedDifficulty expectedSubSlotIters))
  checkFoliagePresence env blocks headerBlock checkFilter prevB
  return env.requiredIters blocks.blockRecords headerBlock expectedDifficulty expectedSubSlotIters

/-- Checks 27 and 28: height and weight. -/
def checkHeightAndWeight (expectedDifficulty : ℕ) : Except Exit Unit :=
  if headerBlock.rewardChainBlock.height = 0 then do
    require (headerBlock.rewardChainBlock.weight = env.constants.difficultyStarting) .INVALID_WEIGHT
    require (headerBlock.foliage.prevBlockHash = env.constants.genesisChallenge)
      .INVALID_PREV_BLOCK_HASH
  else do
    let prevB ← orRaise (blocks.blockRecord headerBlock.foliage.prevBlockHash)
    require (headerBlock.rewardChainBlock.height = prevB.height + 1) .INVALID_HEIGHT
    require (headerBlock.rewardChainBlock.weight = prevB.weight + expectedDifficulty) .INVALID_WEIGHT

def validateFinishedHeaderBlock : Except Exit ℕ := do
  let requiredIters ← validateUnfinishedHeaderBlock env blocks headerBlock checkFilter
    expectedDifficulty expectedSubSlotIters
  checkHeightAndWeight env blocks headerBlock expectedDifficulty
  rejectSome (← orRaise
    (env.headerChecks .infusion blocks.blockRecords headerBlock expectedDifficulty expectedSubSlotIters))
  -- 33. the reward chain agrees that it is a transaction block
  require (headerBlock.foliage.foliageTransactionBlockHash.isSome ==
    headerBlock.rewardChainBlock.isTransactionBlock) .INVALID_FOLIAGE_BLOCK_PRESENCE
  return requiredIters

end

end SectorChain
