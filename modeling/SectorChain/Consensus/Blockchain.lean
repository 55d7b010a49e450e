import SectorChain.Consensus.BlockBodyValidation

/-!
# The blockchain

`blockchain.py`: a block is validated, stored, and made the peak if it is the heaviest one.
-/

namespace SectorChain

open Lib

inductive ReceiveBlockResult where
  | NEW_PEAK
  | ADDED_AS_ORPHAN
  | INVALID_BLOCK
  | ALREADY_HAVE_BLOCK
  | DISCONNECTED_BLOCK
deriving DecidableEq, Repr

structure PreValidationResult where
  error : Option Err
  requiredIters : Option ℕ
  npcResult : Option NPCResult
deriving DecidableEq

def Node.hashAtHeight (s : Node) (height : ℕ) : Except PyError Bytes32 :=
  match s.heightToHash.get? height with
  | some h => .ok h
  | none => .error .keyError

def Node.getPeak (s : Node) : Except PyError (Option BlockRecord) :=
  match s.peakHeight with
  | none => .ok none
  | some height => do
    let h ← s.hashAtHeight height
    let r ← s.blocks.blockRecord h
    return some r

def addBlockRecord (blockRecord : BlockRecord) : NodeM Unit := modify fun s =>
  let cached := (s.heightsInCache.get? blockRecord.height).getD []
  { s with
    blockRecords := s.blockRecords.set blockRecord.headerHash blockRecord
    heightsInCache := s.heightsInCache.set blockRecord.height (cached.insert blockRecord.headerHash) }

/-- Enters a block of the new chain into the maps from heights. -/
def recordHeight (record : BlockRecord) : NodeM Unit := modify fun s =>
  { s with
    heightToHash := s.heightToHash.set record.height record.headerHash
    subEpochSummaries := match record.subEpochSummaryIncluded with
      | some ses => s.subEpochSummaries.set record.height ses
      | none => s.subEpochSummaries }

def loadChainFromStore (env : Env) : NodeM Unit := do
  let (heightToHash, subEpochSummaries) ← getPeakHeightDicts
  modify fun s => { s with
    heightToHash := heightToHash
    subEpochSummaries := subEpochSummaries
    blockRecords := .empty
    heightsInCache := .empty }
  let (blockRecords, peak) ← getBlockRecordsCloseToPeak env.constants.blocksCacheSize
  blockRecords.entries.forM fun e => addBlockRecord e.2
  if blockRecords.entries.length = 0 then do
    pyAssert peak.isNone
    modify fun s => { s with peakHeight := none }
  else do
    let peak ← assertSome peak
    let s ← get
    let record ← s.blocks.blockRecord peak
    modify fun s => { s with peakHeight := some record.height }
    pyAssert (s.heightToHash.entries.length = record.height + 1)

section

variable (env : Env)

def generatorArg (refBlock : Option FullBlock) : Except PyError GeneratorArg := do
  let refBlock ← assertSome refBlock
  match refBlock.transactionsGenerator with
  | none => throw .valueError
  | some generator => return ⟨refBlock.height, generator⟩

def blockAtHeight (height : ℕ) : NodeM (Option FullBlock) := do
  let headerHash ← (← get).hashAtHeight height
  getFullBlock headerHash

/-- The blocks before `curr` among `additionalBlocks`, by height, and the oldest one. -/
def additionalChainFrom (additionalBlocks : Dict Bytes32 FullBlock) :
    ℕ → FullBlock → Dict ℕ FullBlock → Except PyError (FullBlock × Dict ℕ FullBlock)
  | 0, _, _ => .error .doesNotReturn
  | fuel + 1, curr, reorgChain =>
    match additionalBlocks.get? curr.prevHeaderHash with
    | none => .ok (curr, reorgChain)
    | some prev => do
      pyAssert (curr.height = prev.height + 1)
      additionalChainFrom additionalBlocks fuel prev (reorgChain.set prev.height prev)

def reorgChainFrom (fork : ℤ) : ℕ → FullBlock → Dict ℕ FullBlock → NodeM (Dict ℕ FullBlock)
  | 0, _, _ => throw .doesNotReturn
  | fuel + 1, curr, reorgChain =>
    if curr.height > fork ∧ curr.height > 0 then do
      let prev ← getFullBlock curr.prevHeaderHash
      let prev ← assertSome prev
      reorgChainFrom fork fuel prev (reorgChain.set prev.height prev)
    else return reorgChain

variable (blocks : BlockchainInterface) (block : FullBlock) (forkPointWithPeak : Option ℕ)
  (npcResult : Option NPCResult)

/-- The ancestors of a block down to the fork with the peak, by height. -/
def reorgChainOf (additionalBlocks : Dict Bytes32 FullBlock) : NodeM (Dict ℕ FullBlock) := do
  let (curr, reorgChain) ← additionalChainFrom additionalBlocks (block.height + 1) block .empty
  let s ← get
  match ← s.getPeak with
  | none => return reorgChain
  | some peak =>
    if s.blockRecords.contains curr.prevHeaderHash then
      let prevBlockRecord ← getBlockRecord curr.prevHeaderHash
      let prevBlock ← getFullBlock curr.prevHeaderHash
      let prevBlock ← assertSome prevBlock
      let prevBlockRecord ← assertSome prevBlockRecord
      let fork ← findForkPointInChain s.blocks peak prevBlockRecord
      reorgChainFrom fork (prevBlock.height + 1) prevBlock
        (reorgChain.set prevBlock.height prevBlock)
    else return reorgChain

/-- The block at a height of `reorgChain`, or else of the map from heights to hashes. -/
def reorgBlockAtHeight (reorgChain : Dict ℕ FullBlock) (height : ℕ) : NodeM (Option FullBlock) :=
  match reorgChain.get? height with
  | some refBlock => pure (some refBlock)
  | none => blockAtHeight height

variable (s : Node) (blockRecord : BlockRecord)

/-- Whether the parent of a block is the block at its height in the map. -/
def extendsHeightMap (block : FullBlock) : Except PyError Bool :=
  match s.blockRecords.get? block.prevHeaderHash with
  | none => .ok false
  | some prev => do
    let headerHash ← s.hashAtHeight prev.height
    return headerHash = block.prevHeaderHash

/-- The generator of a block with the generators it refers to by height. -/
def getBlockGenerator (additionalBlocks : Dict Bytes32 FullBlock) : NodeM (Option BlockGenerator) := do
  match block.transactionsGenerator with
  | none =>
    pyAssert (block.transactionsGeneratorRefList.length = 0)
    return none
  | some program =>
    if block.transactionsGeneratorRefList = [] then return some ⟨program, []⟩
    let mainChain ← extendsHeightMap (← get) block
    if mainChain then
      let args ← block.transactionsGeneratorRefList.mapM fun refHeight => do
        let refBlock ← blockAtHeight refHeight
        generatorArg refBlock
      return some ⟨program, args⟩
    else
      let reorgChain ← reorgChainOf block additionalBlocks
      let args ← block.transactionsGeneratorRefList.mapM fun refHeight => do
        let refBlock ← reorgBlockAtHeight reorgChain refHeight
        generatorArg refBlock
      return some ⟨program, args⟩

def getGenerator : NodeM (Option BlockGenerator) := getBlockGenerator block .empty

def txOfResult : Option NPCResult → Except PyError (List Bytes32 × List Coin)
  | some npcResult => txRemovalsAndAdditions npcResult.npcList
  | none => .ok ([], [])

def npcResultOfGenerator : NodeM NPCResult := do
  let generator ← getGenerator block
  let generator ← assertSome generator
  return getNamePuzzleConditions env generator env.constants.maxBlockCostClvm false

def getTxRemovalsAndAdditions : NodeM (List Bytes32 × List Coin) :=
  if block.isTransactionBlock && block.transactionsGenerator.isSome then
    match npcResult with
    | some npcResult => liftM (txRemovalsAndAdditions npcResult.npcList)
    | none => do
      let npcResult ← npcResultOfGenerator env block
      txRemovalsAndAdditions npcResult.npcList
  else return ([], [])

/-- The height of the last transaction block from `curr` on, or 0. -/
def prevTransactionBlockHeightFrom (blocks : BlockchainInterface) : ℕ → Option BlockRecord →
    Except PyError ℕ
  | 0, _ => .error .doesNotReturn
  | _ + 1, none => .ok 0
  | fuel + 1, some curr =>
    if curr.isTransactionBlock then .ok curr.height
    else prevTransactionBlockHeightFrom blocks fuel (blocks.tryBlockRecord curr.prevHash)

def subEpochSummaryIncluded : Except PyError (Option SubEpochSummary) :=
  match (block.finishedSubSlots.filterMap EndOfSubSlotBundle.subepochSummaryHash).getLast? with
  | none => .ok none
  | some foundSesHash => do
    let prevB ← assertSome (blocks.tryBlockRecord block.prevHeaderHash)
    let slot ← assertSome block.finishedSubSlots.head?
    let prevPrevB ← blocks.blockRecord prevB.prevHash
    let ses ← env.makeSubEpochSummary blocks block.height prevPrevB slot.newDifficulty
      slot.newSubSlotIters
    pyAssert (env.stdHash ses.stream = foundSesHash)
    return some ses

def blockToBlockRecord (requiredIters : ℕ) (block : FullBlock) : Except PyError BlockRecord := do
  let prevB := blocks.tryBlockRecord block.prevHeaderHash
  if block.height > 0 then pyAssert prevB.isSome
  let slotData ← env.recordSlotData blocks requiredIters block
  let ses ← subEpochSummaryIncluded env blocks block
  let prevTransactionBlockHeight ← prevTransactionBlockHeightFrom blocks (block.height + 1) prevB
  return {
    headerHash := block.headerHash env.stdHash
    prevHash := block.prevHeaderHash
    height := block.height
    weight := block.weight
    poolPuzzleHash := block.foliage.foliageBlockData.poolTarget.puzzleHash
    farmerPuzzleHash := block.foliage.foliageBlockData.farmerRewardPuzzleHash
    prevTransactionBlockHeight := prevTransactionBlockHeight
    timestamp := block.foliageTransactionBlock.map FoliageTransactionBlock.timestamp
    prevTransactionBlockHash := block.foliageTransactionBlock.map FoliageTransactionBlock.prevTransactionBlockHash
    fees := block.transactionsInfo.map TransactionsInfo.fees
    rewardClaimsIncorporated := block.transactionsInfo.map TransactionsInfo.rewardClaimsIncorporated
    subEpochSummaryIncluded := ses
    slotData := slotData }

def atFork (forkHeight : ℤ) (curr : Bytes32) : Except PyError Bool :=
  if forkHeight < 0 then .ok false
  else do
    let headerHash ← s.hashAtHeight forkHeight.toNat
    return curr = headerHash

/-- The blocks from `curr` back to the fork, without the block at the fork. -/
def blocksToAddFrom (forkHeight : ℤ) : ℕ → Bytes32 → NodeM (List (FullBlock × BlockRecord))
  | 0, _ => throw .doesNotReturn
  | fuel + 1, curr => do
    if ← atFork (← get) forkHeight curr then return []
    let fetchedFullBlock ← getFullBlock curr
    let fetchedBlockRecord ← getBlockRecord curr
    let fetchedFullBlock ← assertSome fetchedFullBlock
    let fetchedBlockRecord ← assertSome fetchedBlockRecord
    if fetchedFullBlock.height = 0 then return [(fetchedFullBlock, fetchedBlockRecord)]
    let older ← blocksToAddFrom forkHeight fuel fetchedBlockRecord.prevHash
    return (fetchedFullBlock, fetchedBlockRecord) :: older

def applyBlock (npcResult : Option NPCResult) (fetched : FullBlock × BlockRecord) : NodeM Unit := do
  if fetched.2.isTransactionBlock then
    let (txRemovals, txAdditions) ← getTxRemovalsAndAdditions env fetched.1
      (if fetched.2.headerHash = blockRecord.headerHash then npcResult else none)
    newBlock env fetched.1 txAdditions txRemovals

def rollbackSubEpochSummaries (height : ℤ) : NodeM Unit := modify fun s =>
  { s with subEpochSummaries := s.subEpochSummaries.filter fun h _ => h ≤ height }

def reorgHeight (blockRecord peak : BlockRecord) (forkPointWithPeak : Option ℕ) : Except PyError ℤ :=
  if blockRecord.prevHash = peak.headerHash then .ok peak.height
  else match forkPointWithPeak with
    | some fork => .ok fork
    | none => findForkPointInChain blocks blockRecord peak

/-- Fork height, new peak height and the new part of the chain, or nothing. -/
def reconsiderPeak (genesis : Bool) (forkPointWithPeak : Option ℕ)
    (npcResult : Option NPCResult) : NodeM (Option ℕ × Option ℕ × List BlockRecord) := do
  let peak ← (← get).getPeak
  if genesis then
    match peak with
    | some _ => return (none, none, [])
    | none =>
      let block ← getFullBlock blockRecord.headerHash
      let block ← assertSome block
      let (txRemovals, txAdditions) ← txOfResult npcResult
      newBlock env block txAdditions txRemovals
      setPeak blockRecord.headerHash
      return (some 0, some 0, [blockRecord])
  else
    let peak ← assertSome peak
    if blockRecord.weight > peak.weight then
      let forkHeight ← reorgHeight (← get).blocks blockRecord peak forkPointWithPeak
      if blockRecord.prevHash ≠ peak.headerHash then rollbackToBlock env forkHeight
      rollbackSubEpochSummaries forkHeight
      let blocksToAdd ← blocksToAddFrom forkHeight (blockRecord.height + 1) blockRecord.headerHash
      blocksToAdd.reverse.forM (applyBlock env blockRecord npcResult)
      setPeak blockRecord.headerHash
      return (some forkHeight.toNat, some blockRecord.height, blocksToAdd.reverse.map Prod.snd)
    else return (none, none, [])

/-- Stores a block and reconsiders the peak in one transaction, then updates the memory. -/
def addBlock (forkPointWithPeak : Option ℕ) (npcResult : Option NPCResult) : NodeM (Option ℕ) :=
  let headerHash := block.headerHash env.stdHash
  tryCatch (do
    Node.beginTransaction
    addFullBlock headerHash block blockRecord
    let (forkHeight, peakHeight, records) ←
      reconsiderPeak env blockRecord (block.height = 0) forkPointWithPeak npcResult
    Node.commitTransaction
    addBlockRecord blockRecord
    records.forM recordHeight
    if peakHeight.isSome then modify fun s => { s with peakHeight := peakHeight }
    return forkHeight)
  fun e => do
    rollbackCacheBlock headerHash
    Node.rollbackTransaction
    throw e

/-- The generator of a block, or `none` if a referenced block has no generator. -/
def tryGetGenerator : NodeM (Option (Option BlockGenerator)) :=
  tryCatch (some <$> getGenerator block) fun e =>
    match e with
    | .valueError => return none
    | e => throw e

/-- An error code if a referenced block has no generator. -/
def runGeneratorOf : NodeM (Except Err (Option NPCResult)) := do
  if block.isTransactionBlock && block.transactionsGenerator.isSome then
    match ← tryGetGenerator block with
    | none => return .error .GENERATOR_REF_HAS_NO_GENERATOR
    | some generator =>
      let generator ← assertSome generator
      let info ← assertSome block.transactionsInfo
      return .ok (some (getNamePuzzleConditions env generator
        (min env.constants.maxBlockCostClvm info.cost) false))
  else return .ok none

def headerOf : Except PyError HeaderBlock := do
  let (removals, txAdditions) ← txOfResult npcResult
  getBlockHeader env block txAdditions removals

def validateHeader (checkFilter : Bool) (difficulty subSlotIters : ℕ) : Except Exit ℕ := do
  let headerBlock ← orRaise (headerOf env block npcResult)
  validateFinishedHeaderBlock env blocks headerBlock checkFilter difficulty subSlotIters

def nextSubSlotItersAndDifficulty : Except PyError (ℕ × ℕ) := do
  let prevB ← if block.height = 0 then .ok none else some <$> blocks.blockRecord block.prevHeaderHash
  env.getNextSubSlotItersAndDifficulty (block.finishedSubSlots.length > 0) prevB blocks

def validateDirectly : BodyM (Option NPCResult × ℕ) := do
  let blocks := (← get).blocks
  let (subSlotIters, difficulty) ← orRaise (nextSubSlotItersAndDifficulty env blocks block)
  match ← raising (runGeneratorOf env block) with
  | .error code => throw (.rejected code)
  | .ok npcResult =>
    let requiredIters ← validateHeader env blocks block npcResult false difficulty subSlotIters
    return (npcResult, requiredIters)

def usePreValidation (result : PreValidationResult) : Except Exit (Option NPCResult × ℕ) := do
  orRaise (pyAssert result.error.isNone)
  let requiredIters ← orRaise (assertSome result.requiredIters)
  return (result.npcResult, requiredIters)

/-- The checks before anything is validated: a result if the block is not looked at. -/
def checkConnected (block : FullBlock) : Except PyError (Option (ReceiveBlockResult × Option Err)) := do
  if s.blockRecords.contains (block.headerHash env.stdHash) then
    return some (.ALREADY_HAVE_BLOCK, none)
  if block.height = 0 then return none
  if !s.blockRecords.contains block.prevHeaderHash then
    return some (.DISCONNECTED_BLOCK, some .INVALID_PREV_BLOCK_HASH)
  let prev ← s.blocks.blockRecord block.prevHeaderHash
  if prev.height + 1 ≠ block.height then return some (.INVALID_BLOCK, some .INVALID_HEIGHT)
  return none

def generatorResultOf : Option PreValidationResult → BodyM (Option NPCResult × ℕ)
  | none => validateDirectly env block
  | some result => liftM (usePreValidation result)

def validateBodyAndRecord (requiredIters : ℕ) : BodyM (Option NPCResult × BlockRecord) := do
  let s ← get
  let peak ← orRaise s.getPeak
  let (errorCode, _) ← raising (validateBlockBody env getGenerator peak block block.height npcResult
    forkPointWithPeak)
  rejectSome errorCode
  let blockRecord ← orRaise (blockToBlockRecord env s.blocks requiredIters block)
  return (npcResult, blockRecord)

def validateBlock (preValidationResult : Option PreValidationResult)
    (forkPointWithPeak : Option ℕ) : BodyM (Option NPCResult × BlockRecord) := do
  let (npcResult, requiredIters) ← generatorResultOf env block preValidationResult
  validateBodyAndRecord env block forkPointWithPeak npcResult requiredIters

def addValidated :
    Option Err × Option (Option NPCResult × BlockRecord) → NodeM (ReceiveBlockResult × Option Err × Option ℕ)
  | (errorCode, none) => return (.INVALID_BLOCK, errorCode, none)
  | (_, some (npcResult, blockRecord)) => do
    match ← addBlock env block blockRecord forkPointWithPeak npcResult with
    | some forkHeight => return (.NEW_PEAK, none, some forkHeight)
    | none => return (.ADDED_AS_ORPHAN, none, none)

def receiveBlock (preValidationResult : Option PreValidationResult)
    (forkPointWithPeak : Option ℕ) : NodeM (ReceiveBlockResult × Option Err × Option ℕ) := do
  match ← checkConnected env (← get) block with
  | some (result, errorCode) => return (result, errorCode, none)
  | none =>
    let validated ← settle (some <$> validateBlock env block preValidationResult forkPointWithPeak)
    addValidated env block forkPointWithPeak validated

end

end SectorChain
