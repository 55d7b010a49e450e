import SectorChain.Consensus.Header.Blocks

/-!
# Deficits, sub-epochs and difficulty

`deficit.py`, `difficulty_adjustment.py` and `make_sub_epoch_summary`.
-/

namespace SectorChain.Header

open Lib

variable (blocks : Blocks) (curr : BlockRecord) (height : ℕ) (prevHeaderHash : Bytes32)

def calculateDeficit (prevB : Option BlockRecord) (overflow : Bool) (numFinishedSubSlots : ℕ) : Except PyError ℕ :=
  if height = 0 then uint8 (MIN_BLOCKS_PER_CHALLENGE_BLOCK - 1)
  else do
    let prevB ← assertSome prevB
    let prevDeficit := prevB.deficit
    if prevDeficit = MIN_BLOCKS_PER_CHALLENGE_BLOCK then
      if overflow then
        if numFinishedSubSlots > 0 then uint8 (prevDeficit - 1) else uint8 prevDeficit
      else uint8 (prevDeficit - 1)
    else if prevDeficit = 0 then
      if numFinishedSubSlots = 0 then uint8 0
      else if numFinishedSubSlots = 1 then
        if overflow then uint8 MIN_BLOCKS_PER_CHALLENGE_BLOCK else uint8 (MIN_BLOCKS_PER_CHALLENGE_BLOCK - 1)
      else uint8 (MIN_BLOCKS_PER_CHALLENGE_BLOCK - 1)
    else uint8 (prevDeficit - 1)

def heightCanBeFirstInEpoch : Bool := (height - height % SUB_EPOCH_BLOCKS) % EPOCH_BLOCKS = 0

def summarySince : Except PyError Bool :=
  blocks.walk (fun _ r => .ok (
    if r.height % SUB_EPOCH_BLOCKS > 0 then
      if r.subEpochSummaryIncluded.isSome then .done true else .back ()
    else .done r.subEpochSummaryIncluded.isSome)) () curr

def includedSince : Except PyError Bool :=
  if (height + 1) % SUB_EPOCH_BLOCKS > 1 then do
    let curr ← blocks.blockRecord prevHeaderHash
    summarySince blocks curr
  else .ok false

def canFinishSubAndFullEpoch (deficit : ℕ) (blockAtHeightIncludedSes : Bool) : Except PyError (Bool × Bool) :=
  if height < SUB_EPOCH_BLOCKS - 1 then .ok (false, false)
  else if deficit > 0 then .ok (false, false)
  else if blockAtHeightIncludedSes then .ok (false, false)
  else do
    let included ← includedSince blocks height prevHeaderHash
    if included then return (false, false)
    else
      let next ← uint32 (height + 1)
      return (true, heightCanBeFirstInEpoch next)

/-- Up to `maxNumBlocks` ancestors of `prevB` from a height on. -/
def getBlocksAtHeight (prevB : BlockRecord) (targetHeight maxNumBlocks : ℕ) : Except PyError (List BlockRecord) :=
  if blocks.heightToHash.get? prevB.height = some prevB.headerHash then
    (List.range' targetHeight maxNumBlocks).mapM fun h => do
      pyAssert (blocks.containsHeight h)
      blocks.heightToBlockRecord h
  else
    blocks.walk (fun targetBlocks r => .ok (
      if r.height < targetHeight then .done targetBlocks
      else
        let targetBlocks := if r.height < targetHeight + maxNumBlocks then r :: targetBlocks else targetBlocks
        if r.height = 0 then .done targetBlocks else .back targetBlocks)) [] prevB

/-- The last block before the summary that ends the epoch. -/
def lastBeforeSummary : BlockRecord → BlockRecord → List BlockRecord → Except PyError BlockRecord
  | currB, nextB, rest =>
    if nextB.subEpochSummaryIncluded.isSome then .ok currB
    else match rest with
      | [] => .error .indexError
      | b :: rest => lastBeforeSummary nextB b rest
  termination_by structural _ _ rest => rest

def secondTransactionBlock : Except PyError BlockRecord :=
  blocks.walk (fun found r => .ok (
    let found := if r.isTransactionBlock then found + 1 else found
    if found < 2 then .back found else .done r)) 0 curr

def getSecondToLastTransactionBlockInPreviousEpoch (lastB : BlockRecord) : Except PyError BlockRecord := do
  let heightInNextEpoch := lastB.height + 2 * MAX_SUB_SLOT_BLOCKS + MIN_BLOCKS_PER_CHALLENGE_BLOCK + 5
  let heightEpochSurpass ← uint32 (heightInNextEpoch - heightInNextEpoch % EPOCH_BLOCKS : ℕ)
  let heightPrevEpochSurpass ← uint32 (heightEpochSurpass - EPOCH_BLOCKS : ℤ)
  pyAssert (heightPrevEpochSurpass % EPOCH_BLOCKS = 0)
  pyAssert (heightInNextEpoch - heightEpochSurpass < 5 * MAX_SUB_SLOT_BLOCKS)
  if heightPrevEpochSurpass = 0 then
    match ← getBlocksAtHeight blocks lastB 0 1 with
    | [] => throw .indexError
    | b :: _ => return b
  else
    let start ← uint32 (heightPrevEpochSurpass - MAX_SUB_SLOT_BLOCKS - 1 : ℤ)
    let fetchedBlocks ← getBlocksAtHeight blocks lastB start
      (3 * MAX_SUB_SLOT_BLOCKS + MIN_BLOCKS_PER_CHALLENGE_BLOCK + 3)
    -- the block before the multiple of the epoch length, and the one at it
    match fetchedBlocks[MAX_SUB_SLOT_BLOCKS]? with
    | none => throw .indexError
    | some currB =>
      pyAssert (currB.height + 1 = heightPrevEpochSurpass)
      match fetchedBlocks[MAX_SUB_SLOT_BLOCKS + 1]? with
      | none => throw .indexError
      | some nextB =>
        pyAssert (nextB.height = heightPrevEpochSurpass)
        -- the first round reads the block `nextB` again
        let currB ← lastBeforeSummary currB nextB (fetchedBlocks.drop (MAX_SUB_SLOT_BLOCKS + 1))
        secondTransactionBlock blocks currB

def lastTransactionBlockBy (signagePointTotalIters : ℕ) (curr : BlockRecord) : Except PyError BlockRecord :=
  blocks.backTo (fun r => r.totalIters ≤ signagePointTotalIters && r.isTransactionBlock) curr

/-- Whether the value changes: a new slot starts and an epoch ends. -/
def epochEnds (height deficit : ℕ) (blockAtHeightIncludedSes newSlot skipEpochCheck : Bool) : Except PyError Bool :=
  if skipEpochCheck then .ok true
  else do
    let (_, canFinishEpoch) ← canFinishSubAndFullEpoch blocks height prevHeaderHash deficit blockAtHeightIncludedSes
    return newSlot && canFinishEpoch

/-- The new sub-slot iterations at the end of an epoch. -/
def adjustedSubSlotIters (lastBlockPrev lastBlockCurr : BlockRecord) : Except PyError ℕ := do
  let currTime ← assertSome lastBlockCurr.timestamp
  let prevTime ← assertSome lastBlockPrev.timestamp
  let quotient ← floorDiv (SUB_SLOT_TIME_TARGET * ((lastBlockCurr.totalIters : ℤ) - lastBlockPrev.totalIters))
    ((currTime : ℤ) - prevTime)
  let newSsiPrecise ← uint64 quotient
  let maxSsi ← uint64 (DIFFICULTY_CHANGE_MAX_FACTOR * lastBlockCurr.subSlotIters : ℕ)
  let minSsi ← uint64 (lastBlockCurr.subSlotIters / DIFFICULTY_CHANGE_MAX_FACTOR : ℕ)
  let newSsiPrecise ← uint64 (
    if newSsiPrecise ≥ lastBlockCurr.subSlotIters then min newSsiPrecise maxSsi
    else max (max NUM_SPS_SUB_SLOT newSsiPrecise) minSsi : ℕ)
  let newSsi := truncateToSignificantBits newSsiPrecise SIGNIFICANT_BITS
  let newSsi ← uint64 (newSsi - newSsi % NUM_SPS_SUB_SLOT : ℕ)
  pyAssert (countSignificantBits newSsi ≤ SIGNIFICANT_BITS)
  return newSsi

/-- The starting value below the height `first`, then the current one, or the adjusted one at the end of an epoch. -/
def nextValue (first starting current : ℕ) (adjusted : BlockRecord → BlockRecord → BlockRecord → Except PyError ℕ)
    (height deficit : ℕ) (blockAtHeightIncludedSes newSlot : Bool) (signagePointTotalIters : ℕ)
    (skipEpochCheck : Bool) : Except PyError ℕ := do
  let nextHeight ← uint32 (height + 1)
  if nextHeight < first then uint64 starting
  else if !blocks.containsBlock prevHeaderHash then throw .valueError
  else do
    let prevB ← blocks.blockRecord prevHeaderHash
    let changes ← epochEnds blocks prevHeaderHash height deficit blockAtHeightIncludedSes newSlot skipEpochCheck
    if !changes then return current
    else
      let lastBlockPrev ← getSecondToLastTransactionBlockInPreviousEpoch blocks prevB
      let lastBlockCurr ← lastTransactionBlockBy blocks signagePointTotalIters prevB
      adjusted lastBlockPrev lastBlockCurr prevB

def getNextSubSlotIters (height currSubSlotIters deficit : ℕ) (blockAtHeightIncludedSes newSlot : Bool)
    (signagePointTotalIters : ℕ) (skipEpochCheck : Bool) : Except PyError ℕ :=
  nextValue blocks prevHeaderHash EPOCH_BLOCKS SUB_SLOT_ITERS_STARTING currSubSlotIters
    (fun lastBlockPrev lastBlockCurr _ => adjustedSubSlotIters lastBlockPrev lastBlockCurr) height deficit
    blockAtHeightIncludedSes newSlot signagePointTotalIters skipEpochCheck

def adjustedDifficulty (lastBlockPrev lastBlockCurr prevB : BlockRecord) : Except PyError ℕ := do
  let currTime ← assertSome lastBlockCurr.timestamp
  let prevTime ← assertSome lastBlockPrev.timestamp
  let actualEpochTime ← uint64 ((currTime : ℤ) - prevTime)
  let prevPrevB ← blocks.blockRecord prevB.prevHash
  let oldDifficulty ← uint64 ((prevB.weight : ℤ) - prevPrevB.weight)
  let quotient ← floorDiv (((lastBlockCurr.weight : ℤ) - lastBlockPrev.weight) * SUB_SLOT_TIME_TARGET)
    (SLOT_BLOCKS_TARGET * actualEpochTime)
  let newDifficultyPrecise ← uint64 quotient
  let maxDiff ← uint64 (DIFFICULTY_CHANGE_MAX_FACTOR * oldDifficulty : ℕ)
  let minDiff ← uint64 (oldDifficulty / DIFFICULTY_CHANGE_MAX_FACTOR : ℕ)
  let newDifficultyPrecise ← uint64 (
    if newDifficultyPrecise ≥ oldDifficulty then min newDifficultyPrecise maxDiff
    else max (max 1 newDifficultyPrecise) minDiff : ℕ)
  let newDifficulty := truncateToSignificantBits newDifficultyPrecise SIGNIFICANT_BITS
  pyAssert (countSignificantBits newDifficulty ≤ SIGNIFICANT_BITS)
  uint64 newDifficulty

def getNextDifficulty (height currentDifficulty deficit : ℕ) (blockAtHeightIncludedSes newSlot : Bool)
    (signagePointTotalIters : ℕ) (skipEpochCheck : Bool) : Except PyError ℕ :=
  nextValue blocks prevHeaderHash (EPOCH_BLOCKS - 3 * MAX_SUB_SLOT_BLOCKS) DIFFICULTY_STARTING currentDifficulty
    (adjustedDifficulty blocks) height deficit blockAtHeightIncludedSes newSlot signagePointTotalIters skipEpochCheck

def difficultyOf (b : BlockRecord) : Except PyError ℕ :=
  if b.height ≠ 0 then do
    let prevB ← blocks.blockRecord b.prevHash
    uint64 ((b.weight : ℤ) - prevB.weight)
  else uint64 b.weight

def getNextSubSlotItersAndDifficulty (isFirstInSubSlot : Bool) (prevB : Option BlockRecord) (blocks : Blocks) :
    Except PyError (ℕ × ℕ) :=
  match prevB with
  | none => .ok (SUB_SLOT_ITERS_STARTING, DIFFICULTY_STARTING)
  | some prevB => do
    let prevDifficulty ← difficultyOf blocks prevB
    if prevB.subEpochSummaryIncluded.isSome then return (prevB.subSlotIters, prevDifficulty)
    else
      let spTotalIters ← prevB.spTotalIters
      let difficulty ← getNextDifficulty blocks prevB.prevHash prevB.height prevDifficulty prevB.deficit false
        isFirstInSubSlot spTotalIters false
      let subSlotIters ← getNextSubSlotIters blocks prevB.prevHash prevB.height prevB.subSlotIters prevB.deficit false
        isFirstInSubSlot spTotalIters false
      return (subSlotIters, difficulty)

def lastSummaryBlock : Except PyError (BlockRecord × SubEpochSummary) :=
  blocks.walk (fun _ r => .ok (
    match r.subEpochSummaryIncluded with
    | some ses => .done (r, ses)
    | none => .back ())) () curr

def makeSubEpochSummary (env : HeaderEnv) (blocks : Blocks) (blocksIncludedHeight : ℕ) (prevPrevBlock : BlockRecord)
    (newDifficulty newSubSlotIters : Option ℕ) : Except PyError SubEpochSummary := do
  pyAssert (prevPrevBlock.height + 2 = blocksIncludedHeight)
  if (blocksIncludedHeight + MAX_SUB_SLOT_BLOCKS) / SUB_EPOCH_BLOCKS ≤ 1 then
    return ⟨env.genesisChallenge, env.genesisChallenge, 0, none, none⟩
  else
    let (curr, ses) ← lastSummaryBlock blocks prevPrevBlock
    let hashes ← assertSome curr.finishedRewardSlotHashes
    let rewardChainHash ← lastOf hashes
    let numBlocksOverflow ← uint8 (curr.height % SUB_EPOCH_BLOCKS : ℕ)
    return ⟨env.stdHash ses.stream, rewardChainHash, numBlocksOverflow, newDifficulty, newSubSlotIters⟩

end SectorChain.Header
