import SectorChain.Consensus.Header.Challenge
import SectorChain.Lib.Checks

/-!
# Header validation

`block_header_validation.py`, cut at its numbered comments.
-/

namespace SectorChain.Header

open Lib Check
open ClassgroupElement (getDefaultElement)

abbrev HeaderCheck (α : Type) := Check PyError Err α

section

variable (env : HeaderEnv)

/-- What validation knows before it looks at the finished sub-slots. -/
structure Context where
  prevB : Option BlockRecord
  overflow : Bool
  skipOverflowLastSsValidation : Bool
  finishedSubSlotsSincePrev : ℕ
  canFinishSe : Bool
  canFinishEpoch : Bool
  height : ℕ
  expectedDifficulty : ℕ
  expectedSubSlotIters : ℕ

variable (blocks : Blocks) (ctx : Context) (skipVdfIsValid : Bool) (prevSlot : Option EndOfSubSlotBundle)
  (subSlot : EndOfSubSlotBundle) (headerBlock : UnfinishedHeaderBlock)

def Context.newSubSlot : Bool := ctx.finishedSubSlotsSincePrev > 0

/-- 2a to 2c: the challenge of a slot is the hash of the slot before. -/
def checkSlotChallenge : HeaderCheck Unit := do
  let challengeHash := subSlot.challengeChain.challengeChainEndOfSlotVdf.challenge
  match prevSlot, ctx.prevB with
  | none, none => require (challengeHash = env.genesisChallenge) .INVALID_PREV_CHALLENGE_SLOT_HASH
  | none, some prevB =>
    let curr ← blocks.backTo BlockRecord.firstInSubSlot prevB
    let hashes ← assertSome curr.finishedChallengeSlotHashes
    let last ← lastOf hashes
    require (last = challengeHash) .INVALID_PREV_CHALLENGE_SLOT_HASH
  | some prevSlot, _ =>
    require (prevSlot.challengeChain.getHash env = challengeHash) .INVALID_PREV_CHALLENGE_SLOT_HASH

structure IccTarget where
  challengeHash : Bytes32
  itersCommitted : ℕ
  itersProof : ℕ
  vdfInput : Option ClassgroupElement

def iccStart (prevB curr : BlockRecord) : Except PyError (Bytes32 × ℕ) :=
  if curr.isChallengeBlock then do
    let ipIters ← curr.ipIters
    let iters ← uint64 ((prevB.subSlotIters : ℤ) - ipIters)
    return (curr.challengeBlockInfoHash, iters)
  else do
    let hashes ← assertSome curr.finishedInfusedChallengeSlotHashes
    let hash ← lastOf hashes
    return (hash, prevB.subSlotIters)

variable (now : ℕ) (sesHash : Option Bytes32) (prevB : BlockRecord)

def iccTarget (prevSlot : Option EndOfSubSlotBundle) : Except PyError (Option IccTarget) :=
  if prevB.deficit < MIN_BLOCKS_PER_CHALLENGE_BLOCK then
    match prevSlot with
    | none => do
      let curr ← blocks.backTo (fun r => r.isChallengeBlock || r.firstInSubSlot) prevB
      let (challengeHash, itersCommitted) ← iccStart prevB curr
      let ipIters ← prevB.ipIters
      let itersProof ← uint64 ((prevB.subSlotIters : ℤ) - ipIters)
      let vdfInput := if prevB.isChallengeBlock then some getDefaultElement
        else prevB.infusedChallengeVdfOutput
      return some ⟨challengeHash, itersCommitted, itersProof, vdfInput⟩
    | some finishedSs =>
      if finishedSs.rewardChain.deficit < MIN_BLOCKS_PER_CHALLENGE_BLOCK then do
        let icc ← assertSome finishedSs.infusedChallengeChain
        return some ⟨icc.getHash env, prevB.subSlotIters, prevB.subSlotIters, some getDefaultElement⟩
      else return none
  else return none

/-- 2d to 2k: the infused challenge chain. -/
def checkSlotIcc : HeaderCheck Unit := do
  match ctx.prevB with
  | none => require subSlot.infusedChallengeChain.isNone .SHOULD_NOT_HAVE_ICC
  | some prevB =>
    let target ← iccTarget env blocks prevB prevSlot
    pyAssert (subSlot.infusedChallengeChain.isNone = target.isNone)
    match subSlot.infusedChallengeChain, target with
    | some icc, some target =>
      let vdfInput ← assertSome target.vdfInput
      let proof ← assertSome subSlot.proofs.infusedChallengeChainSlotProof
      let vdf := icc.infusedChallengeChainEndOfSlotVdf
      let targetVdfInfo : VDFInfo := ⟨target.challengeHash, target.itersProof, vdf.output⟩
      require (vdf = { targetVdfInfo with numberOfIterations := target.itersCommitted }) .INVALID_ICC_EOS_VDF
      require (skipVdfIsValid || proof.normalizedToIdentity || proof.isValid env vdfInput targetVdfInfo none)
        .INVALID_ICC_EOS_VDF
      require (skipVdfIsValid || !proof.normalizedToIdentity ||
        proof.isValid env getDefaultElement vdf none) .INVALID_ICC_EOS_VDF
      require (subSlot.challengeChain.infusedChallengeChainSubSlotHash =
        if subSlot.rewardChain.deficit = MIN_BLOCKS_PER_CHALLENGE_BLOCK then some (icc.getHash env) else none)
        .INVALID_ICC_HASH_CC
      require (subSlot.rewardChain.infusedChallengeChainSubSlotHash = some (icc.getHash env)) .INVALID_ICC_HASH_RC
    | _, _ =>
      require subSlot.challengeChain.infusedChallengeChainSubSlotHash.isNone .INVALID_ICC_HASH_CC
      require subSlot.rewardChain.infusedChallengeChainSubSlotHash.isNone .INVALID_ICC_HASH_RC

/-- 2m and 2n: new difficulty and sub-slot iterations are there exactly at the end of an epoch. -/
def checkNewValues (cc : ChallengeChainSubSlot) : HeaderCheck Unit :=
  if ctx.canFinishEpoch && cc.subepochSummaryHash.isSome then do
    require (cc.newSubSlotIters = some ctx.expectedSubSlotIters) .INVALID_NEW_SUB_SLOT_ITERS
    require (cc.newDifficulty = some ctx.expectedDifficulty) .INVALID_NEW_DIFFICULTY
  else do
    require cc.newSubSlotIters.isNone .INVALID_NEW_SUB_SLOT_ITERS
    require cc.newDifficulty.isNone .INVALID_NEW_DIFFICULTY

/-- 2l to 2o: summary, new difficulty and sub-slot iterations. Returns the hash of the summary. -/
def checkSlotSummary : HeaderCheck (Option Bytes32) := do
  let cc := subSlot.challengeChain
  pyAssert (cc.subepochSummaryHash.isNone || sesHash.isNone)
  let sesHash := if cc.subepochSummaryHash.isSome then cc.subepochSummaryHash else sesHash
  require (prevSlot.isNone || cc.subepochSummaryHash.isNone) .INVALID_SUB_EPOCH_SUMMARY_HASH
  checkNewValues ctx cc
  require (cc.getHash env = subSlot.rewardChain.challengeChainSubSlotHash) .INVALID_CHALLENGE_SLOT_HASH_RC
  return sesHash

/-- Where the VDFs of the end of a slot start: challenge, iterations, and input. -/
def eosVdfStart : Except PyError (Bytes32 × ℕ × ClassgroupElement) :=
  match prevSlot, ctx.prevB with
  | none, none => .ok (env.genesisChallenge, ctx.expectedSubSlotIters, getDefaultElement)
  | none, some prevB => do
    let ipIters ← prevB.ipIters
    let iters ← uint64 ((prevB.subSlotIters : ℤ) - ipIters)
    return (prevB.rewardInfusionNewChallenge, iters, prevB.challengeVdfOutput)
  | some prevSlot, _ => .ok (prevSlot.rewardChain.getHash env, ctx.expectedSubSlotIters, getDefaultElement)

/-- 2p and 2q: the VDFs of the reward chain and of the challenge chain. -/
def checkSlotVdfs : HeaderCheck Unit := do
  let (rcEosVdfChallenge, eosVdfIters, ccStartElement) ← eosVdfStart env ctx prevSlot
  let ccVdf := subSlot.challengeChain.challengeChainEndOfSlotVdf
  let ccEosVdfChallenge := if prevSlot.isNone && ctx.prevB.isNone then env.genesisChallenge else ccVdf.challenge
  let rcVdf := subSlot.rewardChain.endOfSlotVdf
  require (skipVdfIsValid || subSlot.proofs.rewardChainSlotProof.isValid env getDefaultElement rcVdf
    (some ⟨rcEosVdfChallenge, eosVdfIters, rcVdf.output⟩)) .INVALID_RC_EOS_VDF
  let partialCcVdfInfo : VDFInfo := ⟨ccEosVdfChallenge, eosVdfIters, ccVdf.output⟩
  let ccEosVdfInfoIters := match ctx.prevB, prevSlot with
    | none, _ => SUB_SLOT_ITERS_STARTING
    | some prevB, none => prevB.subSlotIters
    | some _, some _ => ctx.expectedSubSlotIters
  require (ccVdf = { partialCcVdfInfo with numberOfIterations := ccEosVdfInfoIters }) .INVALID_CC_EOS_VDF
  let proof := subSlot.proofs.challengeChainSlotProof
  require (skipVdfIsValid || proof.normalizedToIdentity || proof.isValid env ccStartElement partialCcVdfInfo none)
    .INVALID_CC_EOS_VDF
  require (skipVdfIsValid || !proof.normalizedToIdentity ||
    proof.isValid env getDefaultElement ccVdf none) .INVALID_CC_EOS_VDF

/-- 2r to 2t: the deficit at the end of a slot. -/
def checkSlotDeficit : HeaderCheck Unit :=
  match ctx.prevB with
  | none => require (subSlot.rewardChain.deficit = MIN_BLOCKS_PER_CHALLENGE_BLOCK) .INVALID_DEFICIT
  | some prevB =>
    if prevB.deficit = 0 then
      require (subSlot.rewardChain.deficit = MIN_BLOCKS_PER_CHALLENGE_BLOCK) .INVALID_DEFICIT
    else require (subSlot.rewardChain.deficit = prevB.deficit) .INVALID_DEFICIT

def checkSubSlot : HeaderCheck (Option Bytes32) := do
  checkSlotChallenge env blocks ctx prevSlot subSlot
  checkSlotIcc env blocks ctx skipVdfIsValid prevSlot subSlot
  let sesHash ← checkSlotSummary env ctx prevSlot subSlot sesHash
  checkSlotVdfs env ctx skipVdfIsValid prevSlot subSlot
  checkSlotDeficit ctx subSlot
  return sesHash

/-- 2: the finished sub-slots after `prevSlot`. -/
def checkSubSlots (blocks : Blocks) (ctx : Context) (skipVdfIsValid : Bool) :
    Option EndOfSubSlotBundle → List EndOfSubSlotBundle → Option Bytes32 → HeaderCheck (Option Bytes32)
  | _, [], sesHash => return sesHash
  | prevSlot, subSlot :: subSlots, sesHash => do
    let sesHash ← checkSubSlot env blocks ctx skipVdfIsValid prevSlot subSlot sesHash
    checkSubSlots blocks ctx skipVdfIsValid (some subSlot) subSlots sesHash

/-- 3: the sub-epoch summary. -/
def checkSummary (checkSubEpochSummary : Bool) (sesHash : Option Bytes32) : HeaderCheck Unit := do
  match sesHash, ctx.prevB with
  | some _, none => throw .INVALID_SUB_EPOCH_SUMMARY_HASH
  | some sesHash, some prevB =>
    require (ctx.newSubSlot && ctx.canFinishSe) .INVALID_SUB_EPOCH_SUMMARY_HASH
    if checkSubEpochSummary then
      let prevPrevB ← blocks.blockRecord prevB.prevHash
      let expected ← makeSubEpochSummary env blocks ctx.height prevPrevB
        (if ctx.canFinishEpoch then some ctx.expectedDifficulty else none)
        (if ctx.canFinishEpoch then some ctx.expectedSubSlotIters else none)
      require (env.stdHash expected.stream = sesHash) .INVALID_SUB_EPOCH_SUMMARY
  | none, some _ =>
    require (!(ctx.newSubSlot && (ctx.canFinishSe || ctx.canFinishEpoch))) .INVALID_SUB_EPOCH_SUMMARY
  | none, none => return

def numBlocksInSlot : Except PyError ℕ :=
  blocks.walk (fun numBlocks r => .ok (if r.firstInSubSlot then .done numBlocks else .back (numBlocks + 1))) 2 prevB

/-- 4: not too many blocks in a slot. -/
def checkNumBlocks : HeaderCheck Unit := do
  match ctx.newSubSlot, ctx.prevB with
  | false, some prevB =>
    let numBlocks ← numBlocksInSlot blocks prevB
    require (numBlocks ≤ MAX_SUB_SLOT_BLOCKS) .TOO_MANY_BLOCKS
  | _, _ => return

/-- 5 to 7: proof of space and required iterations. Returns them with the hash of the signage point. -/
def checkProofOfSpace : HeaderCheck (ℕ × Bytes32) := do
  let rcb := headerBlock.rewardChainBlock
  let challenge ← getBlockChallenge env headerBlock blocks ctx.prevB.isNone ctx.overflow
    ctx.skipOverflowLastSsValidation
  require (challenge = rcb.posSsCcChallengeHash) .INVALID_CC_CHALLENGE
  let ccSpHash := match rcb.challengeChainSpVdf with
    | none => challenge
    | some vdf => env.stdHash vdf.output.toBytes
  match ← rcb.proofOfSpace.verifyAndGetQualityString env challenge ccSpHash with
  | none => throw .INVALID_POSPACE
  | some qStr =>
    require (rcb.signagePointIndex < NUM_SPS_SUB_SLOT) .INVALID_SP_INDEX
    let requiredIters ← calculateIterationsQuality env qStr rcb.proofOfSpace.size ctx.expectedDifficulty ccSpHash
    let interval ← calculateSpIntervalIters ctx.expectedSubSlotIters
    require (requiredIters < interval) .INVALID_REQUIRED_ITERS
    return (requiredIters, ccSpHash)

structure Iters where
  spIters : ℕ
  ipIters : ℕ
  totalIters : ℕ
  spTotalIters : ℕ

def slotStartIters : Except PyError ℕ :=
  match ctx.prevB with
  | none => uint128 (ctx.expectedSubSlotIters * ctx.finishedSubSlotsSincePrev : ℕ)
  | some prevB => do
    let ipIters ← prevB.ipIters
    if ctx.newSubSlot then
      let totalIters ← uint128 ((prevB.totalIters : ℤ) + prevB.subSlotIters - ipIters)
      uint128 ((totalIters : ℤ) + ctx.expectedSubSlotIters * (ctx.finishedSubSlotsSincePrev - 1))
    else uint128 ((prevB.totalIters : ℤ) - ipIters)

/-- 8 to 10: signage point index, overflow and total iterations. -/
def checkIters (requiredIters : ℕ) : HeaderCheck Iters := do
  let rcb := headerBlock.rewardChainBlock
  require (decide (rcb.signagePointIndex = 0) = rcb.challengeChainSpVdf.isNone) .INVALID_SP_INDEX
  require (decide (rcb.signagePointIndex = 0) = rcb.rewardChainSpVdf.isNone) .INVALID_SP_INDEX
  let spIters ← calculateSpIters ctx.expectedSubSlotIters rcb.signagePointIndex
  let ipIters ← calculateIpIters ctx.expectedSubSlotIters rcb.signagePointIndex requiredIters
  pyAssert (rcb.challengeChainSpVdf.isSome || !ctx.overflow)
  require (!(ctx.overflow && ctx.canFinishEpoch && ctx.finishedSubSlotsSincePrev < 2))
    .NO_OVERFLOWS_IN_FIRST_SUB_SLOT_NEW_EPOCH
  let start ← slotStartIters ctx
  let totalIters ← uint128 ((start : ℤ) + ipIters)
  require (totalIters = rcb.totalIters) .INVALID_TOTAL_ITERS
  let spTotalIters ← uint128
    ((totalIters : ℤ) - ipIters + spIters - (if ctx.overflow then ctx.expectedSubSlotIters else 0 : ℕ))
  return ⟨spIters, ipIters, totalIters, spTotalIters⟩

/-- The sub-slot that stands for the one that is not finished yet. -/
def dummySubSlot : EndOfSubSlotBundle :=
  let info : VDFInfo := ⟨.ofNat 32 0, 1, getDefaultElement⟩
  ⟨⟨info, none, none, none, none⟩, none, ⟨info, .ofNat 32 0, none, 0⟩, ⟨⟨0, [], false⟩, none, ⟨0, [], false⟩⟩⟩

/-- 11: the VDF of the reward chain to the signage point. Returns the hash that is signed. -/
def checkRcSp (spIters : ℕ) (info : SignagePointVdfInfo) : HeaderCheck Bytes32 := do
  let rcb := headerBlock.rewardChainBlock
  if spIters ≠ 0 then
    let vdf ← assertSome rcb.rewardChainSpVdf
    let proof ← assertSome headerBlock.rewardChainSpProof
    require (skipVdfIsValid || proof.isValid env getDefaultElement vdf
      (some ⟨info.rcVdfChallenge, info.vdfIters, vdf.output⟩)) .INVALID_RC_SP_VDF
    return env.stdHash vdf.output.toBytes
  else
    require rcb.rewardChainSpVdf.isNone .INVALID_RC_SP_VDF
    if ctx.newSubSlot then
      let last ← lastOf headerBlock.finishedSubSlots
      return last.rewardChain.getHash env
    else match ctx.prevB with
      | none => return env.genesisChallenge
      | some prevB =>
        let curr ← blocks.backTo BlockRecord.firstInSubSlot prevB
        let hashes ← assertSome curr.finishedRewardSlotHashes
        lastOf hashes

def checkCcSp (spIters : ℕ) (info : SignagePointVdfInfo) : HeaderCheck Unit := do
  let rcb := headerBlock.rewardChainBlock
  if spIters ≠ 0 then
    let vdf ← assertSome rcb.challengeChainSpVdf
    let proof ← assertSome headerBlock.challengeChainSpProof
    let targetVdfInfo : VDFInfo := ⟨info.ccVdfChallenge, info.vdfIters, vdf.output⟩
    require (vdf = { targetVdfInfo with numberOfIterations := spIters }) .INVALID_CC_SP_VDF
    require (skipVdfIsValid || proof.normalizedToIdentity || proof.isValid env info.ccVdfInput targetVdfInfo none)
      .INVALID_CC_SP_VDF
    require (skipVdfIsValid || !proof.normalizedToIdentity ||
      proof.isValid env getDefaultElement vdf none) .INVALID_CC_SP_VDF
  else require rcb.challengeChainSpVdf.isNone .INVALID_CC_SP_VDF

/-- 11 to 14: VDFs and signatures of the signage point. -/
def checkSignagePoint (ccSpHash : Bytes32) (iters : Iters) : HeaderCheck Unit := do
  let rcb := headerBlock.rewardChainBlock
  let subSlots := if ctx.overflow && ctx.skipOverflowLastSsValidation then headerBlock.finishedSubSlots ++ [dummySubSlot]
    else headerBlock.finishedSubSlots
  let info ← getSignagePointVdfInfo env subSlots ctx.overflow ctx.prevB blocks iters.spTotalIters iters.spIters
  let rcSpHash ← checkRcSp env blocks ctx skipVdfIsValid headerBlock iters.spIters info
  require (env.verify rcb.proofOfSpace.plotPublicKey rcSpHash.toBytes rcb.rewardChainSpSignature) .INVALID_RC_SIGNATURE
  checkCcSp env skipVdfIsValid headerBlock iters.spIters info
  require (env.verify rcb.proofOfSpace.plotPublicKey ccSpHash.toBytes rcb.challengeChainSpSignature)
    .INVALID_CC_SIGNATURE

/-- 15: the first block whose signage point is after the last transaction block is a transaction block. -/
def checkIsTransactionBlock (foliage : Foliage) (iters : Iters) : HeaderCheck Unit := do
  match ctx.prevB with
  | none => require foliage.foliageTransactionBlockHash.isSome .INVALID_IS_TRANSACTION_BLOCK
  | some prevB =>
    let curr ← blocks.backTo BlockRecord.isTransactionBlock prevB
    let ourSpTotalIters ← uint128 ((iters.totalIters : ℤ) - iters.ipIters + iters.spIters -
      (if ctx.overflow then ctx.expectedSubSlotIters else 0 : ℕ))
    require (decide (ourSpTotalIters > curr.totalIters) = foliage.foliageTransactionBlockHash.isSome)
      .INVALID_IS_TRANSACTION_BLOCK
    require (decide (ourSpTotalIters > curr.totalIters) = foliage.foliageTransactionBlockSignature.isSome)
      .INVALID_IS_TRANSACTION_BLOCK

/-- A signature that may be missing, in which case the library raises. -/
def verifyOptional (pk : G1Element) (message : Bytes) (signature : Option G2Element) : Except PyError Bool :=
  match signature with
  | some signature => .ok (env.verify pk message signature)
  | none => .error .typeError

def checkTransactionBlockSignature (plotPublicKey : G1Element) (foliage : Foliage) : HeaderCheck Unit :=
  match foliage.foliageTransactionBlockHash with
  | some hash => do
    let valid ← verifyOptional env plotPublicKey hash.toBytes foliage.foliageTransactionBlockSignature
    require valid .INVALID_PLOT_SIGNATURE
  | none => pure ()

/-- 16 to 18: signatures by the plot key, and the hash of the unfinished block. -/
def checkPlotSignatures : HeaderCheck Unit := do
  let foliage := headerBlock.foliage
  let plotPublicKey := headerBlock.rewardChainBlock.proofOfSpace.plotPublicKey
  require (env.verify plotPublicKey (env.stdHash foliage.foliageBlockData.stream).toBytes
    foliage.foliageBlockDataSignature) .INVALID_PLOT_SIGNATURE
  checkTransactionBlockSignature env plotPublicKey foliage
  require (env.stdHash headerBlock.rewardChainBlock.stream = foliage.foliageBlockData.unfinishedRewardBlockHash)
    .INVALID_URSB_HASH

/-- 19 and 20: pool target and pool signature. -/
def checkPool : HeaderCheck Unit := do
  let data := headerBlock.foliage.foliageBlockData
  let pos := headerBlock.rewardChainBlock.proofOfSpace
  require (!(data.poolTarget.maxHeight ≠ 0 ∧ data.poolTarget.maxHeight < ctx.height)) .OLD_POOL_TARGET
  match ctx.prevB with
  | none =>
    require (data.poolTarget.puzzleHash = env.genesisPreFarmPoolPuzzleHash) .INVALID_PREFARM
    require (data.farmerRewardPuzzleHash = env.genesisPreFarmFarmerPuzzleHash) .INVALID_PREFARM
  | some _ =>
    match pos.poolPublicKey with
    | some pk =>
      pyAssert pos.poolContractPuzzleHash.isNone
      let valid ← verifyOptional env pk data.poolTarget.stream data.poolSignature
      require valid .INVALID_POOL_SIGNATURE
    | none =>
      let contract ← assertSome pos.poolContractPuzzleHash
      require (data.poolTarget.puzzleHash = contract) .INVALID_POOL_TARGET

/-- 24: the previous transaction block. -/
def checkPrevTransactionBlock (ftb : FoliageTransactionBlock) : HeaderCheck Unit :=
  match ctx.prevB with
  | none => require (ftb.prevTransactionBlockHash = env.genesisChallenge) .INVALID_PREV_BLOCK_HASH
  | some prevB => do
    let curr ← blocks.backTo BlockRecord.isTransactionBlock prevB
    require (ftb.prevTransactionBlockHash = curr.headerHash) .INVALID_PREV_BLOCK_HASH

/-- 26b: the timestamp is later than that of the previous transaction block. -/
def checkTimestamp (ftb : FoliageTransactionBlock) : HeaderCheck Unit :=
  match ctx.prevB with
  | none => pure ()
  | some _ => do
    let prevTransactionB ← blocks.blockRecord ftb.prevTransactionBlockHash
    let timestamp ← assertSome prevTransactionB.timestamp
    require (ftb.timestamp > timestamp) .TIMESTAMP_TOO_FAR_IN_PAST

/-- 22 to 26: the foliage of a transaction block. -/
def checkFoliageTransactionBlock (blocks : Blocks) (ctx : Context) (checkFilter : Bool)
    (headerBlock : UnfinishedHeaderBlock) : HeaderCheck Unit := do
  let foliage := headerBlock.foliage
  require (foliage.foliageTransactionBlockHash.isSome = headerBlock.foliageTransactionBlock.isSome)
    .INVALID_FOLIAGE_BLOCK_PRESENCE
  require (foliage.foliageTransactionBlockSignature.isSome = headerBlock.foliageTransactionBlock.isSome)
    .INVALID_FOLIAGE_BLOCK_PRESENCE
  match headerBlock.foliageTransactionBlock with
  | none => return
  | some ftb =>
    require (foliage.foliageTransactionBlockHash = some (env.stdHash ftb.stream)) .INVALID_FOLIAGE_BLOCK_HASH
    checkPrevTransactionBlock env blocks ctx ftb
    require (!checkFilter || ftb.filterHash = env.stdHash headerBlock.transactionsFilter)
      .INVALID_TRANSACTIONS_FILTER_HASH
    require (ftb.timestamp ≤ now + MAX_FUTURE_TIME) .TIMESTAMP_TOO_FAR_IN_FUTURE
    checkTimestamp blocks ctx ftb

/-- How many sub-slots were finished since the previous block, and whether the last one is missing. -/
def slotsSincePrev (expectedSubSlotIters : ℕ)
    (skipOverflowLastSsValidation overflow : Bool) : Except PyError (Bool × ℕ) :=
  let numSlots := headerBlock.finishedSubSlots.length
  if skipOverflowLastSsValidation && overflow then do
    let included ← finalEosIsAlreadyIncluded headerBlock blocks expectedSubSlotIters
    return if included then (false, numSlots) else (true, numSlots + 1)
  else .ok (skipOverflowLastSsValidation, numSlots)

def canFinishAfter (finishedSubSlotsSincePrev : ℕ) : Except PyError (Bool × Bool) :=
  if finishedSubSlotsSincePrev > 0 then
    canFinishSubAndFullEpoch blocks prevB.height prevB.prevHash prevB.deficit prevB.subEpochSummaryIncluded.isSome
  else .ok (false, false)

/-- 1: the previous block, overflow, and whether a sub-epoch may end. -/
def validationContext (expectedDifficulty expectedSubSlotIters : ℕ)
    (skipOverflowLastSsValidation : Bool) : HeaderCheck Context := do
  let prevB := blocks.tryBlockRecord headerBlock.prevHeaderHash
  require (prevB.isSome || headerBlock.prevHeaderHash = env.genesisChallenge) .INVALID_PREV_BLOCK_HASH
  let overflow ← isOverflowBlock headerBlock.rewardChainBlock.signagePointIndex
  let (skip, finishedSubSlotsSincePrev) ← slotsSincePrev blocks headerBlock expectedSubSlotIters
    skipOverflowLastSsValidation overflow
  match prevB with
  | none =>
    pyAssert (expectedDifficulty = DIFFICULTY_STARTING)
    pyAssert (expectedSubSlotIters = SUB_SLOT_ITERS_STARTING)
    return ⟨none, overflow, skip, finishedSubSlotsSincePrev, false, false, 0, expectedDifficulty, expectedSubSlotIters⟩
  | some prev =>
    let height ← uint32 (prev.height + 1)
    let (canFinishSe, canFinishEpoch) ← canFinishAfter blocks prev finishedSubSlotsSincePrev
    return ⟨some prev, overflow, skip, finishedSubSlotsSincePrev, canFinishSe, canFinishEpoch, height, expectedDifficulty,
      expectedSubSlotIters⟩

/-- 2 and 3: finished sub-slots and sub-epoch summary. -/
def checkFinishedSubSlots (skipVdfIsValid checkSubEpochSummary : Bool) : HeaderCheck Unit :=
  if ctx.newSubSlot && !ctx.skipOverflowLastSsValidation then do
    let sesHash ← checkSubSlots env blocks ctx skipVdfIsValid none headerBlock.finishedSubSlots none
    checkSummary env blocks ctx checkSubEpochSummary sesHash
  else pure ()

/-- Returns the required iterations. -/
def validateUnfinishedHeaderBlock (blocks : Blocks) (headerBlock : UnfinishedHeaderBlock) (checkFilter : Bool)
    (expectedDifficulty expectedSubSlotIters : ℕ)
    (skipOverflowLastSsValidation skipVdfIsValid checkSubEpochSummary : Bool) : HeaderCheck ℕ := do
  let ctx ← validationContext env blocks headerBlock expectedDifficulty expectedSubSlotIters skipOverflowLastSsValidation
  checkFinishedSubSlots env blocks ctx headerBlock skipVdfIsValid checkSubEpochSummary
  checkNumBlocks blocks ctx
  let (requiredIters, ccSpHash) ← checkProofOfSpace env blocks ctx headerBlock
  let iters ← checkIters ctx headerBlock requiredIters
  checkSignagePoint env blocks ctx skipVdfIsValid headerBlock ccSpHash iters
  checkIsTransactionBlock blocks ctx headerBlock.foliage iters
  checkPlotSignatures env headerBlock
  checkPool env ctx headerBlock
  checkFoliageTransactionBlock env now blocks ctx checkFilter headerBlock
  return requiredIters

/-- 27 and 28: height and weight. -/
def checkHeightAndWeight (headerBlock : HeaderBlock) (prevB : Option BlockRecord) (expectedDifficulty : ℕ) :
    HeaderCheck Unit := do
  match prevB with
  | some prevB =>
    require (headerBlock.height = prevB.height + 1) .INVALID_HEIGHT
    require (headerBlock.weight = prevB.weight + expectedDifficulty) .INVALID_WEIGHT
  | none =>
    require (headerBlock.height = 0) .INVALID_HEIGHT
    require (headerBlock.weight = DIFFICULTY_STARTING) .INVALID_WEIGHT
    require (headerBlock.prevHeaderHash = env.genesisChallenge) .INVALID_PREV_BLOCK_HASH

/-- Where the VDFs to the infusion point start: challenge, iterations, and input. -/
def ipVdfStart (headerBlock : HeaderBlock) (prevB : Option BlockRecord) (ipIters : ℕ) :
    Except PyError (Bytes32 × ℕ × ClassgroupElement) :=
  match headerBlock.finishedSubSlots.getLast?, prevB with
  | some last, _ => .ok (last.rewardChain.getHash env, ipIters, getDefaultElement)
  | none, none => .ok (env.genesisChallenge, ipIters, getDefaultElement)
  | none, some prevB => do
    let iters ← uint64 ((headerBlock.totalIters : ℤ) - prevB.totalIters)
    return (prevB.rewardInfusionNewChallenge, iters, prevB.challengeVdfOutput)

def ccIpChallenge (headerBlock : HeaderBlock) (prevB : Option BlockRecord) : Except PyError Bytes32 :=
  match headerBlock.finishedSubSlots.getLast?, prevB with
  | some last, _ => .ok (last.challengeChain.getHash env)
  | none, none => .ok env.genesisChallenge
  | none, some prevB => do
    let curr ← blocks.backTo BlockRecord.firstInSubSlot prevB
    let hashes ← assertSome curr.finishedChallengeSlotHashes
    lastOf hashes

/-- 29 and 30: the VDFs of the challenge chain and of the reward chain to the infusion point. -/
def checkIpVdfs (headerBlock : HeaderBlock) (ipIters : ℕ) (ccVdfChallenge rcVdfChallenge : Bytes32) (ipVdfIters : ℕ)
    (ccVdfOutput : ClassgroupElement) : HeaderCheck Unit := do
  let rcb := headerBlock.rewardChainBlock
  let ccTargetVdfInfo : VDFInfo := ⟨ccVdfChallenge, ipVdfIters, rcb.challengeChainIpVdf.output⟩
  require (rcb.challengeChainIpVdf = { ccTargetVdfInfo with numberOfIterations := ipIters }) .INVALID_CC_IP_VDF
  let proof := headerBlock.challengeChainIpProof
  require (proof.normalizedToIdentity || proof.isValid env ccVdfOutput ccTargetVdfInfo none) .INVALID_CC_IP_VDF
  require (!proof.normalizedToIdentity ||
    proof.isValid env getDefaultElement rcb.challengeChainIpVdf none) .INVALID_CC_IP_VDF
  require (headerBlock.rewardChainIpProof.isValid env getDefaultElement rcb.rewardChainIpVdf
    (some ⟨rcVdfChallenge, ipVdfIters, rcb.rewardChainIpVdf.output⟩)) .INVALID_RC_IP_VDF

def iccIpStart (headerBlock : HeaderBlock) (prevB : BlockRecord) :
    Except PyError (Bytes32 × Option ClassgroupElement) :=
  match headerBlock.finishedSubSlots.getLast? with
  | some last => do
    let icc ← assertSome last.infusedChallengeChain
    return (icc.getHash env, some getDefaultElement)
  | none => do
    let input := if prevB.isChallengeBlock then some getDefaultElement
      else prevB.infusedChallengeVdfOutput
    let curr ← blocks.backTo (fun r => r.finishedInfusedChallengeSlotHashes.isSome || r.isChallengeBlock) prevB
    if curr.isChallengeBlock then return (curr.challengeBlockInfoHash, input)
    else do
      let hashes ← assertSome curr.finishedInfusedChallengeSlotHashes
      let challenge ← lastOf hashes
      return (challenge, input)

/-- 31: the infused challenge chain to the infusion point. -/
def checkIccIp (headerBlock : HeaderBlock) (prevB : Option BlockRecord) (ipVdfIters : ℕ) : HeaderCheck Unit := do
  match prevB with
  | none => require headerBlock.infusedChallengeChainIpProof.isNone .INVALID_ICC_VDF
  | some prevB =>
    let overflow ← isOverflowBlock headerBlock.rewardChainBlock.signagePointIndex
    let deficit ← calculateDeficit headerBlock.height (some prevB) overflow headerBlock.finishedSubSlots.length
    match headerBlock.rewardChainBlock.infusedChallengeChainIpVdf with
    | none => require (deficit ≥ MIN_BLOCKS_PER_CHALLENGE_BLOCK - 1) .INVALID_ICC_VDF
    | some vdf =>
      let proof ← assertSome headerBlock.infusedChallengeChainIpProof
      require (deficit < MIN_BLOCKS_PER_CHALLENGE_BLOCK - 1) .INVALID_ICC_VDF
      let (iccVdfChallenge, iccVdfInput) ← iccIpStart env blocks headerBlock prevB
      match iccVdfInput with
      | none => throw .INVALID_ICC_VDF
      | some input =>
        require (proof.isValid env input vdf (some ⟨iccVdfChallenge, ipVdfIters, vdf.output⟩)) .INVALID_ICC_VDF

def finishedPrev (headerBlock : HeaderBlock) : Except PyError (Option BlockRecord) :=
  if headerBlock.height = 0 then .ok none
  else do
    let prevB ← blocks.blockRecord headerBlock.prevHeaderHash
    return some prevB

def checkFinished (headerBlock : HeaderBlock) (expectedDifficulty expectedSubSlotIters requiredIters : ℕ) :
    HeaderCheck Unit := do
  let prevB ← finishedPrev blocks headerBlock
  let ipIters ← calculateIpIters expectedSubSlotIters headerBlock.rewardChainBlock.signagePointIndex requiredIters
  checkHeightAndWeight env headerBlock prevB expectedDifficulty
  let (rcVdfChallenge, ipVdfIters, ccVdfOutput) ← ipVdfStart env headerBlock prevB ipIters
  let ccVdfChallenge ← ccIpChallenge env blocks headerBlock prevB
  checkIpVdfs env headerBlock ipIters ccVdfChallenge rcVdfChallenge ipVdfIters ccVdfOutput
  checkIccIp env blocks headerBlock prevB ipVdfIters
  require (headerBlock.foliage.rewardBlockHash = env.stdHash headerBlock.rewardChainBlock.stream)
    .INVALID_REWARD_BLOCK_HASH
  require (headerBlock.foliage.foliageTransactionBlockHash.isSome = headerBlock.rewardChainBlock.isTransactionBlock)
    .INVALID_FOLIAGE_BLOCK_PRESENCE

/-- Returns the required iterations. -/
def validateFinishedHeaderBlock (blocks : Blocks) (headerBlock : HeaderBlock) (checkFilter : Bool)
    (expectedDifficulty expectedSubSlotIters : ℕ) (checkSubEpochSummary : Bool) : HeaderCheck ℕ := do
  let requiredIters ← validateUnfinishedHeaderBlock env now blocks headerBlock.unfinished checkFilter expectedDifficulty
    expectedSubSlotIters false false checkSubEpochSummary
  checkFinished env blocks headerBlock expectedDifficulty expectedSubSlotIters requiredIters
  return requiredIters

end

end SectorChain.Header
