import SectorChain.Consensus.Header.Validation

/-!
# Records of header blocks

Chains grow by blocks that validation accepts on their tip.
-/

namespace SectorChain.Header

open Lib Check

section

variable (env : HeaderEnv)

def foundSesHash (subSlots : List EndOfSubSlotBundle) : Option Bytes32 :=
  subSlots.foldl (fun found s => if s.challengeChain.subepochSummaryHash.isSome
    then s.challengeChain.subepochSummaryHash else found) none

def summaryIncluded (blocks : Blocks) (block : HeaderBlock) (prevB : Option BlockRecord) :
    Except PyError (Option SubEpochSummary) :=
  match foundSesHash block.finishedSubSlots with
  | none => .ok none
  | some found => do
    let prevB ← assertSome prevB
    match block.finishedSubSlots with
    | [] => throw .assertionError
    | first :: _ =>
      let prevPrevB ← blocks.blockRecord prevB.prevHash
      let ses ← makeSubEpochSummary env blocks block.height prevPrevB first.challengeChain.newDifficulty
        first.challengeChain.newSubSlotIters
      pyAssert (env.stdHash ses.stream = found)
      return some ses

def headerBlockToSubBlockRecord (requiredIters : ℕ) (block : HeaderBlock) (subSlotIters : ℕ) (overflow : Bool)
    (deficit : ℕ) (ses : Option SubEpochSummary) : BlockRecord :=
  let rcb := block.rewardChainBlock
  let cbi : ChallengeBlockInfo :=
    ⟨rcb.proofOfSpace, rcb.challengeChainSpVdf, rcb.challengeChainSpSignature, rcb.challengeChainIpVdf⟩
  let slots := block.finishedSubSlots
  { headerHash := env.stdHash block.foliage.stream
    prevHash := block.prevHeaderHash
    height := block.height
    weight := block.weight
    totalIters := block.totalIters
    signagePointIndex := rcb.signagePointIndex
    challengeVdfOutput := rcb.challengeChainIpVdf.output
    infusedChallengeVdfOutput := rcb.infusedChallengeChainIpVdf.map VDFInfo.output
    rewardInfusionNewChallenge := env.stdHash rcb.stream
    challengeBlockInfoHash := env.stdHash cbi.stream
    subSlotIters := subSlotIters
    requiredIters := requiredIters
    deficit := deficit
    overflow := overflow
    timestamp := block.foliageTransactionBlock.map FoliageTransactionBlock.timestamp
    finishedChallengeSlotHashes :=
      if slots.length > 0 then some (slots.map fun s => s.challengeChain.getHash env)
      else if block.height = 0 then some [env.genesisChallenge] else none
    finishedInfusedChallengeSlotHashes :=
      if slots.length > 0 then some (slots.filterMap fun s => s.infusedChallengeChain.map fun icc => icc.getHash env)
      else none
    finishedRewardSlotHashes :=
      if slots.length > 0 then some (slots.map fun s => s.rewardChain.getHash env)
      else if block.height = 0 then some [env.genesisChallenge] else none
    subEpochSummaryIncluded := ses }

def blockToBlockRecord (blocks : Blocks) (requiredIters : ℕ) (block : HeaderBlock) : Except PyError BlockRecord := do
  let prevB := blocks.tryBlockRecord block.prevHeaderHash
  pyAssert (block.height = 0 || prevB.isSome)
  let (subSlotIters, _) ← getNextSubSlotItersAndDifficulty (block.finishedSubSlots.length > 0) prevB blocks
  let overflow ← isOverflowBlock block.rewardChainBlock.signagePointIndex
  let deficit ← calculateDeficit block.height prevB overflow block.finishedSubSlots.length
  let ses ← summaryIncluded env blocks block prevB
  return headerBlockToSubBlockRecord env requiredIters block subSlotIters overflow deficit ses

/-- The records of a chain, the tip first, can be looked up; those of the main chain also by height. -/
structure Knows (blocks : Blocks) (chain : List BlockRecord) : Prop where
  records : ∀ r ∈ chain, blocks.blockRecords.get? r.headerHash = some r
  genesis : ∀ r ∈ chain, r.height = 0 → blocks.blockRecords.get? r.prevHash = none
  heights : ∀ r older, r :: older <:+ chain → blocks.heightToHash.get? r.height = some r.headerHash →
    ∀ r' ∈ older, blocks.heightToHash.get? r'.height = some r'.headerHash

structure AcceptedOn (blocks : Blocks) (prevB : Option BlockRecord) (block : HeaderBlock) (record : BlockRecord) :
    Prop where
  prev : blocks.tryBlockRecord block.prevHeaderHash = prevB
  accepted : ∃ now checkFilter subSlotIters difficulty requiredIters,
    getNextSubSlotItersAndDifficulty (block.finishedSubSlots.length > 0) prevB blocks = .ok (subSlotIters, difficulty) ∧
    Accepts (validateFinishedHeaderBlock env now blocks block checkFilter difficulty subSlotIters true) requiredIters ∧
    blockToBlockRecord env blocks requiredIters block = .ok record

/-- The accepted chains, the tip first. A block is validated with the chain at hand, and possibly more. -/
inductive AcceptedChain : List BlockRecord → Prop where
  | genesis (blocks : Blocks) (block : HeaderBlock) (record : BlockRecord) :
      AcceptedOn env blocks none block record → AcceptedChain [record]
  | block (blocks : Blocks) (block : HeaderBlock) (record tip : BlockRecord) (older : List BlockRecord) :
      AcceptedChain (tip :: older) → Knows blocks (tip :: older) → block.prevHeaderHash = tip.headerHash →
      AcceptedOn env blocks (some tip) block record → AcceptedChain (record :: tip :: older)

end

end SectorChain.Header
