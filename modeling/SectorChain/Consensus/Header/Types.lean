import SectorChain.Types.Block
import SectorChain.Util.Errors

/-!
# Header blocks with their slots and proofs

The block format as header validation reads it.
-/

namespace SectorChain.Header

open Lib

abbrev SLOT_BLOCKS_TARGET : ℕ := 32

abbrev MIN_BLOCKS_PER_CHALLENGE_BLOCK : ℕ := 16

abbrev MAX_SUB_SLOT_BLOCKS : ℕ := 128

abbrev NUM_SPS_SUB_SLOT : ℕ := 64

abbrev SUB_SLOT_ITERS_STARTING : ℕ := 2 ^ 27

abbrev DIFFICULTY_CONSTANT_FACTOR : ℕ := 2 ^ 57

abbrev DIFFICULTY_STARTING : ℕ := 7

abbrev DIFFICULTY_CHANGE_MAX_FACTOR : ℕ := 3

abbrev SUB_EPOCH_BLOCKS : ℕ := 384

abbrev EPOCH_BLOCKS : ℕ := 4608

abbrev SIGNIFICANT_BITS : ℕ := 8

abbrev NUMBER_ZERO_BITS_PLOT_FILTER : ℕ := 9

abbrev MIN_PLOT_SIZE : ℕ := 32

abbrev MAX_PLOT_SIZE : ℕ := 50

abbrev SUB_SLOT_TIME_TARGET : ℕ := 600

abbrev NUM_SP_INTERVALS_EXTRA : ℕ := 3

abbrev MAX_FUTURE_TIME : ℕ := 5 * 60

abbrev MAX_VDF_WITNESS_SIZE : ℕ := 64

abbrev G1Element := SizedBytes 48

abbrev ClassgroupElement := SizedBytes 100

def ClassgroupElement.getDefaultElement : ClassgroupElement := ⟨8 :: List.replicate 99 0, rfl⟩

structure VDFInfo where
  challenge : Bytes32
  numberOfIterations : ℕ
  output : ClassgroupElement
deriving DecidableEq

def VDFInfo.stream (info : VDFInfo) : Bytes :=
  info.challenge.toBytes ++ beBytes 8 info.numberOfIterations ++ info.output.toBytes

structure VDFProof where
  witnessType : ℕ
  witness : Bytes
  normalizedToIdentity : Bool
deriving DecidableEq

structure ChallengeChainSubSlot where
  challengeChainEndOfSlotVdf : VDFInfo
  infusedChallengeChainSubSlotHash : Option Bytes32
  subepochSummaryHash : Option Bytes32
  newSubSlotIters : Option ℕ
  newDifficulty : Option ℕ
deriving DecidableEq

def ChallengeChainSubSlot.stream (s : ChallengeChainSubSlot) : Bytes :=
  s.challengeChainEndOfSlotVdf.stream ++ optionalBytes SizedBytes.toBytes s.infusedChallengeChainSubSlotHash ++
    optionalBytes SizedBytes.toBytes s.subepochSummaryHash ++ optionalBytes (beBytes 8) s.newSubSlotIters ++
    optionalBytes (beBytes 8) s.newDifficulty

structure InfusedChallengeChainSubSlot where
  infusedChallengeChainEndOfSlotVdf : VDFInfo
deriving DecidableEq

def InfusedChallengeChainSubSlot.stream (s : InfusedChallengeChainSubSlot) : Bytes :=
  s.infusedChallengeChainEndOfSlotVdf.stream

structure RewardChainSubSlot where
  endOfSlotVdf : VDFInfo
  challengeChainSubSlotHash : Bytes32
  infusedChallengeChainSubSlotHash : Option Bytes32
  deficit : ℕ
deriving DecidableEq

def RewardChainSubSlot.stream (s : RewardChainSubSlot) : Bytes :=
  s.endOfSlotVdf.stream ++ s.challengeChainSubSlotHash.toBytes ++
    optionalBytes SizedBytes.toBytes s.infusedChallengeChainSubSlotHash ++ beBytes 1 s.deficit

structure SubSlotProofs where
  challengeChainSlotProof : VDFProof
  infusedChallengeChainSlotProof : Option VDFProof
  rewardChainSlotProof : VDFProof
deriving DecidableEq

structure EndOfSubSlotBundle where
  challengeChain : ChallengeChainSubSlot
  infusedChallengeChain : Option InfusedChallengeChainSubSlot
  rewardChain : RewardChainSubSlot
  proofs : SubSlotProofs
deriving DecidableEq

structure ProofOfSpace where
  challenge : Bytes32
  poolPublicKey : Option G1Element
  poolContractPuzzleHash : Option Bytes32
  plotPublicKey : G1Element
  size : ℕ
  proof : Bytes
deriving DecidableEq

def ProofOfSpace.stream (p : ProofOfSpace) : Bytes :=
  p.challenge.toBytes ++ optionalBytes SizedBytes.toBytes p.poolPublicKey ++
    optionalBytes SizedBytes.toBytes p.poolContractPuzzleHash ++ p.plotPublicKey.toBytes ++ beBytes 1 p.size ++
    beBytes 4 p.proof.length ++ p.proof

structure RewardChainBlockUnfinished where
  totalIters : ℕ
  signagePointIndex : ℕ
  posSsCcChallengeHash : Bytes32
  proofOfSpace : ProofOfSpace
  challengeChainSpVdf : Option VDFInfo
  challengeChainSpSignature : G2Element
  rewardChainSpVdf : Option VDFInfo
  rewardChainSpSignature : G2Element
deriving DecidableEq

def RewardChainBlockUnfinished.stream (b : RewardChainBlockUnfinished) : Bytes :=
  beBytes 16 b.totalIters ++ beBytes 1 b.signagePointIndex ++ b.posSsCcChallengeHash.toBytes ++
    b.proofOfSpace.stream ++ optionalBytes VDFInfo.stream b.challengeChainSpVdf ++
    b.challengeChainSpSignature.toBytes ++ optionalBytes VDFInfo.stream b.rewardChainSpVdf ++
    b.rewardChainSpSignature.toBytes

structure RewardChainBlock where
  weight : ℕ
  weight_lt : weight < 2 ^ 128
  height : ℕ
  height_lt : height < 2 ^ 32
  totalIters : ℕ
  signagePointIndex : ℕ
  posSsCcChallengeHash : Bytes32
  proofOfSpace : ProofOfSpace
  challengeChainSpVdf : Option VDFInfo
  challengeChainSpSignature : G2Element
  challengeChainIpVdf : VDFInfo
  rewardChainSpVdf : Option VDFInfo
  rewardChainSpSignature : G2Element
  rewardChainIpVdf : VDFInfo
  infusedChallengeChainIpVdf : Option VDFInfo
  isTransactionBlock : Bool

namespace RewardChainBlock

def stream (b : RewardChainBlock) : Bytes :=
  beBytes 16 b.weight ++ beBytes 4 b.height ++ beBytes 16 b.totalIters ++ beBytes 1 b.signagePointIndex ++
    b.posSsCcChallengeHash.toBytes ++ b.proofOfSpace.stream ++ optionalBytes VDFInfo.stream b.challengeChainSpVdf ++
    b.challengeChainSpSignature.toBytes ++ b.challengeChainIpVdf.stream ++
    optionalBytes VDFInfo.stream b.rewardChainSpVdf ++ b.rewardChainSpSignature.toBytes ++
    b.rewardChainIpVdf.stream ++ optionalBytes VDFInfo.stream b.infusedChallengeChainIpVdf ++
    [if b.isTransactionBlock then 1 else 0]

def getUnfinished (b : RewardChainBlock) : RewardChainBlockUnfinished :=
  ⟨b.totalIters, b.signagePointIndex, b.posSsCcChallengeHash, b.proofOfSpace, b.challengeChainSpVdf,
    b.challengeChainSpSignature, b.rewardChainSpVdf, b.rewardChainSpSignature⟩

end RewardChainBlock

/-- What becomes the challenge of the infused challenge chain. -/
structure ChallengeBlockInfo where
  proofOfSpace : ProofOfSpace
  challengeChainSpVdf : Option VDFInfo
  challengeChainSpSignature : G2Element
  challengeChainIpVdf : VDFInfo

def ChallengeBlockInfo.stream (i : ChallengeBlockInfo) : Bytes :=
  i.proofOfSpace.stream ++ optionalBytes VDFInfo.stream i.challengeChainSpVdf ++
    i.challengeChainSpSignature.toBytes ++ i.challengeChainIpVdf.stream

structure UnfinishedHeaderBlock where
  finishedSubSlots : List EndOfSubSlotBundle
  rewardChainBlock : RewardChainBlockUnfinished
  challengeChainSpProof : Option VDFProof
  rewardChainSpProof : Option VDFProof
  foliage : Foliage
  foliageTransactionBlock : Option FoliageTransactionBlock
  transactionsFilter : Bytes
deriving DecidableEq

def UnfinishedHeaderBlock.prevHeaderHash (b : UnfinishedHeaderBlock) : Bytes32 := b.foliage.prevBlockHash

structure HeaderBlock where
  finishedSubSlots : List EndOfSubSlotBundle
  rewardChainBlock : RewardChainBlock
  challengeChainSpProof : Option VDFProof
  challengeChainIpProof : VDFProof
  rewardChainSpProof : Option VDFProof
  rewardChainIpProof : VDFProof
  infusedChallengeChainIpProof : Option VDFProof
  foliage : Foliage
  foliageTransactionBlock : Option FoliageTransactionBlock
  transactionsFilter : Bytes

namespace HeaderBlock

variable (b : HeaderBlock)

def prevHeaderHash : Bytes32 := b.foliage.prevBlockHash

def height : ℕ := b.rewardChainBlock.height

def weight : ℕ := b.rewardChainBlock.weight

def totalIters : ℕ := b.rewardChainBlock.totalIters

/-- The part that is known before the block is infused. -/
def unfinished : UnfinishedHeaderBlock :=
  ⟨b.finishedSubSlots, b.rewardChainBlock.getUnfinished, b.challengeChainSpProof, b.rewardChainSpProof, b.foliage,
    b.foliageTransactionBlock, b.transactionsFilter⟩

end HeaderBlock

/-- The fields of a block record that header validation reads. -/
structure BlockRecord where
  headerHash : Bytes32
  prevHash : Bytes32
  height : ℕ
  weight : ℕ
  totalIters : ℕ
  signagePointIndex : ℕ
  challengeVdfOutput : ClassgroupElement
  infusedChallengeVdfOutput : Option ClassgroupElement
  rewardInfusionNewChallenge : Bytes32
  challengeBlockInfoHash : Bytes32
  subSlotIters : ℕ
  requiredIters : ℕ
  deficit : ℕ
  overflow : Bool
  timestamp : Option ℕ
  finishedChallengeSlotHashes : Option (List Bytes32)
  finishedInfusedChallengeSlotHashes : Option (List Bytes32)
  finishedRewardSlotHashes : Option (List Bytes32)
  subEpochSummaryIncluded : Option SubEpochSummary
deriving DecidableEq

namespace BlockRecord

def isTransactionBlock (r : BlockRecord) : Bool := r.timestamp.isSome

def firstInSubSlot (r : BlockRecord) : Bool := r.finishedChallengeSlotHashes.isSome

def isChallengeBlock (r : BlockRecord) : Bool := r.deficit = MIN_BLOCKS_PER_CHALLENGE_BLOCK - 1

end BlockRecord

/-- Values that a network sets, and code that is called but not modelled. -/
structure HeaderEnv where
  genesisChallenge : Bytes32
  genesisPreFarmPoolPuzzleHash : Bytes32
  genesisPreFarmFarmerPuzzleHash : Bytes32
  stdHash : Bytes → Bytes32
  /-- `verify_vdf` for the discriminant of a challenge; `false` for an exception. -/
  verifyVdf : Bytes32 → ClassgroupElement → Bytes → ℕ → ℕ → Bool
  /-- `Verifier().validate_proof` for a plot id, size, challenge and proof. -/
  validateProof : Bytes32 → ℕ → Bytes32 → Bytes → Option Bytes32
  /-- `AugSchemeMPL.verify`. -/
  verify : G1Element → Bytes → G2Element → Bool

end SectorChain.Header
