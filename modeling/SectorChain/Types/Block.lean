import SectorChain.Types.Coin

/-!
# Blocks and block records

The slot data are kept as the bytes they stream to.
-/

namespace SectorChain

abbrev G2Element := SizedBytes 96

/-- How `streamable` writes an optional value. -/
def optionalBytes {α : Type} (stream : α → Bytes) : Option α → Bytes
  | none => [0]
  | some a => 1 :: stream a

/-- How `streamable` writes a list. -/
def listBytes {α : Type} (stream : α → Bytes) (l : List α) : Bytes :=
  Lib.beBytes 4 l.length ++ l.flatMap stream

/-- The streamed coin; `Coin.preimage` is another format. -/
def Coin.stream (coin : Coin) : Bytes :=
  coin.parentCoinInfo.toBytes ++ coin.puzzleHash.toBytes ++ Lib.beBytes 8 coin.amount

structure TransactionsInfo where
  generatorRoot : Bytes32
  generatorRefsRoot : Bytes32
  aggregatedSignature : G2Element
  fees : ℕ
  cost : ℕ
  rewardClaimsIncorporated : List Coin
deriving DecidableEq

def TransactionsInfo.stream (info : TransactionsInfo) : Bytes :=
  info.generatorRoot.toBytes ++ info.generatorRefsRoot.toBytes ++ info.aggregatedSignature.toBytes ++
    Lib.beBytes 8 info.fees ++ Lib.beBytes 8 info.cost ++
    listBytes Coin.stream info.rewardClaimsIncorporated

structure FoliageTransactionBlock where
  prevTransactionBlockHash : Bytes32
  timestamp : ℕ
  filterHash : Bytes32
  additionsRoot : Bytes32
  removalsRoot : Bytes32
  transactionsInfoHash : Bytes32
deriving DecidableEq

def FoliageTransactionBlock.stream (b : FoliageTransactionBlock) : Bytes :=
  b.prevTransactionBlockHash.toBytes ++ Lib.beBytes 8 b.timestamp ++ b.filterHash.toBytes ++
    b.additionsRoot.toBytes ++ b.removalsRoot.toBytes ++ b.transactionsInfoHash.toBytes

structure PoolTarget where
  puzzleHash : Bytes32
  maxHeight : ℕ
deriving DecidableEq

def PoolTarget.stream (t : PoolTarget) : Bytes := t.puzzleHash.toBytes ++ Lib.beBytes 4 t.maxHeight

structure FoliageBlockData where
  unfinishedRewardBlockHash : Bytes32
  poolTarget : PoolTarget
  poolSignature : Option G2Element
  farmerRewardPuzzleHash : Bytes32
  extensionData : Bytes32
deriving DecidableEq

def FoliageBlockData.stream (d : FoliageBlockData) : Bytes :=
  d.unfinishedRewardBlockHash.toBytes ++ d.poolTarget.stream ++
    optionalBytes SizedBytes.toBytes d.poolSignature ++ d.farmerRewardPuzzleHash.toBytes ++
    d.extensionData.toBytes

structure Foliage where
  prevBlockHash : Bytes32
  rewardBlockHash : Bytes32
  foliageBlockData : FoliageBlockData
  foliageBlockDataSignature : G2Element
  foliageTransactionBlockHash : Option Bytes32
  foliageTransactionBlockSignature : Option G2Element
deriving DecidableEq

def Foliage.stream (f : Foliage) : Bytes :=
  f.prevBlockHash.toBytes ++ f.rewardBlockHash.toBytes ++ f.foliageBlockData.stream ++
    f.foliageBlockDataSignature.toBytes ++
    optionalBytes SizedBytes.toBytes f.foliageTransactionBlockHash ++
    optionalBytes SizedBytes.toBytes f.foliageTransactionBlockSignature

/-- What the challenge chain says about the sub-epoch, and the bytes of everything else. -/
structure EndOfSubSlotBundle where
  subepochSummaryHash : Option Bytes32
  newSubSlotIters : Option ℕ
  newDifficulty : Option ℕ
  slotData : Bytes
deriving DecidableEq

structure RewardChainBlock where
  weight : ℕ
  height : ℕ
  height_lt : height < 2 ^ 32
  isTransactionBlock : Bool
  slotData : Bytes
deriving DecidableEq

structure FullBlock where
  finishedSubSlots : List EndOfSubSlotBundle
  rewardChainBlock : RewardChainBlock
  proofs : Bytes
  foliage : Foliage
  foliageTransactionBlock : Option FoliageTransactionBlock
  transactionsInfo : Option TransactionsInfo
  transactionsGenerator : Option Bytes
  transactionsGeneratorRefList : List ℕ
deriving DecidableEq

namespace FullBlock

variable (block : FullBlock)

def prevHeaderHash : Bytes32 := block.foliage.prevBlockHash

def height : ℕ := block.rewardChainBlock.height

def weight : ℕ := block.rewardChainBlock.weight

def headerHash (stdHash : Bytes → Bytes32) (block : FullBlock) : Bytes32 :=
  stdHash block.foliage.stream

def isTransactionBlock : Bool := block.foliageTransactionBlock.isSome

/-- The set of reward coins of a transaction block. -/
def getIncludedRewardCoins : Except PyError (List Coin) :=
  if !block.isTransactionBlock then .ok []
  else match block.transactionsInfo with
    | none => .error .assertionError
    | some info => .ok info.rewardClaimsIncorporated.dedup

end FullBlock

/-- A block without its generator but with the filter over its coins. -/
structure HeaderBlock where
  finishedSubSlots : List EndOfSubSlotBundle
  rewardChainBlock : RewardChainBlock
  proofs : Bytes
  foliage : Foliage
  foliageTransactionBlock : Option FoliageTransactionBlock
  transactionsFilter : Bytes
  transactionsInfo : Option TransactionsInfo
deriving DecidableEq

structure SubEpochSummary where
  prevSubepochSummaryHash : Bytes32
  rewardChainHash : Bytes32
  numBlocksOverflow : ℕ
  newDifficulty : Option ℕ
  newSubSlotIters : Option ℕ
deriving DecidableEq

def SubEpochSummary.stream (s : SubEpochSummary) : Bytes :=
  s.prevSubepochSummaryHash.toBytes ++ s.rewardChainHash.toBytes ++
    Lib.beBytes 1 s.numBlocksOverflow ++ optionalBytes (Lib.beBytes 8) s.newDifficulty ++
    optionalBytes (Lib.beBytes 8) s.newSubSlotIters

/-- The summary of a block; `slotData` are the fields about iterations and slots. -/
structure BlockRecord where
  headerHash : Bytes32
  prevHash : Bytes32
  height : ℕ
  weight : ℕ
  poolPuzzleHash : Bytes32
  farmerPuzzleHash : Bytes32
  prevTransactionBlockHeight : ℕ
  timestamp : Option ℕ
  prevTransactionBlockHash : Option Bytes32
  fees : Option ℕ
  rewardClaimsIncorporated : Option (List Coin)
  subEpochSummaryIncluded : Option SubEpochSummary
  slotData : Bytes
deriving DecidableEq

def BlockRecord.isTransactionBlock (r : BlockRecord) : Bool := r.timestamp.isSome

structure CoinRecord where
  coin : Coin
  confirmedBlockIndex : ℕ
  spentBlockIndex : ℕ
  spent : Bool
  coinbase : Bool
  timestamp : ℕ
deriving DecidableEq

def CoinRecord.name (stdHash : Bytes → Bytes32) (r : CoinRecord) : Bytes32 := r.coin.name stdHash

end SectorChain
