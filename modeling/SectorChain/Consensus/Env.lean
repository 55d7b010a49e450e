import SectorChain.Types.Block
import SectorChain.Types.Condition

/-!
# Constants and external functions
-/

namespace SectorChain

structure ConsensusConstants where
  subSlotItersStarting : ℕ
  difficultyStarting : ℕ
  maxFutureTime : ℕ
  genesisChallenge : Bytes32
  aggSigMeAdditionalData : Bytes
  maxCoinAmount : ℕ
  maxBlockCostClvm : ℕ
  costPerByte : ℕ
  initialFreezeEndTimestamp : ℕ
  blocksCacheSize : ℕ
  maxGeneratorRefListSize : ℕ

def DEFAULT_CONSTANTS : ConsensusConstants where
  subSlotItersStarting := 2 ^ 27
  difficultyStarting := 7
  maxFutureTime := 5 * 60
  genesisChallenge := .ofNat 32 0x9bfb9dc954b5785e807d6c8e678f4db20fda63976ef6e237d940e03780557b5f
  aggSigMeAdditionalData := Lib.beBytes 32
    0x8c63fdfef6e0f9a484ecbb19836c01449dfd7694f6acff0c15b5f4654ad74b9b
  maxCoinAmount := 2 ^ 64 - 1
  maxBlockCostClvm := 11000000000
  costPerByte := 12000
  initialFreezeEndTimestamp := 1620061200
  blocksCacheSize := 4608 + 128 * 4
  maxGeneratorRefListSize := 512

/-- What header validation reads of a `BlockchainInterface`. -/
structure BlockchainInterface where
  blockRecords : Lib.Dict Bytes32 BlockRecord
  heightToHash : Lib.Dict ℕ Bytes32
  subEpochSummaries : Lib.Dict ℕ SubEpochSummary

namespace BlockchainInterface

variable (blocks : BlockchainInterface)

def containsBlock (headerHash : Bytes32) : Bool := blocks.blockRecords.contains headerHash

def tryBlockRecord (headerHash : Bytes32) : Option BlockRecord := blocks.blockRecords.get? headerHash

def blockRecord (headerHash : Bytes32) : Except PyError BlockRecord :=
  match blocks.blockRecords.get? headerHash with
  | some r => .ok r
  | none => .error .keyError

/-- The loop back to a transaction block. Heights fall, so the first one bounds the rounds. -/
def lastTransactionBlock : ℕ → BlockRecord → Except PyError BlockRecord
  | 0, _ => .error .doesNotReturn
  | fuel + 1, curr =>
    if curr.isTransactionBlock then .ok curr
    else do
      let prev ← blocks.blockRecord curr.prevHash
      lastTransactionBlock fuel prev

end BlockchainInterface

/-- The places of header validation whose checks are external: 2 to 14, 16 to 21 and 29 to 32. -/
inductive HeaderStage where
  | slots
  | signatures
  | infusion
deriving DecidableEq, Repr

/-- Code that is called but not modelled. -/
structure Env where
  constants : ConsensusConstants
  stdHash : Bytes → Bytes32
  /-- `run_safe_with_cost` in strict mode, else `run_with_cost`; `none` for an exception. -/
  runGenerator : Bool → ℕ → Bytes → SExp → Option (ℕ × SExp)
  /-- `PyBIP158(elements).GetEncoded()`. -/
  bip158 : List Bytes → Bytes
  /-- Whether `G1Element.from_bytes` accepts the bytes. -/
  isG1Element : Bytes → Bool
  aggregateVerify : List Bytes → List Bytes → G2Element → Bool
  /-- `time.time()`. -/
  time : ℕ
  getNextSubSlotItersAndDifficulty :
    Bool → Option BlockRecord → BlockchainInterface → Except PyError (ℕ × ℕ)
  /-- Header validation looks up block records only, by their hashes. -/
  headerChecks :
    HeaderStage → Lib.Dict Bytes32 BlockRecord → HeaderBlock → ℕ → ℕ → Except PyError (Option Err)
  requiredIters : Lib.Dict Bytes32 BlockRecord → HeaderBlock → ℕ → ℕ → ℕ
  /-- `our_sp_total_iters > curr.total_iters` for the last transaction block `curr`. -/
  signagePointAfter : Lib.Dict Bytes32 BlockRecord → HeaderBlock → ℕ → BlockRecord → Bool
  makeSubEpochSummary :
    BlockchainInterface → ℕ → BlockRecord → Option ℕ → Option ℕ → Except PyError SubEpochSummary
  /-- The slot fields of the record of a block. -/
  recordSlotData : BlockchainInterface → ℕ → FullBlock → Except PyError Bytes

/-- A filter is a function of the set of its elements. -/
def FilterOfSet (bip158 : List Bytes → Bytes) : Prop :=
  ∀ l l', (∀ x, x ∈ l ↔ x ∈ l') → bip158 l = bip158 l'

end SectorChain
