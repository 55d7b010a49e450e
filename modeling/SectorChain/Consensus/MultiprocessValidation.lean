import SectorChain.Consensus.Blockchain

/-!
# Pre-validation in worker processes

The node hands over its block records.
-/

namespace SectorChain

open Lib

structure BatchItem where
  block : FullBlock
  generator : Option BlockGenerator
  expectedDifficulty : ℕ
  expectedSubSlotIters : ℕ

section

variable (env : Env)

variable (blocks : Dict Bytes32 BlockRecord) (npcResults : Dict ℕ NPCResult)

def batchNpcResult (item : BatchItem) : Except PyError (Option NPCResult) :=
  match npcResults.get? item.block.height with
  | some npcResult => .ok (some npcResult)
  | none =>
    match item.block.transactionsGenerator with
    | none => .ok none
    | some program => do
      let generator ← assertSome item.generator
      let info ← assertSome item.block.transactionsInfo
      pyAssert (generator.program = program)
      return some (getNamePuzzleConditions env generator
        (min env.constants.maxBlockCostClvm info.cost) true)

/-- The records that a worker sees (`BlockCache`). -/
def workerBlocks : BlockchainInterface := ⟨blocks, .empty, .empty⟩

/-- One round of `batch_pre_validate_blocks`; every exception becomes `UNKNOWN`. -/
def batchPreValidateBlock (checkFilter : Bool) (item : BatchItem) : PreValidationResult :=
  match batchNpcResult env npcResults item with
  | .error _ => ⟨some .UNKNOWN, none, none⟩
  | .ok npcResult =>
    match validateHeader env (workerBlocks blocks) item.block npcResult checkFilter
        item.expectedDifficulty item.expectedSubSlotIters with
    | .ok requiredIters => ⟨none, some requiredIters, npcResult⟩
    | .error (.rejected code) => ⟨some code, none, npcResult⟩
    | .error (.raised _) => ⟨some .UNKNOWN, none, none⟩

def batchPreValidateBlocks (checkFilter : Bool) (items : List BatchItem) : List PreValidationResult :=
  items.map (batchPreValidateBlock env blocks npcResults checkFilter)

def batchItem (block : FullBlock) : NodeM (Option BatchItem) := do
  let (subSlotIters, difficulty) ← nextSubSlotItersAndDifficulty env (← get).blocks block
  match ← tryGetGenerator block with
  | none => return none
  | some generator => return some ⟨block, generator, difficulty, subSlotIters⟩

/-- Pre-validation on `recentBlocks`, then `receive_block`; `none` if the first gives up. -/
def preValidateAndReceive (recentBlocks : Dict Bytes32 BlockRecord) (block : FullBlock)
    (forkPointWithPeak : Option ℕ) : NodeM (Option (ReceiveBlockResult × Option Err × Option ℕ)) := do
  match ← batchItem env block with
  | none => return none
  | some item =>
    let results := batchPreValidateBlocks env recentBlocks .empty true [item]
    some <$> receiveBlock env block results.head? forkPointWithPeak

end

end SectorChain
