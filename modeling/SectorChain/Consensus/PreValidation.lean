import SectorChain.Consensus.MultiprocessValidation

/-!
# Pre-validation of a batch

The records of a batch are added for the time being.
-/

namespace SectorChain

open Lib

structure PreValidationEnv extends Env where
  numberOfTimestamps : ℕ
  subEpochBlocks : ℕ
  overflow : BlockRecord → Bool
  /-- `finished_challenge_slot_hashes`, which the first block in a sub-slot has. -/
  finishedChallengeSlotHashes : BlockRecord → Option (List Bytes32)
  /-- Challenge, proof of space and required iterations of a block; `none` for an invalid proof. -/
  provenIters : Dict Bytes32 BlockRecord → FullBlock → Bool → ℕ → Except PyError (Option ℕ)

/-- All records for a batch with a new sub-slot, else the most recent ones. -/
structure RecentBlocks where
  recentBlocks : Dict Bytes32 BlockRecord
  recentBlocksCompressed : Dict Bytes32 BlockRecord

def RecentBlocks.add (recent : RecentBlocks) (headerHash : Bytes32) (record : BlockRecord) : RecentBlocks :=
  ⟨recent.recentBlocks.set headerHash record, recent.recentBlocksCompressed.set headerHash record⟩

structure BatchState where
  recent : RecentBlocks
  prevB : Option BlockRecord
  diffSsis : List (ℕ × ℕ)

inductive Temporary where
  | invalidProof
  | otherSummary
  | record (blockRec : BlockRecord) (difficulty subSlotIters : ℕ)

section

variable (env : PreValidationEnv)

/-- The loop over the blocks before the batch, up to a sub-epoch summary. -/
def recentBlocksFrom (blocks : BlockchainInterface) (numSubSlotsToLookFor : ℕ) :
    ℕ → BlockRecord → ℕ → ℕ → RecentBlocks → Except PyError RecentBlocks
  | 0, _, _, _, _ => .error .doesNotReturn
  | fuel + 1, curr, numBlocksSeen, numSubSlotsFound, recent =>
    let few : Bool := numBlocksSeen < env.numberOfTimestamps ∨ numSubSlotsFound < numSubSlotsToLookFor
    if (curr.subEpochSummaryIncluded.isNone ∨ few) ∧ curr.height > 0 then do
      let compressed := if few then recent.recentBlocksCompressed.set curr.headerHash curr
        else recent.recentBlocksCompressed
      let numSubSlotsFound := match env.finishedChallengeSlotHashes curr with
        | some hashes => numSubSlotsFound + hashes.length
        | none => numSubSlotsFound
      let numBlocksSeen := if curr.isTransactionBlock then numBlocksSeen + 1 else numBlocksSeen
      let prev ← blocks.blockRecord curr.prevHash
      recentBlocksFrom blocks numSubSlotsToLookFor fuel prev numBlocksSeen numSubSlotsFound
        ⟨recent.recentBlocks.set curr.headerHash curr, compressed⟩
    else return recent.add curr.headerHash curr

variable (wpSummaries : Option (List SubEpochSummary)) (blocks : BlockchainInterface)

def recentBlocksOf (batch : List FullBlock) : Except PyError (Option RecentBlocks) :=
  match batch with
  | [] => .error .indexError
  | first :: _ =>
    if first.height > 0 then
      match blocks.tryBlockRecord first.prevHeaderHash with
      | none => .ok none
      | some curr => some <$> recentBlocksFrom env blocks (if env.overflow curr then 3 else 2) (curr.height + 1) curr
          0 0 ⟨.empty, .empty⟩
    else .ok (some ⟨.empty, .empty⟩)

def removeBlockRecord (headerHash : Bytes32) : NodeM Unit := do
  let sbr ← (← get).blocks.blockRecord headerHash
  modify fun s => { s with blockRecords := s.blockRecords.erase headerHash }
  match (← get).heightsInCache.get? sbr.height with
  | none => throw .keyError
  | some hashes =>
    if headerHash ∈ hashes then
      modify fun s => { s with heightsInCache := s.heightsInCache.set sbr.height (hashes.erase headerHash) }
    else throw .keyError

def previousRecord (prevB : Option BlockRecord) (block : FullBlock) : Except PyError (Option BlockRecord) :=
  if block.height ≠ 0 then do
    pyAssert (blocks.containsBlock block.prevHeaderHash)
    match prevB with
    | some prevB => return some prevB
    | none => some <$> blocks.blockRecord block.prevHeaderHash
  else return prevB

/-- `summaries[idx]`, where a negative index counts from the end. -/
def summaryAt (summaries : List SubEpochSummary) (idx : ℤ) : Except PyError SubEpochSummary :=
  match summaries[(if idx < 0 then idx + summaries.length else idx).toNat]? with
  | some ses => if idx + summaries.length < 0 then .error .indexError else .ok ses
  | none => .error .indexError

/-- Whether the summary that a block includes is the one of the weight proof. -/
def agreesWithSummaries (block : FullBlock) (blockRec : BlockRecord) : Except PyError Bool :=
  match blockRec.subEpochSummaryIncluded, wpSummaries with
  | some ses, some summaries => do
    let nextSes ← summaryAt summaries (block.height / env.subEpochBlocks - 1)
    return env.stdHash ses.stream = env.stdHash nextSes.stream
  | _, _ => .ok true

def temporaryRecord
    (recentBlocks : Dict Bytes32 BlockRecord) (prevB : Option BlockRecord) (block : FullBlock) :
    Except PyError Temporary := do
  let prevB ← previousRecord blocks prevB block
  let (subSlotIters, difficulty) ←
    env.getNextSubSlotItersAndDifficulty (block.finishedSubSlots.length > 0) prevB blocks
  match ← env.provenIters recentBlocks block prevB.isNone difficulty with
  | none => return .invalidProof
  | some requiredIters =>
    let blockRec ← blockToBlockRecord env.toEnv blocks requiredIters block
    if ← agreesWithSummaries env wpSummaries block blockRec then
      return .record blockRec difficulty subSlotIters
    else return .otherSummary

def removePresent (was : List (FullBlock × Bool)) : NodeM Unit :=
  was.forM fun b => do
    if !b.2 && (← get).blocks.containsBlock (b.1.headerHash env.stdHash) then
      removeBlockRecord (b.1.headerHash env.stdHash)

/-- The loop over the batch; `none` if it gives up. -/
def addTemporaryRecords (wpSummaries : Option (List SubEpochSummary)) (was : List (FullBlock × Bool)) :
    List FullBlock → BatchState → NodeM (Option BatchState)
  | [], st => return some st
  | block :: rest, st => do
    let s ← get
    match ← temporaryRecord env wpSummaries s.blocks st.recent.recentBlocks st.prevB block with
    | .invalidProof =>
      removePresent env was
      return none
    | .otherSummary => return none
    | .record blockRec difficulty subSlotIters =>
      match s.blockRecords.get? blockRec.headerHash with
      | none =>
        addBlockRecord blockRec
        addTemporaryRecords wpSummaries was rest ⟨st.recent.add blockRec.headerHash blockRec, some blockRec,
          st.diffSsis ++ [(difficulty, subSlotIters)]⟩
      | some known =>
        addTemporaryRecords wpSummaries was rest ⟨st.recent.add blockRec.headerHash known, some blockRec,
          st.diffSsis ++ [(difficulty, subSlotIters)]⟩

def removeTemporaryRecords (was : List (FullBlock × Bool)) : NodeM Unit :=
  was.forM fun b => if b.2 then pure () else removeBlockRecord (b.1.headerHash env.stdHash)

def prevBlocksFrom (blockDict : Dict Bytes32 FullBlock) :
    ℕ → FullBlock → Dict Bytes32 FullBlock → Except PyError (Dict Bytes32 FullBlock)
  | 0, _, _ => .error .doesNotReturn
  | fuel + 1, curr, prevBlocks =>
    match blockDict.get? curr.prevHeaderHash with
    | none => .ok prevBlocks
    | some prev => prevBlocksFrom blockDict fuel prev (prevBlocks.set (prev.headerHash env.stdHash) prev)

/-- The arguments of the workers; `none` if a referenced block has no generator. -/
def workerItems (blockDict : Dict Bytes32 FullBlock) : List (FullBlock × ℕ × ℕ) → NodeM (Option (List BatchItem))
  | [] => return some []
  | (block, difficulty, subSlotIters) :: rest => do
    let prevBlocks ← prevBlocksFrom env blockDict (blockDict.entries.length + 1) block .empty
    let generator ← tryCatch (some <$> getBlockGenerator block prevBlocks) fun e =>
      match e with
      | .valueError => return none
      | e => throw e
    match generator with
    | none => return none
    | some generator =>
      match ← workerItems blockDict rest with
      | none => return none
      | some items => return some (⟨block, generator, difficulty, subSlotIters⟩ :: items)

def runBatch (recent : RecentBlocks) (npcResults : Dict ℕ NPCResult) (items : List BatchItem) :
    List PreValidationResult :=
  let blocks := if items.any fun item => item.block.finishedSubSlots.length > 0 then recent.recentBlocks
    else recent.recentBlocksCompressed
  batchPreValidateBlocks env.toEnv blocks npcResults true items

/-- `asyncio.gather`, which may be cancelled. -/
def gather (results : List PreValidationResult) : NodeM (List PreValidationResult) :=
  Node.statement fun s => (.ok results, s)

/-- The results of pre-validation, or `none` if it gives up. -/
def preValidateBlocksMultiprocessing (batch : List FullBlock) (npcResults : Dict ℕ NPCResult) (batchSize : ℕ)
    (wpSummaries : Option (List SubEpochSummary)) : NodeM (Option (List PreValidationResult)) := do
  match ← recentBlocksOf env (← get).blocks batch with
  | none => return some [⟨some .INVALID_PREV_BLOCK_HASH, none, none⟩]
  | some recent =>
    let s ← get
    let was := batch.map fun block => (block, s.blocks.containsBlock (block.headerHash env.stdHash))
    match ← addTemporaryRecords env wpSummaries was batch ⟨recent, none, []⟩ with
    | none => return none
    | some st =>
      removeTemporaryRecords env was
      let blockDict := batch.foldl (fun d block => d.set (block.headerHash env.stdHash) block) .empty
      if batchSize = 0 then throw .valueError
      match ← workerItems env blockDict (batch.zip st.diffSsis) with
      | none => return none
      | some items =>
        let results ← gather ((items.toChunks batchSize).flatMap (runBatch env st.recent npcResults))
        return some results

end

end SectorChain
