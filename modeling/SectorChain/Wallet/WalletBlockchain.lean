import SectorChain.Consensus.Blockchain
import SectorChain.Consensus.Header.Record
import SectorChain.Lib.Iteration
import SectorChain.Wallet.WalletStores

/-!
# The blockchain of the wallet

The rollback of the database itself is taken not to fail.
-/

namespace SectorChain.Header

open Lib

structure HeaderBlockRecord where
  header : HeaderBlock
  additions : List Coin
  removals : List Coin

def HeaderBlock.headerHash (env : HeaderEnv) (b : HeaderBlock) : Bytes32 := env.stdHash b.foliage.stream

/-- A row of the table `block_records`. -/
structure WalletBlockRow where
  block : BlockRecord
  isPeak : Bool
deriving DecidableEq

/-- The tables that a transaction covers. Additional spends are stored under a hash but looked up under its text. -/
structure WalletTables where
  headerBlocks : Dict Bytes32 HeaderBlockRecord
  blockRecords : Dict Bytes32 WalletBlockRow
  coinRecord : Dict Bytes32 WalletCoinRecord
  transactionRecord : Dict Bytes32 TransactionRecord
  poolStateTransitions : Dict (ℕ × ℕ) StateTransition

structure WalletBlockchain where
  headerBlocks : Dict Bytes32 HeaderBlockRecord
  blockRecordRows : Dict Bytes32 WalletBlockRow
  stores : WalletStores
  /-- The tables at the start of the open transaction. -/
  saved : Option WalletTables
  /-- The cache of the block store, where an entry may be `None`. -/
  blockCache : LruCache Bytes32 (Option HeaderBlockRecord)
  peakHeight : Option ℕ
  blockRecords : Dict Bytes32 BlockRecord
  heightToHash : Dict ℕ Bytes32
  heightsInCache : Dict ℕ (List Bytes32)
  subEpochSummaries : Dict ℕ SubEpochSummary
  /-- The variable of `receive_block` that its exception handler reads. -/
  heightsChanged : Finset (ℕ × Option Bytes32)

abbrev WalletBlockchainM (α : Type) := Exec PyError WalletBlockchain α

/-- Constants, and what is called but not modelled here. -/
structure WalletChainEnv where
  header : HeaderEnv
  blocksCacheSize : ℕ
  newTransactionBlockCallback : List Coin → List Coin → BlockRecord → List CoinSolution → WalletStoresM Unit
  reorgRollback : ℤ → WalletStoresM Unit
  /-- The order in which the set of changed heights is iterated. -/
  heightOrder : Iteration (ℕ × Option Bytes32)

namespace WalletBlockchain

/-- The size of the cache of the block store. -/
abbrev BLOCK_CACHE_CAPACITY : ℕ := 1000

def new : WalletBlockchain where
  headerBlocks := .empty
  blockRecordRows := .empty
  stores := .new
  saved := none
  blockCache := .new BLOCK_CACHE_CAPACITY
  peakHeight := none
  blockRecords := .empty
  heightToHash := .empty
  heightsInCache := .empty
  subEpochSummaries := .empty
  heightsChanged := ∅

/-- What validation looks up. -/
def blocks (s : WalletBlockchain) : Blocks := ⟨s.blockRecords, s.heightToHash⟩

def getPeak (s : WalletBlockchain) : Except PyError (Option BlockRecord) :=
  match s.peakHeight with
  | none => .ok none
  | some height => do
    let peak ← s.blocks.heightToBlockRecord height
    return some peak

def tables (s : WalletBlockchain) : WalletTables where
  headerBlocks := s.headerBlocks
  blockRecords := s.blockRecordRows
  coinRecord := s.stores.coinStore.coinRecord
  transactionRecord := s.stores.txStore.transactionRecord
  poolStateTransitions := s.stores.poolStore.poolStateTransitions

/-- The tables replaced. The caches stay. -/
def withTables (s : WalletBlockchain) (t : WalletTables) : WalletBlockchain :=
  { s with
    headerBlocks := t.headerBlocks
    blockRecordRows := t.blockRecords
    stores :=
      { coinStore := { s.stores.coinStore with coinRecord := t.coinRecord }
        txStore := { s.stores.txStore with transactionRecord := t.transactionRecord }
        poolStore := { s.stores.poolStore with poolStateTransitions := t.poolStateTransitions } } }

/-- The statements of the database that adding a block runs. -/
inductive Statement where
  | beginTransaction
  | insertHeaderBlock
  | insertBlockRecord
  | insertAdditionalCoinSpends
  | selectHeaderBlock (headerHash : Bytes32)
  | selectBlockRecord (headerHash : Bytes32)
  | selectAdditionalCoinSpends (headerHash : Bytes32)
  | clearPeak
  | markPeak
  | commitTransaction
deriving DecidableEq

/-- What fails during a call: some of its statements, and the connection if it is closed meanwhile. -/
structure Faults where
  fails : Statement → Option Fault
  /-- Whether there still is a connection when a statement has failed. -/
  connected : Bool

section

variable (env : WalletChainEnv) (faults : Faults)

/-- An awaited statement. -/
def statement {α : Type} (st : Statement) (op : WalletBlockchain → Except PyError α × WalletBlockchain) :
    WalletBlockchainM α := .mk fun s =>
  match faults.fails st with
  | none => op s
  | some f => (.error f.error, if f.performed then (op s).2 else s)

/-- A `SELECT`. -/
def query {α : Type} (st : Statement) (f : WalletBlockchain → α) : WalletBlockchainM α :=
  statement faults st fun s => (.ok (f s), s)

/-- An `INSERT` or `UPDATE`. -/
def update (st : Statement) (f : WalletBlockchain → WalletBlockchain) : WalletBlockchainM Unit :=
  statement faults st fun s => (.ok (), f s)

def beginTransaction : WalletBlockchainM Unit := statement faults .beginTransaction fun s =>
  match s.saved with
  | none => (.ok (), { s with saved := some s.tables })
  | some _ => (.error .operationalError, s)

/-- A commit that raises has not been carried out. -/
def commitTransaction : WalletBlockchainM Unit := .mk fun s =>
  match faults.fails .commitTransaction with
  | none => (.ok (), { s with saved := none })
  | some f => (.error f.error, s)

def rollbackTransaction : WalletBlockchainM Unit := modify fun s =>
  match s.saved with
  | some t => { s.withTables t with saved := none }
  | none => s

def onStores {α : Type} (m : WalletStoresM α) : WalletBlockchainM α := .mk fun s =>
  let (r, stores) := exec m s.stores
  (r, { s with stores := stores })

variable (s : WalletBlockchain) (args : ReceiveArgs) (blockRecord : BlockRecord) (headerHash : Bytes32)

def blockCacheGet : WalletBlockchainM (Option HeaderBlockRecord) := .mk fun s =>
  let (cached, cache) := s.blockCache.get headerHash
  (.ok cached.join, { s with blockCache := cache })

def blockCachePut (block : Option HeaderBlockRecord) : WalletBlockchainM Unit :=
  modify fun s => { s with blockCache := s.blockCache.put headerHash block }

/-- Makes the entry of a block `None` if there is one. -/
def dropCached : WalletBlockchainM Unit := do
  let cached ← blockCacheGet headerHash
  if cached.isSome then blockCachePut headerHash none

def storeBlockRecord (headerBlockRecord : HeaderBlockRecord) (blockRecord : BlockRecord)
    (additionalCoinSpends : List CoinSolution) : WalletBlockchainM Unit := do
  let headerHash := headerBlockRecord.header.headerHash env.header
  dropCached headerHash
  update faults .insertHeaderBlock fun s => { s with headerBlocks := s.headerBlocks.set headerHash headerBlockRecord }
  update faults .insertBlockRecord fun s =>
    { s with blockRecordRows := s.blockRecordRows.set headerHash ⟨blockRecord, false⟩ }
  if additionalCoinSpends.length > 0 then update faults .insertAdditionalCoinSpends id

def getHeaderBlockRecord : WalletBlockchainM (Option HeaderBlockRecord) := do
  match ← blockCacheGet headerHash with
  | some cached => return some cached
  | none =>
    match ← query faults (.selectHeaderBlock headerHash) fun s => s.headerBlocks.get? headerHash with
    | some hbr =>
      blockCachePut (hbr.header.headerHash env.header) (some hbr)
      return some hbr
    | none => return none

def getBlockRecord : WalletBlockchainM (Option BlockRecord) :=
  query faults (.selectBlockRecord headerHash) fun s => (s.blockRecordRows.get? headerHash).map WalletBlockRow.block

def getAdditionalCoinSpends : WalletBlockchainM (Option (List CoinSolution)) :=
  query faults (.selectAdditionalCoinSpends headerHash) fun _ => none

/-- A lookup that raises if the key is not there. -/
def requireKey (present : Bool) : Except PyError Unit := if present then .ok () else .error .keyError

/-- Takes a block out of the cache, where it has to be. -/
def rollbackCacheBlock : WalletBlockchainM Unit := do
  requireKey ((← get).blockCache.peek headerHash).isSome
  modify fun s => { s with blockCache := s.blockCache.remove headerHash }

def setPeak : WalletBlockchainM Unit := do
  update faults .clearPeak fun s =>
    { s with blockRecordRows := s.blockRecordRows.mapVals fun _ row => { row with isPeak := false } }
  update faults .markPeak fun s =>
    { s with blockRecordRows := s.blockRecordRows.mapVals fun h row =>
        if h = headerHash then { row with isPeak := true } else row }

def addBlockRecord : WalletBlockchainM Unit := modify fun s =>
  let cached := (s.heightsInCache.get? blockRecord.height).getD []
  { s with
    blockRecords := s.blockRecords.set blockRecord.headerHash blockRecord
    heightsInCache := s.heightsInCache.set blockRecord.height (cached.insert blockRecord.headerHash) }

def removeBlockRecord : WalletBlockchainM Unit := do
  let sbr ← (← get).blocks.blockRecord headerHash
  modify fun s => { s with blockRecords := s.blockRecords.erase headerHash }
  let hashes := ((← get).heightsInCache.get? sbr.height).getD []
  requireKey (headerHash ∈ hashes)
  modify fun s => { s with heightsInCache := s.heightsInCache.set sbr.height (hashes.erase headerHash) }

/-- `del self.__block_records[header_hash]`. -/
def deleteBlockRecord : WalletBlockchainM Unit := do
  requireKey ((← get).blockRecords.contains headerHash)
  modify fun s => { s with blockRecords := s.blockRecords.erase headerHash }

def cleanHeight (height : ℕ) : WalletBlockchainM Bool := do
  match (← get).heightsInCache.get? height with
  | none => return false
  | some blocksToRemove =>
    blocksToRemove.forM deleteBlockRecord
    modify fun s => { s with heightsInCache := s.heightsInCache.erase height }
    return true

/-- Goes down from a height as long as heights are in the cache. -/
def cleanFrom : ℕ → WalletBlockchainM Unit
  | 0 => do
    let _ ← cleanHeight 0
    return ()
  | height + 1 => do
    if ← cleanHeight (height + 1) then cleanFrom height

def cleanBlockRecord (height : ℤ) : WalletBlockchainM Unit :=
  if height < 0 then pure () else cleanFrom height.toNat

abbrev recordShape : Shape Bytes32 BlockRecord := ⟨BlockRecord.headerHash, BlockRecord.prevHash, BlockRecord.height⟩

/-- The height of the last common block, or -1 if there is none. -/
def findForkPointInChain (blocks : Blocks) (block1 block2 : BlockRecord) : Except PyError ℤ :=
  findForkPointFrom recordShape blocks.blockRecord (block1.height + block2.height + 1) block1 block2

/-- The fork height of a heavier block. -/
def forkHeight (blocks : Blocks) (blockRecord peak : BlockRecord) : Option ℕ → Except PyError ℤ
  | some fork => .ok fork
  | none => findForkPointInChain blocks blockRecord peak

/-- Whether `curr` is the block at the fork height in the map. -/
def atFork (forkH : ℤ) (curr : Bytes32) : Except PyError Bool :=
  if forkH < 0 then .ok false
  else do
    let headerHash ← s.blocks.hashAt forkH.toNat
    return curr = headerHash

/-- A block of the new chain with its record and the spends that go with it. -/
abbrev FetchedBlock := HeaderBlockRecord × BlockRecord × List CoinSolution

/-- The spends that go with a block: those of the call for the new block. -/
def coinSpendsOf (fromWallet : List CoinSolution) (curr : Bytes32) : WalletBlockchainM (List CoinSolution) :=
  if curr = blockRecord.headerHash then return fromWallet
  else do
    let spends ← getAdditionalCoinSpends faults curr
    return spends.getD []

/-- The blocks from `curr` back to the fork. A loop with more rounds than rows goes on for ever. -/
def blocksToAddFrom (blockRecord : BlockRecord) (fromWallet : List CoinSolution) (forkH : ℤ) :
    ℕ → Bytes32 → WalletBlockchainM (List FetchedBlock)
  | 0, _ => throw .doesNotReturn
  | fuel + 1, curr => do
    if ← atFork (← get) forkH curr then return []
    let fetchedHeaderBlock ← getHeaderBlockRecord env faults curr
    let fetchedBlockRecord ← getBlockRecord faults curr
    let additionalCoinSpends ← coinSpendsOf faults blockRecord fromWallet curr
    let fetchedHeaderBlock ← assertSome fetchedHeaderBlock
    let fetchedBlockRecord ← assertSome fetchedBlockRecord
    let fetched := (fetchedHeaderBlock, fetchedBlockRecord, additionalCoinSpends)
    if fetchedHeaderBlock.header.height = 0 then return [fetched]
    let older ← blocksToAddFrom blockRecord fromWallet forkH fuel fetchedBlockRecord.prevHash
    return fetched :: older

/-- Enters a block into the map from heights, and notes what was there. -/
def changeHeight (height : ℕ) (headerHash : Bytes32) : WalletBlockchainM Unit := modify fun s =>
  { s with
    heightToHash := s.heightToHash.set height headerHash
    heightsChanged := insert (height, s.heightToHash.get? height) s.heightsChanged }

/-- Makes a block of the new chain the one at its height. -/
def applyBlock (fetched : FetchedBlock) : WalletBlockchainM Unit := do
  changeHeight fetched.2.1.height fetched.2.1.headerHash
  if fetched.2.1.isTransactionBlock then
    onStores (env.newTransactionBlockCallback fetched.1.removals fetched.1.additions fetched.2.1 fetched.2.2)

/-- The first block. Without a peak the map from heights is empty. -/
def applyGenesis : WalletBlockchainM Unit := do
  let block ← getHeaderBlockRecord env faults blockRecord.headerHash
  let block ← assertSome block
  changeHeight 0 (block.header.headerHash env.header)
  pyAssert (block.additions.length = 0 ∧ block.removals.length = 0)
  onStores (env.newTransactionBlockCallback block.removals block.additions blockRecord [])
  modify fun s => { s with peakHeight := some 0 }

def rollbackSubEpochSummaries (forkH : ℤ) : WalletBlockchainM Unit := modify fun s =>
  { s with subEpochSummaries := s.subEpochSummaries.filter fun h _ => (h : ℤ) ≤ forkH }

/-- Rolls the stores back to the fork if the block does not extend the peak. -/
def rollbackToFork (blockRecord peak : BlockRecord) (forkH : ℤ) : WalletBlockchainM Unit :=
  if blockRecord.prevHash ≠ peak.headerHash then onStores (env.reorgRollback forkH) else pure ()

/-- Makes a heavier block the peak. A fork height below zero is returned as none. -/
def applyChain (blockRecord peak : BlockRecord) (forkPointWithPeak : Option ℕ) (fromWallet : List CoinSolution) :
    WalletBlockchainM (Option ℕ × List BlockRecord) := do
  let forkH ← forkHeight (← get).blocks blockRecord peak forkPointWithPeak
  rollbackToFork env blockRecord peak forkH
  rollbackSubEpochSummaries forkH
  let blocksToAdd ← blocksToAddFrom env faults blockRecord fromWallet forkH ((← get).blockRecordRows.entries.length + 1)
    blockRecord.headerHash
  blocksToAdd.reverse.forM (applyBlock env)
  setPeak faults blockRecord.headerHash
  modify fun s => { s with peakHeight := some blockRecord.height }
  return (if forkH < 0 then none else some forkH.toNat, blocksToAdd.reverse.map fun fetched => fetched.2.1)

/-- The fork height of a new peak and the new part of the chain, or nothing. -/
def reconsiderPeak (genesis : Bool) (forkPointWithPeak : Option ℕ)
    (fromWallet : List CoinSolution) : WalletBlockchainM (Option ℕ × List BlockRecord) := do
  let peak ← (← get).getPeak
  if genesis then
    match peak with
    | some _ => return (none, [])
    | none =>
      applyGenesis env faults blockRecord
      return (some 0, [blockRecord])
  else
    let peak ← assertSome peak
    if blockRecord.weight > peak.weight then applyChain env faults blockRecord peak forkPointWithPeak fromWallet
    else return (none, [])

structure ReceiveArgs where
  headerBlockRecord : HeaderBlockRecord
  preValidationResult : Option PreValidationResult
  trusted : Bool
  forkPointWithPeak : Option ℕ
  additionalCoinSpends : List CoinSolution

/-- Enters the sub-epoch summaries of the new part of the chain. -/
def recordSubEpochSummary (record : BlockRecord) : WalletBlockchainM Unit := modify fun s =>
  { s with subEpochSummaries := match record.subEpochSummaryIncluded with
      | some ses => s.subEpochSummaries.set record.height ses
      | none => s.subEpochSummaries }

/-- The transaction that stores a block and reconsiders the peak. -/
def transaction : WalletBlockchainM (Option ℕ) := do
  beginTransaction faults
  storeBlockRecord env faults args.headerBlockRecord blockRecord args.additionalCoinSpends
  addBlockRecord blockRecord
  cleanBlockRecord (blockRecord.height - env.blocksCacheSize)
  let (forkH, recordsToAdd) ← reconsiderPeak env faults blockRecord (args.headerBlockRecord.header.height = 0)
    args.forkPointWithPeak args.additionalCoinSpends
  recordsToAdd.forM recordSubEpochSummary
  commitTransaction faults
  return forkH

def restoreHeight (changed : ℕ × Option Bytes32) : WalletBlockchainM Unit :=
  match changed.2 with
  | some replaced => modify fun s => { s with heightToHash := s.heightToHash.set changed.1 replaced }
  | none => do
    requireKey ((← get).heightToHash.contains changed.1)
    modify fun s => { s with heightToHash := s.heightToHash.erase changed.1 }

/-- What the exception handler does before it raises again. Without a connection nothing is put back. -/
def undo : WalletBlockchainM Unit := do
  if !faults.connected then return ()
  rollbackTransaction
  removeBlockRecord blockRecord.headerHash
  rollbackCacheBlock blockRecord.headerHash
  modify fun s => { s with stores := s.stores.rebuild env.header.stdHash }
  (env.heightOrder.list (← get).heightsChanged).forM restoreHeight

def addBlock : WalletBlockchainM (Option ℕ) := do
  modify fun s => { s with heightsChanged := ∅ }
  tryCatch (transaction env faults args blockRecord) fun e => do
    undo env faults blockRecord
    throw e

/-- Required iterations, or an error code, which that of a trusted header is not. -/
def validateHeader (now : ℕ) (s : WalletBlockchain) (args : ReceiveArgs) (difficulty subSlotIters : ℕ) :
    Except PyError (Except Err (Option ℕ)) :=
  let block := args.headerBlockRecord.header
  match args.trusted, args.preValidationResult with
  | false, none => do
    let result ← (validateFinishedHeaderBlock env.header now s.blocks block false difficulty subSlotIters true).run
    return result.map some
  | true, _ => do
    match ← (validateUnfinishedHeaderBlock env.header now s.blocks block.unfinished false difficulty subSlotIters false
      true true).run with
    | .error _ => throw .valueError
    | .ok requiredIters => return .ok (some requiredIters)
  | false, some result =>
    match result.error with
    | some code => .ok (.error code)
    | none => .ok (.ok result.requiredIters)

def nextSubSlotItersAndDifficulty (block : HeaderBlock) : Except PyError (ℕ × ℕ) := do
  let prevB ← if block.height = 0 then .ok none else some <$> s.blocks.blockRecord block.prevHeaderHash
  getNextSubSlotItersAndDifficulty (block.finishedSubSlots.length > 0) prevB s.blocks

def validatedRecord (now : ℕ) (s : WalletBlockchain) (args : ReceiveArgs) : Except PyError (Except Err BlockRecord) := do
  let (subSlotIters, difficulty) ← nextSubSlotItersAndDifficulty s args.headerBlockRecord.header
  match ← validateHeader env now s args difficulty subSlotIters with
  | .error code => return .error code
  | .ok requiredIters =>
    let requiredIters ← assertSome requiredIters
    let blockRecord ← blockToBlockRecord env.header s.blocks requiredIters args.headerBlockRecord.header
    return .ok blockRecord

/-- The results for blocks that are not looked at. -/
def checkConnected (block : HeaderBlock) : Option (ReceiveBlockResult × Option Err) :=
  if s.blockRecords.contains (block.headerHash env.header) then some (.ALREADY_HAVE_BLOCK, none)
  else if !s.blockRecords.contains block.prevHeaderHash && block.height ≠ 0 then
    some (.DISCONNECTED_BLOCK, some .INVALID_PREV_BLOCK_HASH)
  else none

def reportOf : Option ℕ → ReceiveBlockResult × Option Err × Option ℕ
  | some forkH => (.NEW_PEAK, none, some forkH)
  | none => (.ADDED_AS_ORPHAN, none, none)

/-- What is done with a block whose header was validated. -/
def addValidated :
    Except Err BlockRecord → WalletBlockchainM (ReceiveBlockResult × Option Err × Option ℕ)
  | .error code => return (.INVALID_BLOCK, some code, none)
  | .ok blockRecord => do
    let forkH ← addBlock env faults args blockRecord
    return reportOf forkH

def receiveBlock (now : ℕ) (args : ReceiveArgs) : WalletBlockchainM (ReceiveBlockResult × Option Err × Option ℕ) := do
  match checkConnected env (← get) args.headerBlockRecord.header with
  | some (result, code) => return (result, code, none)
  | none =>
    let validated ← validatedRecord env now (← get) args
    addValidated env faults args validated

end

end WalletBlockchain

end SectorChain.Header
