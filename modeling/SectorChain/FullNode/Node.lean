import SectorChain.Consensus.Env
import SectorChain.Lib.Exec
import SectorChain.Lib.LruCache

/-!
# The state of a full node

Every statement may fail, as `faults` schedules.
-/

namespace SectorChain

/-- A row of the table `block_records` under its key `header_hash`. -/
structure BlockRow where
  prevHash : Bytes32
  height : ℕ
  block : BlockRecord
  subEpochSummary : Option SubEpochSummary
  isPeak : Bool
deriving DecidableEq

/-- The tables, by primary key. -/
structure Database where
  coinRecord : Lib.Dict Bytes32 CoinRecord
  fullBlocks : Lib.Dict Bytes32 FullBlock
  blockRecords : Lib.Dict Bytes32 BlockRow
deriving DecidableEq

/-- An exception raised while a statement is awaited, before or after it was carried out. -/
structure Fault where
  error : PyError
  performed : Bool
deriving DecidableEq

structure Node where
  db : Database
  /-- The tables at the start of the open transaction. -/
  saved : Option Database
  /-- What happens to the statements to come; those beyond the list succeed. -/
  faults : List (Option Fault)
  coinRecordCache : Lib.LruCache Bytes32 CoinRecord
  blockCache : Lib.LruCache Bytes32 FullBlock
  peakHeight : Option ℕ
  blockRecords : Lib.Dict Bytes32 BlockRecord
  heightsInCache : Lib.Dict ℕ (List Bytes32)
  heightToHash : Lib.Dict ℕ Bytes32
  subEpochSummaries : Lib.Dict ℕ SubEpochSummary

abbrev NodeM (α : Type) := Lib.Exec PyError Node α

namespace Node

def new (coinCacheSize blockCacheSize : ℕ) : Node where
  db := ⟨.empty, .empty, .empty⟩
  saved := none
  faults := []
  coinRecordCache := .new coinCacheSize
  blockCache := .new blockCacheSize
  peakHeight := none
  blockRecords := .empty
  heightsInCache := .empty
  heightToHash := .empty
  subEpochSummaries := .empty

/-- The node as the validation code sees it. -/
def blocks (s : Node) : BlockchainInterface := ⟨s.blockRecords, s.heightToHash, s.subEpochSummaries⟩

/-- An awaited statement, which fails as `faults` says. -/
def statement {α : Type} (op : Node → Except PyError α × Node) : NodeM α := .mk fun s =>
  match s.faults with
  | [] => op s
  | none :: faults => op { s with faults := faults }
  | some f :: faults =>
    (.error f.error,
      if f.performed then (op { s with faults := faults }).2 else { s with faults := faults })

def query {α : Type} (f : Database → α) : NodeM α := statement fun s => (.ok (f s.db), s)

/-- An `INSERT`, `UPDATE` or `DELETE`. -/
def update (f : Database → Except PyError Database) : NodeM Unit := statement fun s =>
  match f s.db with
  | .ok db => (.ok (), { s with db := db })
  | .error e => (.error e, s)

def beginTransaction : NodeM Unit := statement fun s =>
  match s.saved with
  | none => (.ok (), { s with saved := some s.db })
  | some _ => (.error .operationalError, s)

/-- A commit that raises has not been carried out. -/
def commitTransaction : NodeM Unit := .mk fun s =>
  match s.faults with
  | some f :: faults => (.error f.error, { s with faults := faults })
  | faults => (.ok (), { s with saved := none, faults := faults.tail })

def rollbackTransaction : NodeM Unit := modify fun s =>
  match s.saved with
  | some db => { s with db := db, saved := none }
  | none => s

end Node

end SectorChain
