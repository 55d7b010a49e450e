import SectorChain.FullNode.Node

/-!
# The block store

All accepted blocks. The record of the peak is marked.
-/

namespace SectorChain

open Lib

variable (headerHash : Bytes32) (block : FullBlock) (db : Database)

def blockCacheGet : NodeM (Option FullBlock) := .mk fun s =>
  let (cached, cache) := s.blockCache.get headerHash
  (.ok cached, { s with blockCache := cache })

def blockCachePut : NodeM Unit :=
  modify fun s => { s with blockCache := s.blockCache.put headerHash block }

def insertFullBlock : Database :=
  { db with fullBlocks := db.fullBlocks.set headerHash block }

def insertBlockRecord (blockRecord : BlockRecord) (db : Database) : Database :=
  let row : BlockRow := ⟨block.prevHeaderHash, block.height, blockRecord, blockRecord.subEpochSummaryIncluded, false⟩
  { db with blockRecords := db.blockRecords.set headerHash row }

def addFullBlock (blockRecord : BlockRecord) : NodeM Unit := do
  blockCachePut headerHash block
  Node.update fun db => .ok (insertFullBlock headerHash block db)
  Node.update fun db => .ok (insertBlockRecord headerHash block blockRecord db)

/-- A block that is not in the cache is ignored. -/
def rollbackCacheBlock : NodeM Unit :=
  modify fun s => { s with blockCache := s.blockCache.remove headerHash }

def getFullBlock : NodeM (Option FullBlock) := do
  match ← blockCacheGet headerHash with
  | some cached => return some cached
  | none =>
    match ← Node.query fun db => db.fullBlocks.get? headerHash with
    | some block =>
      blockCachePut headerHash block
      return some block
    | none => return none

def getBlockRecord : NodeM (Option BlockRecord) :=
  Node.query fun db => (db.blockRecords.get? headerHash).map BlockRow.block

def clearPeak : Database :=
  { db with blockRecords := db.blockRecords.mapVals fun _ row =>
      if row.isPeak then { row with isPeak := false } else row }

def markPeak : Database :=
  { db with blockRecords := db.blockRecords.mapVals fun h row =>
      if h = headerHash then { row with isPeak := true } else row }

def setPeak : NodeM Unit := do
  Node.update fun db => .ok (clearPeak db)
  Node.update fun db => .ok (markPeak headerHash db)

def Database.peakRow? : Option (Bytes32 × BlockRow) :=
  db.blockRecords.entries.find? fun e => e.2.isPeak

/-- The loop of `get_peak_height_dicts`. Heights fall, so that of the peak bounds the rounds. -/
def peakHeightDictsFrom (db : Database) : ℕ → Bytes32 → Dict ℕ Bytes32 × Dict ℕ SubEpochSummary →
    Except PyError (Dict ℕ Bytes32 × Dict ℕ SubEpochSummary)
  | 0, _, _ => .error .doesNotReturn
  | fuel + 1, currHeaderHash, (heightToHash, subEpochSummaries) =>
    match db.blockRecords.get? currHeaderHash with
    | none => .error .keyError
    | some row =>
      let heightToHash := heightToHash.set row.height currHeaderHash
      let subEpochSummaries := match row.subEpochSummary with
        | some ses => subEpochSummaries.set row.height ses
        | none => subEpochSummaries
      if row.height = 0 then .ok (heightToHash, subEpochSummaries)
      else peakHeightDictsFrom db fuel row.prevHash (heightToHash, subEpochSummaries)

def peakHeightDicts : Except PyError (Dict ℕ Bytes32 × Dict ℕ SubEpochSummary) :=
  match db.peakRow? with
  | none => .ok (.empty, .empty)
  | some (peak, row) => peakHeightDictsFrom db (row.height + 1) peak (.empty, .empty)

def getPeakHeightDicts : NodeM (Dict ℕ Bytes32 × Dict ℕ SubEpochSummary) := do
  let dicts ← Node.query peakHeightDicts
  dicts

/-- The records from `blocksN` below the peak on, and the hash of the peak. -/
def getBlockRecordsCloseToPeak (blocksN : ℕ) : NodeM (Dict Bytes32 BlockRecord × Option Bytes32) :=
  Node.query fun db =>
    match db.peakRow? with
    | none => (.empty, none)
    | some (peak, peakRow) =>
      (db.blockRecords.entries.foldl (fun ret e =>
        if e.2.height + blocksN ≥ peakRow.height then ret.set e.1 e.2.block else ret) .empty,
        some peak)

end SectorChain
