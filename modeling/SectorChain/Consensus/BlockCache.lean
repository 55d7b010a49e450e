import SectorChain.Consensus.PreValidation

/-!
# The cache of block records

How `blockchain.py` loads block records into memory and drops them again.
-/

namespace SectorChain

open Lib

def Database.recordsInRange (db : Database) (start stop : ℕ) : Dict Bytes32 BlockRecord :=
  db.blockRecords.entries.foldl (fun ret e =>
    if start ≤ e.2.height ∧ e.2.height ≤ stop then ret.set e.1 e.2.block else ret) .empty

def getBlockRecordsInRange (start stop : ℕ) : NodeM (Dict Bytes32 BlockRecord) :=
  Node.query fun db => db.recordsInRange start stop

def warmup (env : Env) (forkPoint : ℕ) : NodeM Unit := do
  if (← get).peakHeight.isNone then return
  let blockRecords ← getBlockRecordsInRange (forkPoint - env.constants.blocksCacheSize) forkPoint
  blockRecords.entries.forM fun e => addBlockRecord e.2

def delBlockRecord (headerHash : Bytes32) : NodeM Unit := do
  if (← get).blockRecords.contains headerHash then
    modify fun s => { s with blockRecords := s.blockRecords.erase headerHash }
  else throw .keyError

/-- One round of the loop: removes the records of a height, if it is listed. -/
def cleanRecordsAt (height : ℕ) : NodeM Bool := do
  match (← get).heightsInCache.get? height with
  | none => return false
  | some blocksToRemove =>
    blocksToRemove.forM delBlockRecord
    modify fun s => { s with heightsInCache := s.heightsInCache.erase height }
    return true

/-- The loop, from a height down to the first one that is not listed. -/
def cleanRecordsFrom : ℕ → NodeM Unit
  | 0 => do
    let _ ← cleanRecordsAt 0
  | height + 1 => do
    if ← cleanRecordsAt (height + 1) then cleanRecordsFrom height

/-- Heights are looked up as `uint32`. -/
def cleanBlockRecord (height : ℤ) : NodeM Unit :=
  if height < 0 then return
  else if height < 2 ^ 32 then cleanRecordsFrom height.toNat
  else throw .valueError

def cleanBlockRecords (env : Env) : NodeM Unit := do
  let s ← get
  if s.blockRecords.entries.length < env.constants.blocksCacheSize then return
  let peak ← s.getPeak
  let peak ← assertSome peak
  if (peak.height : ℤ) - env.constants.blocksCacheSize < 0 then return
  cleanBlockRecord (peak.height - env.constants.blocksCacheSize)

end SectorChain
