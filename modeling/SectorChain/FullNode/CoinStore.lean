import SectorChain.FullNode.Node

/-!
# The coin store

`coin_store.py`: the table of all coins of the chain, with a cache in front of it.
-/

namespace SectorChain

open Lib

def coinCacheGet (coinName : Bytes32) : NodeM (Option CoinRecord) := .mk fun s =>
  let (cached, cache) := s.coinRecordCache.get coinName
  (.ok cached, { s with coinRecordCache := cache })

def coinCachePut (coinName : Bytes32) (record : CoinRecord) : NodeM Unit :=
  modify fun s => { s with coinRecordCache := s.coinRecordCache.put coinName record }

/-- `cache.pop`, which raises when the key is absent. -/
def coinCacheRemove (coinName : Bytes32) : NodeM Unit := .mk fun s =>
  match s.coinRecordCache.peek coinName with
  | some _ => (.ok (), { s with coinRecordCache := s.coinRecordCache.remove coinName })
  | none => (.error .keyError, s)

/-- `if cache.get(name) is not None: cache.remove(name)`. -/
def coinCacheEvict (coinName : Bytes32) : NodeM Unit := do
  if (← coinCacheGet coinName).isSome then coinCacheRemove coinName

/-- `INSERT INTO coin_record`, with `OR REPLACE` if `allowReplace`. -/
def insertCoinRecord (name : Bytes32) (record : CoinRecord) (allowReplace : Bool) (db : Database) :
    Except PyError Database :=
  if !allowReplace && db.coinRecord.contains name then .error .integrityError
  else .ok { db with coinRecord := db.coinRecord.set name record }

/-- `DELETE FROM coin_record WHERE confirmed_index > block_index`. -/
def deleteConfirmedAbove (blockIndex : ℤ) (db : Database) : Database :=
  { db with coinRecord := db.coinRecord.filter fun _ r => r.confirmedBlockIndex ≤ blockIndex }

def CoinRecord.unspend (r : CoinRecord) : CoinRecord := { r with spentBlockIndex := 0, spent := false }

/-- `UPDATE coin_record SET spent_index = 0, spent = 0 WHERE spent_index > block_index`. -/
def unspendAbove (blockIndex : ℤ) (db : Database) : Database :=
  { db with coinRecord := db.coinRecord.mapVals fun _ r =>
      if r.spentBlockIndex > blockIndex then r.unspend else r }

section

variable (env : Env)

def getCoinRecord (coinName : Bytes32) : NodeM (Option CoinRecord) := do
  match ← coinCacheGet coinName with
  | some cached => return some cached
  | none =>
    match ← Node.query fun db => db.coinRecord.get? coinName with
    | some record =>
      coinCachePut (record.coin.name env.stdHash) record
      return some record
    | none => return none

def addCoinRecord (record : CoinRecord) (allowReplace : Bool) : NodeM Unit := do
  let name := record.coin.name env.stdHash
  coinCacheEvict name
  Node.update (insertCoinRecord name record allowReplace)

def markSpent (current : CoinRecord) (index : ℕ) : NodeM ℕ := do
  pyAssert !current.spent
  addCoinRecord env { current with spentBlockIndex := index, spent := true } true
  return current.coin.amount

/-- The amount of the coin, once it is marked as spent. -/
def setSpent (coinName : Bytes32) (index : ℕ) : NodeM ℕ := do
  match ← getCoinRecord env coinName with
  | none => throw .valueError
  | some current => markSpent env current index

def newCoinRecord (block : FullBlock) (timestamp : ℕ) (coinbase : Bool) (coin : Coin) : CoinRecord :=
  ⟨coin, block.height, 0, false, coinbase, timestamp⟩

/-- The genesis block has no reward coins, every other transaction block at least two. -/
def checkRewardCount (block : FullBlock) (includedRewardCoins : List Coin) : Except PyError Unit :=
  if block.height = 0 then pyAssert (includedRewardCoins.length = 0)
  else pyAssert (includedRewardCoins.length ≥ 2)

def newBlock (block : FullBlock) (txAdditions : List Coin) (txRemovals : List Bytes32) :
    NodeM Unit := do
  match block.foliageTransactionBlock with
  | none => return
  | some foliageTransactionBlock =>
    let timestamp := foliageTransactionBlock.timestamp
    txAdditions.forM fun coin => addCoinRecord env (newCoinRecord block timestamp false coin) false
    let includedRewardCoins ← block.getIncludedRewardCoins
    checkRewardCount block includedRewardCoins
    includedRewardCoins.forM fun coin =>
      addCoinRecord env (newCoinRecord block timestamp true coin) false
    let totalAmountSpent ← txRemovals.foldlM (fun total coinName => do
      let amount ← setSpent env coinName block.height
      return total + amount) 0
    pyAssert ((txAdditions.map Coin.amount).sum ≤ totalAmountSpent)

/-- Rolls back to a height, which may be negative: then nothing is left. -/
def rollbackToBlock (blockIndex : ℤ) : NodeM Unit := do
  let items := (← get).coinRecordCache.cache.entries
  -- the cache is patched before the database
  items.forM fun e =>
    if e.2.spentBlockIndex > blockIndex then
      coinCachePut (e.2.coin.name env.stdHash) e.2.unspend
    else pure ()
  (items.filter fun e => e.2.confirmedBlockIndex > blockIndex).forM fun e => coinCacheRemove e.1
  Node.update fun db => .ok (deleteConfirmedAbove blockIndex db)
  Node.update fun db => .ok (unspendAbove blockIndex db)

end

end SectorChain
