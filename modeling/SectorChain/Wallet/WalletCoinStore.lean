import SectorChain.Wallet.Records
import SectorChain.Lib.Dict
import SectorChain.Lib.Exec
import Mathlib.Data.Finset.Dedup
import Mathlib.Data.Finset.Empty

/-!
# The coin store of the wallet

A table, a cache of its rows, and the unspent coins of each wallet.
-/

namespace SectorChain

open Lib

structure WalletCoinStore where
  /-- The table, by its primary key. A row has the fields of the record. -/
  coinRecord : Dict Bytes32 WalletCoinRecord
  coinRecordCache : Dict Bytes32 WalletCoinRecord
  unspentCoinWalletCache : Dict ℕ (Dict Bytes32 WalletCoinRecord)

abbrev WalletCoinStoreM (α : Type) := Exec PyError WalletCoinStore α

namespace WalletCoinStore

def new : WalletCoinStore := ⟨.empty, .empty, .empty⟩

section

variable (stdHash : Bytes → Bytes32)

/-- Enters a coin under its wallet, which may be the first one. -/
def enterUnspent (cache : Dict ℕ (Dict Bytes32 WalletCoinRecord)) (record : WalletCoinRecord) :
    Dict ℕ (Dict Bytes32 WalletCoinRecord) :=
  cache.set record.walletId
    (((cache.get? record.walletId).getD .empty).set (record.name stdHash) record)

variable (s : WalletCoinStore) (record : WalletCoinRecord)

/-- One round of `rebuild_wallet_cache`. -/
def cacheRow : WalletCoinStore :=
  { s with
    coinRecordCache := s.coinRecordCache.set (record.name stdHash) record
    unspentCoinWalletCache :=
      if record.spent = false then enterUnspent stdHash s.unspentCoinWalletCache record
      else s.unspentCoinWalletCache }

/-- The caches as the table has it. -/
def rebuildWalletCache : WalletCoinStore :=
  (s.coinRecord.entries.map Prod.snd).foldl (cacheRow stdHash)
    { s with coinRecordCache := .empty, unspentCoinWalletCache := .empty }

def unspentAfter (cache : Dict ℕ (Dict Bytes32 WalletCoinRecord)) (record : WalletCoinRecord) :
    Dict ℕ (Dict Bytes32 WalletCoinRecord) :=
  let name := record.name stdHash
  match cache.get? record.walletId with
  | some coins =>
    let coins := if record.spent && coins.contains name then coins.erase name else coins
    cache.set record.walletId (if record.spent then coins else coins.set name record)
  | none => if record.spent then cache else cache.set record.walletId (Dict.empty.set name record)

def addCoinRecord : WalletCoinStoreM Unit := modify fun s =>
  { coinRecord := s.coinRecord.set (record.name stdHash) record
    coinRecordCache := s.coinRecordCache.set (record.name stdHash) record
    unspentCoinWalletCache := unspentAfter stdHash s.unspentCoinWalletCache record }

def getCoinRecord (coinName : Bytes32) : Option WalletCoinRecord :=
  (s.coinRecordCache.get? coinName).or (s.coinRecord.get? coinName)

def setSpent (coinName : Bytes32) (height : ℕ) : WalletCoinStoreM WalletCoinRecord := do
  let current ← assertSome (getCoinRecord (← get) coinName)
  let spent := current.spendAt height
  addCoinRecord stdHash spent
  return spent

/-- A rollback of a spent coin: the wallet has to have an entry for unspent coins. -/
def unspendRecord : WalletCoinStoreM Unit := do
  let name := record.name stdHash
  modify fun s => { s with coinRecordCache := s.coinRecordCache.set name record.unspend }
  match (← get).unspentCoinWalletCache.get? record.walletId with
  | none => throw .keyError
  | some coins => modify fun s =>
    { s with unspentCoinWalletCache := s.unspentCoinWalletCache.set record.walletId (coins.set name record.unspend) }

def rollbackRecord (height : ℤ) (deleteQueue : List WalletCoinRecord) (record : WalletCoinRecord) :
    WalletCoinStoreM (List WalletCoinRecord) := do
  if record.spentBlockHeight > height then unspendRecord stdHash record
  return if record.confirmedBlockHeight > height then deleteQueue ++ [record] else deleteQueue

def deleteRecord : WalletCoinStoreM Unit := do
  let name := record.name stdHash
  if !(← get).coinRecordCache.contains name then throw .keyError
  modify fun s =>
    { s with
      coinRecordCache := s.coinRecordCache.erase name
      unspentCoinWalletCache := match s.unspentCoinWalletCache.get? record.walletId with
        | some coins => s.unspentCoinWalletCache.set record.walletId
            (if coins.contains name then coins.erase name else coins)
        | none => s.unspentCoinWalletCache }

/-- `DELETE FROM coin_record WHERE confirmed_height>?` and
`UPDATE coin_record SET spent_height = 0, spent = 0 WHERE spent_height>?`. -/
def rollbackRows (height : ℤ) (rows : Dict Bytes32 WalletCoinRecord) : Dict Bytes32 WalletCoinRecord :=
  (rows.filter fun _ r => r.confirmedBlockHeight ≤ height).mapVals fun _ r =>
    if r.spentBlockHeight > height then r.unspend else r

/-- The height may be -1. -/
def rollbackToBlock (height : ℤ) : WalletCoinStoreM Unit := do
  let records := (← get).coinRecordCache.entries.map Prod.snd
  let deleteQueue ← records.foldlM (rollbackRecord stdHash height) []
  deleteQueue.forM (deleteRecord stdHash)
  modify fun s => { s with coinRecord := rollbackRows height s.coinRecord }

/-- The coins that were unspent at a height, or are unspent now. -/
def getUnspentCoinsAtHeight (height : Option ℕ) : List WalletCoinRecord :=
  (s.coinRecordCache.entries.map Prod.snd).filter fun r =>
    match height with
    | none => r.spent = false
    | some height => r.spent = false ∨ r.spentBlockHeight > height ∧ height ≥ r.confirmedBlockHeight

def getUnspentCoinsForWallet (walletId : ℕ) : Finset WalletCoinRecord :=
  match s.unspentCoinWalletCache.get? walletId with
  | some walletCoins => (walletCoins.entries.map Prod.snd).toFinset
  | none => ∅

end

end WalletCoinStore

end SectorChain
