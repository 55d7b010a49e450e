import SectorChain.FullNode.BundleTools
import SectorChain.Wallet.WalletCoinStore

/-!
# The stores that follow the chain of the wallet

`wallet_transaction_store.py` and `wallet_pool_store.py`.
-/

namespace SectorChain

open Lib

structure WalletTransactionStore where
  /-- The table, by its primary key. -/
  transactionRecord : Dict Bytes32 TransactionRecord
  txRecordCache : Dict Bytes32 TransactionRecord
  unconfirmedForWallet : Dict ℕ (Dict Bytes32 TransactionRecord)

namespace WalletTransactionStore

def new : WalletTransactionStore := ⟨.empty, .empty, .empty⟩

/-- One round of `rebuild_tx_cache`. -/
def cacheRow (s : WalletTransactionStore) (record : TransactionRecord) : WalletTransactionStore :=
  let unconfirmed := (s.unconfirmedForWallet.get? record.walletId).getD .empty
  { s with
    txRecordCache := s.txRecordCache.set record.name record
    unconfirmedForWallet := s.unconfirmedForWallet.set record.walletId
      (if record.confirmed then unconfirmed else unconfirmed.set record.name record) }

/-- The caches as the table has it. -/
def rebuildTxCache (s : WalletTransactionStore) : WalletTransactionStore :=
  (s.transactionRecord.entries.map Prod.snd).foldl cacheRow
    { s with txRecordCache := .empty, unconfirmedForWallet := .empty }

/-- An order of the rows by falling height. What it does with equal heights is left to the database. -/
structure RowOrder where
  before : TransactionRecord → TransactionRecord → Prop
  decidable : DecidableRel before
  total : Std.Total before
  trans : IsTrans TransactionRecord before
  antisymm : ∀ a b, before a b → before b a → a.name = b.name
  falling : ∀ a b, before a b → b.confirmedAtHeight ≤ a.confirmedAtHeight

attribute [instance] RowOrder.decidable RowOrder.total RowOrder.trans

/-- What `LIMIT` leaves. A negative limit leaves all rows. -/
def limitRows {α : Type} (limit : ℤ) (rows : List α) : List α :=
  if limit < 0 then rows else rows.take limit.toNat

@[simp] lemma limitRows_natCast {α : Type} (n : ℕ) (rows : List α) : limitRows n rows = rows.take n :=
  if_neg (Int.natCast_nonneg n).not_gt

@[simp] lemma limitRows_zero {α : Type} (rows : List α) : limitRows 0 rows = [] := limitRows_natCast 0 rows

def getTransactionsBetween (order : RowOrder) (s : WalletTransactionStore) (walletId : ℕ) (start stop : ℤ) :
    List TransactionRecord :=
  let limit := stop - start
  let rows := s.transactionRecord.entries.map Prod.snd
  let skipped := limitRows start ((rows.map TransactionRecord.confirmedAtHeight).insertionSort (· ≤ ·))
  let selected := rows.filter fun r => r.walletId = walletId ∧ r.confirmedAtHeight ∉ skipped
  (limitRows limit (selected.insertionSort order.before)).reverse

def getTransactionCountForWallet (s : WalletTransactionStore) (walletId : ℕ) : ℕ :=
  (s.transactionRecord.entries.map Prod.snd).countP fun r => r.walletId = walletId

end WalletTransactionStore

/-- A row of `pool_state_transitions`. -/
structure StateTransition where
  transitionIndex : ℕ
  walletId : ℕ
  height : ℕ
  coinSpend : CoinSolution
deriving DecidableEq

structure WalletPoolStore where
  /-- The table, by its primary key of index and wallet. -/
  poolStateTransitions : Dict (ℕ × ℕ) StateTransition
  stateTransitionsCache : Dict ℕ (List (ℕ × CoinSolution))

abbrev WalletPoolStoreM (α : Type) := Exec PyError WalletPoolStore α

namespace WalletPoolStore

def new : WalletPoolStore := ⟨.empty, .empty⟩

/-- One round of `rebuild_cache`. -/
def cacheRow (s : WalletPoolStore) (row : StateTransition) : WalletPoolStore :=
  let transitions := (s.stateTransitionsCache.get? row.walletId).getD []
  { s with stateTransitionsCache :=
      s.stateTransitionsCache.set row.walletId (transitions ++ [(row.height, row.coinSpend)]) }

/-- The cache as the table has it, by `ORDER BY transition_index`. -/
def rebuildCache (s : WalletPoolStore) : WalletPoolStore :=
  ((s.poolStateTransitions.entries.map Prod.snd).mergeSort fun a b => a.transitionIndex ≤ b.transitionIndex).foldl
    cacheRow { s with stateTransitionsCache := .empty }

def getSpendsForWallet (s : WalletPoolStore) (walletId : ℕ) : List (ℕ × CoinSolution) :=
  (s.stateTransitionsCache.get? walletId).getD []

/-- The end of `add_spend`: the cache is written before the table. `fault` is what the statement raises. -/
def appendSpend (walletId : ℕ) (allStateTransitions : List (ℕ × CoinSolution)) (item : ℕ × CoinSolution)
    (fault : Option PyError) : WalletPoolStoreM Unit := do
  modify fun s => { s with
    stateTransitionsCache := s.stateTransitionsCache.set walletId (allStateTransitions ++ [item]) }
  if let some e := fault then throw e
  let index := allStateTransitions.length
  modify fun s => { s with
    poolStateTransitions := s.poolStateTransitions.set (index, walletId) ⟨index, walletId, item.1, item.2⟩ }

def addSpend (stdHash : Bytes → Bytes32) (walletId : ℕ) (spend : CoinSolution) (height : ℕ)
    (fault : Option PyError) : WalletPoolStoreM Unit := do
  if !(← get).stateTransitionsCache.contains walletId then
    modify fun s => { s with stateTransitionsCache := s.stateTransitionsCache.set walletId [] }
  let allStateTransitions := getSpendsForWallet (← get) walletId
  if (height, spend) ∈ allStateTransitions then return
  if let some last := allStateTransitions.getLast? then
    if height < last.1 then throw .valueError
    if spend.coin.parentCoinInfo ≠ last.2.coin.name stdHash then throw .valueError
  appendSpend walletId allStateTransitions (height, spend) fault

/-- The entries of a wallet up to the first one above the height. -/
def cutSpends (height : ℤ) (items : List (ℕ × CoinSolution)) : List (ℕ × CoinSolution) :=
  match items.findIdx? fun item => item.1 > height with
  | some removeIndexStart => items.take removeIndexStart
  | none => items

def rollback (height : ℤ) (walletIdArg : ℕ) (fault : Option PyError) : WalletPoolStoreM Unit := do
  modify fun s => { s with stateTransitionsCache := s.stateTransitionsCache.mapVals fun walletId items =>
    if walletId = walletIdArg then cutSpends height items else items }
  if let some e := fault then throw e
  modify fun s => { s with poolStateTransitions := s.poolStateTransitions.filter fun _ row =>
    ¬(row.height > height ∧ row.walletId = walletIdArg) }

end WalletPoolStore

/-- The stores that callbacks of the blockchain write to. -/
structure WalletStores where
  coinStore : WalletCoinStore
  txStore : WalletTransactionStore
  poolStore : WalletPoolStore

abbrev WalletStoresM (α : Type) := Exec PyError WalletStores α

def WalletStores.new : WalletStores := ⟨.new, .new, .new⟩

/-- All caches as the tables have it. -/
def WalletStores.rebuild (stdHash : Bytes → Bytes32) (stores : WalletStores) : WalletStores where
  coinStore := WalletCoinStore.rebuildWalletCache stdHash stores.coinStore
  txStore := stores.txStore.rebuildTxCache
  poolStore := stores.poolStore.rebuildCache

end SectorChain
