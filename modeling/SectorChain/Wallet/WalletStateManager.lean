import SectorChain.Wallet.WalletCoinStore
import SectorChain.Wallet.WalletPuzzleStore
import SectorChain.FullNode.BundleTools

/-!
# The state of the wallets

Derivation of puzzle hashes, and the coins a wallet can spend.
-/

namespace SectorChain

open Lib

/-- What the wallets compute from the master key and the configuration. -/
structure WalletEnv where
  /-- `std_hash`. -/
  stdHash : Bytes → Bytes32
  /-- `master_sk_to_wallet_sk(self.private_key, index).get_g1()`. -/
  getPublicKey : ℕ → Bytes
  initialNumPublicKeys : ℕ
  initialNumPublicKeysNewWallet : ℕ

/-- `RLInfo`. Once it is initialized it has the keys of both sides, and all that the puzzle needs. -/
inductive RLInfo where
  | uninitialized
  | initialized (user : Bool) (userPubkey adminPubkey : Bytes) (puzzle : SExp)

/-- How a wallet object gets its puzzle hashes. -/
inductive TargetWallet where
  | pooling
  | rateLimited (rlInfo : RLInfo)
  /-- All other types. `puzzle_for_pk` may have no puzzle yet. -/
  | hd (type : WalletType) (puzzleForPk : Bytes → Option SExp)

inductive TradeStatus where
  | PENDING_ACCEPT
  | PENDING_CONFIRM
  | PENDING_CANCEL
  | CANCELED
  | CONFIRMED
  | FAILED
deriving DecidableEq

structure TradeRecord where
  spendBundle : SpendBundle
  txSpendBundle : Option SpendBundle
  status : TradeStatus

structure WalletStateManager where
  wallets : Dict ℕ TargetWallet
  newWallet : Bool
  puzzleStore : WalletPuzzleStore
  coinStore : WalletCoinStore
  /-- `unconfirmed_for_wallet` of the transaction store. -/
  unconfirmedForWallet : Dict ℕ (Dict Bytes32 TransactionRecord)
  tradeRecords : List TradeRecord
  peak : Option ℕ
  /-- `cost_of_single_tx` of the standard wallet. -/
  costOfSingleTx : Option ℕ

abbrev WalletM (α : Type) := Exec PyError WalletStateManager α

/-- `uint32(value)`. -/
def toUint32 (value : ℕ) : Except PyError ℕ := if value < 2 ^ 32 then .ok value else .error .valueError

namespace WalletStateManager

variable (env : WalletEnv)

/-- `none` stands for -1. -/
def getDerivationIndex (pubkey : Bytes) (maxDepth : ℕ) : Option ℕ :=
  (List.range maxDepth).find? fun i => env.getPublicKey i = pubkey

variable (s : WalletStateManager) (walletId : ℕ)

/-- The one path of a rate limited wallet. -/
def rlDerivationPaths : RLInfo → List DerivationRecord
  | .uninitialized => []
  | .initialized user userPubkey adminPubkey puzzle =>
    let rlPubkey := if user then userPubkey else adminPubkey
    match getDerivationIndex env rlPubkey 1000 with
    | none => []
    | some rlIndex => [⟨rlIndex, puzzle.treeHash env.stdHash, rlPubkey, .RATE_LIMITED, walletId⟩]

/-- The paths of a wallet for a range of indices, as far as it has puzzles. -/
def hdDerivationPaths (walletId : ℕ) (type : WalletType) (puzzleForPk : Bytes → Option SExp) :
    List ℕ → Except PyError (List DerivationRecord)
  | [] => .ok []
  | index :: indices => do
    let index ← toUint32 index
    let pubkey := env.getPublicKey index
    match puzzleForPk pubkey with
    | none => return []
    | some puzzle =>
      let derivationPaths ← hdDerivationPaths walletId type puzzleForPk indices
      return ⟨index, puzzle.treeHash env.stdHash, pubkey, type, walletId⟩ :: derivationPaths

/-- The loop over the indices for one wallet. -/
def derivationPaths (targetWallet : TargetWallet) (indices : List ℕ) : Except PyError (List DerivationRecord) :=
  match targetWallet with
  | .pooling => .ok []
  | .rateLimited rlInfo => .ok (if indices = [] then [] else rlDerivationPaths env walletId rlInfo)
  | .hd type puzzleForPk => hdDerivationPaths env walletId type puzzleForPk indices

/-- The first unused index, or the last index if all are used. -/
def firstUnused (s : WalletPuzzleStore) : ℕ :=
  (s.getUnusedDerivationPath.or s.getLastDerivationPath).getD 0

def toGenerate : ℕ :=
  if s.newWallet then env.initialNumPublicKeysNewWallet else env.initialNumPublicKeys

/-- The index that a wallet goes on with. -/
def startIndex (s : WalletPuzzleStore) (fromZero : Bool) (walletId : ℕ) : ℕ :=
  if fromZero then 0
  else match s.getLastDerivationPathForWallet walletId with
    | some last => last + 1
    | none => 0

/-- One round of the loop over the wallets. -/
def createForWallet (fromZero : Bool) (stop : ℕ) (target : ℕ × TargetWallet) : WalletM Unit := do
  let start := startIndex (← get).puzzleStore fromZero target.1
  let paths ← derivationPaths env target.1 target.2 (List.range' start (stop - start))
  modify fun s => { s with puzzleStore := s.puzzleStore.addDerivationPaths paths }

/-- The indices below the first unused one are marked again, as their rows may be new. -/
def createMorePuzzleHashes (fromZero : Bool) : WalletM Unit := do
  let s ← get
  let unused := firstUnused s.puzzleStore
  s.wallets.entries.forM (createForWallet env fromZero (unused + s.toGenerate env))
  if unused > 0 then
    modify fun s => { s with puzzleStore := s.puzzleStore.setUsedUpTo (unused - 1) }

/-- Hands out the first unused key, which has to exist by now. -/
def takeUnusedDerivationRecord : WalletM DerivationRecord := do
  let unused ← assertSome (← get).puzzleStore.getUnusedDerivationPath
  let record ← assertSome ((← get).puzzleStore.getDerivationRecord unused walletId)
  modify fun s => { s with puzzleStore := s.puzzleStore.setUsedUpTo record.index }
  createMorePuzzleHashes env false
  return record

def getUnusedDerivationRecord : WalletM DerivationRecord := do
  if (← get).puzzleStore.getUnusedDerivationPath = none then createMorePuzzleHashes env false
  takeUnusedDerivationRecord env walletId

def addNewWallet (wallet : TargetWallet) (walletId : ℕ) (createPuzzleHashes : Bool) : WalletM Unit := do
  modify fun s => { s with wallets := s.wallets.set walletId wallet }
  if createPuzzleHashes then createMorePuzzleHashes env false

/-- What `coins_of_interest_added` does to the puzzle store for a coin. -/
def markDerivationIndex (puzzleHash : Bytes32) : WalletM Unit := modify fun s =>
  match s.puzzleStore.indexForPuzzleHash puzzleHash with
  | some derivationIndex => { s with puzzleStore := s.puzzleStore.setUsedUpTo derivationIndex }
  | none => s

def doesCoinBelongToWallet (coin : Coin) (walletId : ℕ) : Bool :=
  match s.puzzleStore.walletInfoForPuzzleHash coin.puzzleHash with
  | none => false
  | some (coinWalletId, _) => walletId = coinWalletId

def getUnconfirmedForWallet : List TransactionRecord :=
  match s.unconfirmedForWallet.get? walletId with
  | some records => records.entries.map Prod.snd
  | none => []

/-- The names of the coins that the pending transactions of a wallet spend. -/
def unconfirmedRemovalsForWallet : List Bytes32 :=
  (s.getUnconfirmedForWallet walletId).flatMap fun record =>
    record.removals.map fun coin => coin.name env.stdHash

def getOffersWithStatus (status : TradeStatus) : List TradeRecord :=
  s.tradeRecords.filter fun record => record.status = status

/-- The names of the coins of a bundle that a wallet has a record of. -/
def getLockedCoinsInSpendBundle (bundle : SpendBundle) : List Bytes32 :=
  bundle.removals.filterMap fun coin =>
    (s.coinStore.getCoinRecord (coin.name env.stdHash)).map fun record => record.name env.stdHash

/-- The names of the coins that pending trades lock, of all wallets. -/
def getLockedCoins : List Bytes32 :=
  (s.getOffersWithStatus .PENDING_ACCEPT ++ s.getOffersWithStatus .PENDING_CONFIRM ++
    s.getOffersWithStatus .PENDING_CANCEL).flatMap fun tradeOffer =>
      match tradeOffer.txSpendBundle with
      | none => getLockedCoinsInSpendBundle env s tradeOffer.spendBundle
      | some txSpendBundle => getLockedCoinsInSpendBundle env s txSpendBundle

/-- Coins of a trade, and coins of the wallet that are part of a pending transaction, are left out. -/
def getSpendableCoinsForWallet : Finset WalletCoinRecord :=
  if s.peak = none then ∅
  else
    let removals := (s.getUnconfirmedForWallet walletId).flatMap fun tx =>
      (tx.removals.filter fun coin => s.doesCoinBelongToWallet coin walletId).map fun coin =>
        coin.name env.stdHash
    let offerLockedCoins := getLockedCoins env s
    (s.coinStore.getUnspentCoinsForWallet walletId).filter fun record =>
      record.name env.stdHash ∉ offerLockedCoins ∧ record.name env.stdHash ∉ removals

end WalletStateManager

end SectorChain
