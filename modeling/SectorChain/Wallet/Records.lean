import SectorChain.Types.Block

/-!
# What the wallet keeps records of
-/

namespace SectorChain

inductive WalletType where
  | STANDARD_WALLET
  | RATE_LIMITED
  | ATOMIC_SWAP
  | AUTHORIZED_PAYEE
  | MULTI_SIG
  | CUSTODY
  | COLOURED_COIN
  | RECOVERABLE
  | DISTRIBUTED_ID
  | POOLING_WALLET
deriving DecidableEq

/-- A coin of a wallet. Heights are those of the chain that the wallet follows. -/
structure WalletCoinRecord where
  coin : Coin
  confirmedBlockHeight : ℕ
  spentBlockHeight : ℕ
  spent : Bool
  coinbase : Bool
  walletType : WalletType
  walletId : ℕ
deriving DecidableEq

def WalletCoinRecord.name (stdHash : Bytes → Bytes32) (r : WalletCoinRecord) : Bytes32 := r.coin.name stdHash

def WalletCoinRecord.unspend (r : WalletCoinRecord) : WalletCoinRecord :=
  { r with spentBlockHeight := 0, spent := false }

def WalletCoinRecord.spendAt (r : WalletCoinRecord) (height : ℕ) : WalletCoinRecord :=
  { r with spentBlockHeight := height, spent := true }

structure TransactionRecord where
  confirmedAtHeight : ℕ
  confirmed : Bool
  additions : List Coin
  removals : List Coin
  walletId : ℕ
  name : Bytes32
deriving DecidableEq

structure DerivationRecord where
  index : ℕ
  puzzleHash : Bytes32
  pubkey : Bytes
  walletType : WalletType
  walletId : ℕ
deriving DecidableEq

end SectorChain
