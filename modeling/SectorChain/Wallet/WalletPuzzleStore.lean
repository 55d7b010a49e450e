import SectorChain.Wallet.Records
import Mathlib.Data.Finset.Basic

/-!
# The puzzle store of the wallet

The table has no key, so `INSERT OR REPLACE` always adds a row.
-/

namespace SectorChain

/-- A row of `derivation_paths`. -/
structure DerivationPath where
  record : DerivationRecord
  used : Bool
deriving DecidableEq

structure WalletPuzzleStore where
  /-- The rows, the oldest first. -/
  derivationPaths : List DerivationPath
  allPuzzleHashes : Finset Bytes32

namespace WalletPuzzleStore

def new : WalletPuzzleStore := ⟨[], ∅⟩

variable (s : WalletPuzzleStore)

/-- New rows are not used, also for an index that was. -/
def addDerivationPaths (records : List DerivationRecord) : WalletPuzzleStore where
  derivationPaths := s.derivationPaths ++ records.map (⟨·, false⟩)
  allPuzzleHashes := s.allPuzzleHashes ∪ (records.map DerivationRecord.puzzleHash).toFinset

/-- `UPDATE derivation_paths SET used=1 WHERE derivation_index<=?`, for all wallets. -/
def setUsedUpTo (index : ℕ) : WalletPuzzleStore :=
  { s with derivationPaths := s.derivationPaths.map fun row =>
      if row.record.index ≤ index then { row with used := true } else row }

def getDerivationRecord (index walletId : ℕ) : Option DerivationRecord :=
  (s.derivationPaths.find? fun row => row.record.index = index ∧ row.record.walletId = walletId).map
    DerivationPath.record

def indexForPuzzleHash (puzzleHash : Bytes32) : Option ℕ :=
  (s.derivationPaths.find? fun row => row.record.puzzleHash = puzzleHash).map fun row => row.record.index

def walletInfoForPuzzleHash (puzzleHash : Bytes32) : Option (ℕ × WalletType) :=
  (s.derivationPaths.find? fun row => row.record.puzzleHash = puzzleHash).map fun row =>
    (row.record.walletId, row.record.walletType)

/-- `SELECT MAX(derivation_index)`. -/
def getLastDerivationPath : Option ℕ :=
  (s.derivationPaths.map fun row => row.record.index).max?

def getLastDerivationPathForWallet (walletId : ℕ) : Option ℕ :=
  ((s.derivationPaths.filter fun row => row.record.walletId = walletId).map fun row => row.record.index).max?

/-- `SELECT MIN(derivation_index) … WHERE used=0`. -/
def getUnusedDerivationPath : Option ℕ :=
  ((s.derivationPaths.filter fun row => row.used = false).map fun row => row.record.index).min?

end WalletPuzzleStore

end SectorChain
