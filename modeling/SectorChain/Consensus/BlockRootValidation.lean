import SectorChain.Lib.Dict
import SectorChain.Types.Coin
import SectorChain.Util.Errors
import SectorChain.Util.MerkleSet

/-!
# Addition and removal roots
-/

namespace SectorChain

variable (sha256 : Bytes → Bytes32)

def puzzlehashCoinsMap (txAdditions : List Coin) : Lib.Dict Bytes32 (List Coin) :=
  txAdditions.foldl (fun d coin =>
    match d.get? coin.puzzleHash with
    | some coins => d.set coin.puzzleHash (coins ++ [coin])
    | none => d.set coin.puzzleHash [coin]) .empty

/-- The values the addition Merkle set is built from, in the order of the calls. -/
def additionLeaves (txAdditions : List Coin) : List Bytes32 :=
  (puzzlehashCoinsMap txAdditions).entries.flatMap fun e => [e.1, hashCoinList sha256 e.2]

def buildMerkleSet (values : List Bytes32) : Except PyError MerkleSet :=
  values.foldlM (fun s v => s.addAlreadyHashed sha256 v.toBytes) {}

def validateBlockMerkleRoots (blockAdditionsRoot blockRemovalsRoot : Bytes32)
    (txAdditions : List Coin) (txRemovals : List Bytes32) : Except PyError (Option Err) := do
  let removalMerkleSet ← buildMerkleSet sha256 txRemovals
  let additionMerkleSet ← buildMerkleSet sha256 (additionLeaves sha256 txAdditions)
  let additionsRoot ← additionMerkleSet.getRoot sha256
  let removalsRoot ← removalMerkleSet.getRoot sha256
  if blockAdditionsRoot.toBytes ≠ additionsRoot then return some .BAD_ADDITION_ROOT
  if blockRemovalsRoot.toBytes ≠ removalsRoot then return some .BAD_REMOVAL_ROOT
  return none

end SectorChain
