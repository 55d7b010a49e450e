import SectorChain.Wallet.Puzzles.Clvm

/-!
# Tree hashes with precalculated values

The first entry of each list is the top of the stack.
-/

namespace SectorChain

/-- An entry of `sexp_stack`: a program, or a hash that stands for one. -/
inductive TreeItem where
  | sexp (v : SExp)
  | hash (bs : Bytes)
deriving DecidableEq

inductive TreeOp where
  | handleSexp
  | handlePair
  | roll
deriving DecidableEq

section

variable (stdHash : Bytes → Bytes32) (precalculated : List Bytes32)

/-- One operation on both stacks. `pop` raises on an empty stack, a hash has no `pair`. -/
def TreeOp.apply : TreeOp → List TreeItem → List TreeOp → Except PyError (List TreeItem × List TreeOp)
  | .handleSexp, .sexp (.pair p0 p1) :: sexpStack, opStack =>
    .ok (.sexp p1 :: .sexp p0 :: sexpStack, .handleSexp :: .roll :: .handleSexp :: .handlePair :: opStack)
  | .handleSexp, .sexp (.atom bs) :: sexpStack, opStack =>
    let r := if bs ∈ precalculated.map SizedBytes.toBytes then bs else (stdHash (1 :: bs)).toBytes
    .ok (.hash r :: sexpStack, opStack)
  | .handlePair, .hash p0 :: .hash p1 :: sexpStack, opStack =>
    .ok (.hash (stdHash (2 :: (p0 ++ p1))).toBytes :: sexpStack, opStack)
  | .roll, p0 :: p1 :: sexpStack, opStack => .ok (p1 :: p0 :: sexpStack, opStack)
  | .handleSexp, [], _ | .handlePair, [], _ | .handlePair, [_], _ | .roll, [], _ | .roll, [_], _ =>
    .error .indexError
  | .handleSexp, .hash _ :: _, _ | .handlePair, _ :: _ :: _, _ => .error .typeError

/-- The loop of `sha256_treehash`, for at most `fuel` operations. -/
def treehashLoop : ℕ → List TreeItem → List TreeOp → Except PyError (List TreeItem)
  | _, sexpStack, [] => .ok sexpStack
  | 0, _, _ :: _ => .error .doesNotReturn
  | fuel + 1, sexpStack, op :: opStack => do
    let (sexpStack, opStack) ← op.apply stdHash precalculated sexpStack opStack
    treehashLoop fuel sexpStack opStack

def sha256Treehash (fuel : ℕ) (sexp : SExp) : Except PyError Bytes32 := do
  match (← treehashLoop stdHash precalculated fuel [.sexp sexp] [.handleSexp]).getLast? with
  | some (.hash bs) => SizedBytes.ofBytes 32 bs
  | some (.sexp _) => .error .typeError
  | none => .error .indexError

/-- `_tree_hash`. -/
def SExp.treeHashWith : SExp → Bytes32
  | .atom bs => (precalculated.find? (·.toBytes = bs)).getD (stdHash (1 :: bs))
  | .pair l r => stdHash (2 :: (l.treeHashWith.toBytes ++ r.treeHashWith.toBytes))

/-- `Program.get_tree_hash`. -/
def getTreeHash (fuel : ℕ) (sexp : SExp) (args : List Bytes32) : Except PyError Bytes32 :=
  sha256Treehash stdHash args fuel sexp

end

namespace Clvm

variable (stdHash : Bytes → Bytes32) (fuel : ℕ)

def ccPuzzleForInnerPuzzle (modCode genesisCoinChecker innerPuzzle : SExp) : Except PyError SExp := do
  let modHash ← getTreeHash stdHash fuel modCode []
  return curry modCode [.atom modHash.toBytes, genesisCoinChecker, innerPuzzle]

def ccPuzzleHashForInnerPuzzleHash (modCode genesisCoinChecker : SExp) (innerPuzzleHash : Bytes32) :
    Except PyError Bytes32 := do
  let gccHash ← getTreeHash stdHash fuel genesisCoinChecker []
  let modHash ← getTreeHash stdHash fuel modCode []
  let curried := curry modCode [.atom modHash.toBytes, .atom gccHash.toBytes, .atom innerPuzzleHash.toBytes]
  getTreeHash stdHash fuel curried [gccHash, innerPuzzleHash]

end Clvm

end SectorChain
