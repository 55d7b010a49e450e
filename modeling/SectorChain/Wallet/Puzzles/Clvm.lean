import SectorChain.Types.Program
import SectorChain.Util.ConditionTools

/-!
# Chialisp

A puzzle is a function of its curried values and its solution, `none` where the program raises.
-/

namespace SectorChain

namespace Clvm

/-- What `if` takes for true: everything but the empty atom. -/
def truthy (v : SExp) : Bool := v ≠ .atom []

def asInt (v : SExp) : Option ℤ := v.atom?.map intFromBytes

/-- The operator `=`, which compares atoms. -/
def eq (a b : SExp) : Option Bool := do
  let x ← a.atom?
  let y ← b.atom?
  return x = y

/-- A constant of `condition_codes.clvm`. -/
def opcode (op : ConditionOpcode) : SExp := .atom op.value

def nth? : ℕ → SExp → Option SExp
  | 0, v => v.first?
  | i + 1, v => v.rest?.bind (nth? i)

/-- `(f v)`, `(f (r v))` and so on, where an atom is needed. -/
def nthAtom? (i : ℕ) (v : SExp) : Option Bytes := (nth? i v).bind SExp.atom?

/-- `(kw (q . parameter) environment)`. -/
def cell (kw : Bytes) (parameter environment : SExp) : SExp :=
  .ofList [.atom kw, .pair (.atom [1]) parameter, environment]

def A_KW : Bytes := [2]

def C_KW : Bytes := [4]

/-- `(c (q . p1) (c (q . p2) ... 1))`. -/
def curriedArgs (args : List SExp) : SExp := args.foldr (cell C_KW) (.atom [1])

/-- `Program.curry`, in the form that `curry-and-treehash.clinc` hashes. -/
def curry (program : SExp) (args : List SExp) : SExp := cell A_KW program (curriedArgs args)

section

variable (stdHash : Bytes → Bytes32)

/-- The operator `sha256`, on atoms. -/
def sha256 (parts : List Bytes) : Bytes := (stdHash parts.flatten).toBytes

def sha256tree (v : SExp) : Bytes := (v.treeHash stdHash).toBytes

/-- The tree hash of `(kw (q . parameter) environment)`. -/
def treeHashOfCell (kw parameterHash environmentHash : Bytes) : Bytes :=
  sha256 stdHash [[2], sha256 stdHash [[1], kw],
    sha256 stdHash [[2], sha256 stdHash [[2], sha256 stdHash [[1], [1]], parameterHash],
      sha256 stdHash [[2], environmentHash, sha256 stdHash [[1], []]]]]

def updateHashForParameterHash : Bytes → Bytes → Bytes := treeHashOfCell stdHash C_KW

def treeHashOfApply : Bytes → Bytes → Bytes := treeHashOfCell stdHash A_KW

def buildCurryList : List Bytes → Bytes → Bytes
  | [], environmentHash => environmentHash
  | parameterHash :: parameterHashes, environmentHash =>
    buildCurryList parameterHashes (updateHashForParameterHash stdHash parameterHash environmentHash)

def puzzleHashOfCurriedFunction (functionHash : Bytes) (reversedCurryParameterHashes : List Bytes) : Bytes :=
  treeHashOfApply stdHash functionHash
    (buildCurryList stdHash reversedCurryParameterHashes (sha256 stdHash [[1], [1]]))

end

end Clvm

end SectorChain
