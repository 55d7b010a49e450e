import SectorChain.Types.Coin
import SectorChain.Lib.Dict
import SectorChain.Util.Errors

/-!
# CLVM values, conditions and generators
-/

namespace SectorChain

/-- A CLVM value: an atom or a pair. -/
inductive SExp where
  | atom (bs : Bytes)
  | pair (first rest : SExp)
deriving DecidableEq

namespace SExp

def first? : SExp → Option SExp
  | atom _ => none
  | pair l _ => some l

def rest? : SExp → Option SExp
  | atom _ => none
  | pair _ r => some r

/-- The attribute `atom`, which is `None` for a pair. -/
def atom? : SExp → Option Bytes
  | atom bs => some bs
  | pair _ _ => none

/-- A loop over `as_iter`, which raises `err` if the list does not end in the empty atom. -/
def foldIter {ε β : Type} (err : ε) (f : β → SExp → Except ε β) : SExp → β → Except ε β
  | atom bs, b => if bs = [] then .ok b else .error err
  | pair l r, b => do
    let b' ← f b l
    r.foldIter err f b'

/-- `as_atom_list`: the leading atoms. -/
def asAtomList : SExp → List Bytes
  | atom _ => []
  | pair l r => match l.atom? with
    | some bs => bs :: r.asAtomList
    | none => []

/-- `Program.to` of a list. -/
def ofList : List SExp → SExp
  | [] => atom []
  | x :: xs => pair x (ofList xs)

end SExp

inductive ConditionOpcode where
  | UNKNOWN
  | AGG_SIG_UNSAFE
  | AGG_SIG_ME
  | CREATE_COIN
  | RESERVE_FEE
  | CREATE_COIN_ANNOUNCEMENT
  | ASSERT_COIN_ANNOUNCEMENT
  | CREATE_PUZZLE_ANNOUNCEMENT
  | ASSERT_PUZZLE_ANNOUNCEMENT
  | ASSERT_MY_COIN_ID
  | ASSERT_MY_PARENT_ID
  | ASSERT_MY_PUZZLEHASH
  | ASSERT_MY_AMOUNT
  | ASSERT_SECONDS_RELATIVE
  | ASSERT_SECONDS_ABSOLUTE
  | ASSERT_HEIGHT_RELATIVE
  | ASSERT_HEIGHT_ABSOLUTE
deriving DecidableEq, Repr

namespace ConditionOpcode

/-- The enum value, a string of one byte. -/
def value : ConditionOpcode → Bytes
  | UNKNOWN => [48]
  | AGG_SIG_UNSAFE => [49]
  | AGG_SIG_ME => [50]
  | CREATE_COIN => [51]
  | RESERVE_FEE => [52]
  | CREATE_COIN_ANNOUNCEMENT => [60]
  | ASSERT_COIN_ANNOUNCEMENT => [61]
  | CREATE_PUZZLE_ANNOUNCEMENT => [62]
  | ASSERT_PUZZLE_ANNOUNCEMENT => [63]
  | ASSERT_MY_COIN_ID => [70]
  | ASSERT_MY_PARENT_ID => [71]
  | ASSERT_MY_PUZZLEHASH => [72]
  | ASSERT_MY_AMOUNT => [73]
  | ASSERT_SECONDS_RELATIVE => [80]
  | ASSERT_SECONDS_ABSOLUTE => [81]
  | ASSERT_HEIGHT_RELATIVE => [82]
  | ASSERT_HEIGHT_ABSOLUTE => [83]

/-- The members of the enum, in the order of the class. -/
def all : List ConditionOpcode :=
  [UNKNOWN, AGG_SIG_UNSAFE, AGG_SIG_ME, CREATE_COIN, RESERVE_FEE, CREATE_COIN_ANNOUNCEMENT,
    ASSERT_COIN_ANNOUNCEMENT, CREATE_PUZZLE_ANNOUNCEMENT, ASSERT_PUZZLE_ANNOUNCEMENT,
    ASSERT_MY_COIN_ID, ASSERT_MY_PARENT_ID, ASSERT_MY_PUZZLEHASH, ASSERT_MY_AMOUNT,
    ASSERT_SECONDS_RELATIVE, ASSERT_SECONDS_ABSOLUTE, ASSERT_HEIGHT_RELATIVE,
    ASSERT_HEIGHT_ABSOLUTE]

/-- `ConditionOpcode(blob)` for a member of `CONDITION_OPCODES`. -/
def ofBytes? (blob : Bytes) : Option ConditionOpcode := all.find? fun op => op.value = blob

end ConditionOpcode

structure ConditionWithArgs where
  opcode : ConditionOpcode
  vars : List Bytes
deriving DecidableEq

/-- Name, puzzle hash and conditions of a spent coin. -/
structure NPC where
  coinName : Bytes32
  puzzleHash : Bytes32
  conditions : List (ConditionOpcode × List ConditionWithArgs)
deriving DecidableEq

def NPC.conditionDict (npc : NPC) : Lib.Dict ConditionOpcode (List ConditionWithArgs) :=
  npc.conditions.foldl (fun d e => d.set e.1 e.2) .empty

structure NPCResult where
  error : Option Err
  npcList : List NPC
  clvmCost : ℕ
deriving DecidableEq

structure GeneratorArg where
  blockHeight : ℕ
  generator : Bytes
deriving DecidableEq

structure BlockGenerator where
  program : Bytes
  generatorArgs : List GeneratorArg
deriving DecidableEq

def BlockGenerator.generatorRefs (g : BlockGenerator) : List Bytes :=
  g.generatorArgs.map GeneratorArg.generator

end SectorChain
