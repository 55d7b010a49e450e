import SectorChain.Types.Condition

/-!
# Serialized programs

An atom may be written with a longer size than it needs.
-/

namespace SectorChain

open Lib

namespace SExp

def treeHash (stdHash : Bytes → Bytes32) : SExp → Bytes32
  | atom bs => stdHash (1 :: bs)
  | pair l r => stdHash (2 :: ((l.treeHash stdHash).toBytes ++ (r.treeHash stdHash).toBytes))

/-- `as_bin` of an atom. -/
def atomAsBin (bs : Bytes) : Bytes :=
  if bs = [] then [0x80]
  else if bs.length = 1 ∧ bs.all (· ≤ 0x7f) then bs
  else if bs.length < 0x40 then beBytes 1 (0x80 + bs.length) ++ bs
  else if bs.length < 0x2000 then beBytes 2 (0xc000 + bs.length) ++ bs
  else if bs.length < 0x100000 then beBytes 3 (0xe00000 + bs.length) ++ bs
  else if bs.length < 0x8000000 then beBytes 4 (0xf0000000 + bs.length) ++ bs
  else beBytes 5 (0xf800000000 + bs.length) ++ bs

def asBin : SExp → Bytes
  | atom bs => atomAsBin bs
  | pair l r => 0xff :: (l.asBin ++ r.asBin)

/-- The number of leading ones of a first byte, and the bits behind them. -/
def sizePrefix (b : UInt8) : ℕ × UInt8 :=
  if b < 0xc0 then (1, b - 0x80)
  else if b < 0xe0 then (2, b - 0xc0)
  else if b < 0xf0 then (3, b - 0xe0)
  else if b < 0xf8 then (4, b - 0xf0)
  else if b < 0xfc then (5, b - 0xf8)
  else if b < 0xfe then (6, b - 0xfc)
  else (7, b - 0xfe)

/-- `f.read(size)`, which has to return that many bytes. -/
def readBytes (size : ℕ) (bs : Bytes) : Option (Bytes × Bytes) :=
  if bs.length < size then none else some (bs.take size, bs.drop size)

/-- An atom with the first byte `b`, and the bytes after it. -/
def atomFromStream (b : UInt8) (rest : Bytes) : Option (Bytes × Bytes) :=
  if b = 0x80 then some ([], rest)
  else if b ≤ 0x7f then some ([b], rest)
  else do
    let (sizeBlob, rest) ← readBytes ((sizePrefix b).1 - 1) rest
    let size := beNat ((sizePrefix b).2 :: sizeBlob)
    if size ≥ 0x400000000 then none else readBytes size rest

/-- `sexp_from_stream`: a value and the bytes after it. `depth` bounds the nesting. -/
def fromStream : ℕ → Bytes → Option (SExp × Bytes)
  | 0, _ => none
  | _ + 1, [] => none
  | depth + 1, b :: rest =>
    if b = 0xff then do
      let (l, rest) ← fromStream depth rest
      let (r, rest) ← fromStream depth rest
      return (pair l r, rest)
    else do
      let (bs, rest) ← atomFromStream b rest
      return (atom bs, rest)

def fromBytes (bs : Bytes) : Option SExp :=
  match fromStream bs.length bs with
  | some (v, []) => some v
  | _ => none

end SExp

/-- Bytes that a program was read from. -/
structure SerializedProgram where
  buf : Bytes
  program : SExp
  fromBytes_buf : SExp.fromBytes buf = some program
deriving DecidableEq

/-- `from_bytes(bytes(program))`. `as_bin` raises if an atom has `0x400000000` bytes or more. -/
def SerializedProgram.ofProgram (program : SExp) : Except PyError SerializedProgram :=
  if h : SExp.fromBytes program.asBin = some program then .ok ⟨program.asBin, program, h⟩
  else .error .valueError

end SectorChain
