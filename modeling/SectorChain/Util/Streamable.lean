import SectorChain.Lib.Codec
import SectorChain.Types.Basic

/-!
# Streamable classes

The binary format of `streamable.py`, `ints.py`, `struct_stream.py` and `byte_types.py`.
-/

namespace SectorChain

abbrev Parser (α : Type) := Lib.Reader PyError α

/-- The integer classes of `ints.py`. -/
inductive IntType where
  | int8
  | uint8
  | int16
  | uint16
  | int32
  | uint32
  | int64
  | uint64
  | uint128
  | int512
deriving DecidableEq, Repr

namespace IntType

/-- Size of the encoding in bytes; `int512` uses one more to fit in the sign bit. -/
def size : IntType → ℕ
  | int8 | uint8 => 1
  | int16 | uint16 => 2
  | int32 | uint32 => 4
  | int64 | uint64 => 8
  | uint128 => 16
  | int512 => 65

def signed : IntType → Bool
  | int8 | int16 | int32 | int64 | int512 => true
  | uint8 | uint16 | uint32 | uint64 | uint128 => false

def minValue : IntType → ℤ
  | int8 => -2 ^ 7
  | int16 => -2 ^ 15
  | int32 => -2 ^ 31
  | int64 => -2 ^ 63
  | int512 => -2 ^ 512 + 1
  | uint8 | uint16 | uint32 | uint64 | uint128 => 0

def maxValue : IntType → ℤ
  | int8 => 2 ^ 7 - 1
  | uint8 => 2 ^ 8 - 1
  | int16 => 2 ^ 15 - 1
  | uint16 => 2 ^ 16 - 1
  | int32 => 2 ^ 31 - 1
  | uint32 => 2 ^ 32 - 1
  | int64 => 2 ^ 63 - 1
  | uint64 => 2 ^ 64 - 1
  | uint128 => 2 ^ 128 - 1
  | int512 => 2 ^ 512 - 1

/-- `uint128` and `int512` assert the range when they parse and stream. -/
def asserts : IntType → Bool
  | uint128 | int512 => true
  | _ => false

end IntType

/-- An instance of an integer class. -/
structure FixedInt (k : IntType) where
  val : ℤ
  min_le : k.minValue ≤ val
  le_max : val ≤ k.maxValue
deriving DecidableEq

namespace IntType

variable (k : IntType)

/-- The constructor `__new__`. -/
def new (value : ℤ) : Except PyError (FixedInt k) :=
  if h : k.minValue ≤ value ∧ value ≤ k.maxValue then .ok ⟨value, h.1, h.2⟩
  else .error .valueError

/-- `struct.unpack` and `int.from_bytes`. -/
def unpack (bs : Bytes) : ℤ := if k.signed then Lib.beInt bs else Lib.beNat bs

/-- `struct.pack` and `int.to_bytes`. -/
def pack (value : ℤ) : Bytes := Lib.beBytesInt k.size value

def parse : Parser (FixedInt k) := do
  let readBytes ← Lib.readExact .assertionError k.size
  let n := k.unpack readBytes
  if k.asserts then liftM (pyAssert (k.minValue ≤ n ∧ n ≤ k.maxValue))
  liftM (k.new n)

def stream (v : FixedInt k) : Except PyError Bytes := do
  if k.asserts then pyAssert (k.minValue ≤ v.val ∧ v.val ≤ k.maxValue)
  return k.pack v.val

end IntType

/-- Python `str`: code points, surrogates included. -/
abbrev PyStr := List (Fin 0x110000)

instance neZeroCodePoints : NeZero 0x110000 := ⟨by decide⟩

/-- The character of a code point; a lone surrogate has none. -/
def toChar (c : Fin 0x110000) : Except PyError Char :=
  if h : c.val.isValidChar then .ok (Char.ofNatAux c.val h) else .error .unicodeError

def ofChar (c : Char) : Fin 0x110000 := ⟨c.toNat, by
  have h := c.valid
  unfold UInt32.isValidChar Nat.isValidChar at h
  unfold Char.toNat
  omega⟩

/-- `str.encode("utf-8")`. -/
def encodeUtf8 (s : PyStr) : Except PyError Bytes := do
  let cs ← s.mapM toChar
  return cs.flatMap String.utf8EncodeChar

/-- `bytes.decode(_, "utf-8")`. -/
def decodeUtf8 (bs : Bytes) : Except PyError PyStr :=
  match bs.toByteArray.utf8Decode? with
  | some cs => .ok (cs.toList.map ofChar)
  | none => .error .unicodeError

mutual
/-- The type of a field. `typing` collapses an `Optional` directly inside an `Optional`. -/
inductive FType where
  | bool
  | int (k : IntType)
  | sizedBytes (size : ℕ)
  | bytes
  | str
  | optional (inner : FType)
  | list (inner : FType)
  | tuple (inner : FTypes)
  | streamable (fields : FTypes)

/-- The types of the items of a tuple, or of the fields of a class in their order. -/
inductive FTypes where
  | nil
  | cons (head : FType) (tail : FTypes)
end

mutual
def Value : FType → Type
  | .bool => Bool
  | .int k => FixedInt k
  | .sizedBytes size => SizedBytes size
  | .bytes => Bytes
  | .str => PyStr
  | .optional inner => Option (Value inner)
  | .list inner => List (Value inner)
  | .tuple inner => Values inner
  | .streamable fields => Values fields

def Values : FTypes → Type
  | .nil => Unit
  | .cons head tail => Value head × Values tail
end

def parseBool : Parser Bool := do
  let boolByte ← Lib.readExact .assertionError 1
  if boolByte = [0] then return false
  else if boolByte = [1] then return true
  else throw .valueError

def parseOptional {α : Type} (parseInnerTypeF : Parser α) : Parser (Option α) := do
  let isPresentBytes ← Lib.readExact .assertionError 1
  if isPresentBytes = [0] then return none
  else if isPresentBytes = [1] then return some (← parseInnerTypeF)
  else throw .valueError

/-- The four-byte size in front of lists, `bytes` and `str`. -/
def parseSize : Parser ℕ := do
  let sizeBytes ← Lib.readExact .assertionError 4
  let size ← liftM (IntType.uint32.new (Lib.beNat sizeBytes))
  return size.val.toNat

def parseBytes : Parser Bytes := do
  let listSize ← parseSize
  Lib.readExact .assertionError listSize

def parseList {α : Type} (parseInnerTypeF : Parser α) : Parser (List α) := do
  let listSize ← parseSize
  Lib.readMany parseInnerTypeF listSize

def parseStr : Parser PyStr := do
  let strSize ← parseSize
  let strReadBytes ← Lib.readExact .assertionError strSize
  liftM (decodeUtf8 strReadBytes)

/-- `make_sized_bytes(size).parse`. -/
def parseSizedBytes (size : ℕ) : Parser (SizedBytes size) := do
  let b ← Lib.readExact .assertionError size
  if h : b.length = size then return ⟨b, h⟩ else throw .valueError

mutual
/-- `function_to_parse_one_item`. -/
def parseOneItem : (t : FType) → Parser (Value t)
  | .bool => parseBool
  | .int k => k.parse
  | .sizedBytes size => parseSizedBytes size
  | .bytes => parseBytes
  | .str => parseStr
  | .optional inner => parseOptional (parseOneItem inner)
  | .list inner => parseList (parseOneItem inner)
  | .tuple inner => parseItems inner
  | .streamable fields => parseItems fields

/-- `parse_tuple` and `Streamable.parse`: one item after another. -/
def parseItems : (ts : FTypes) → Parser (Values ts)
  | .nil => return ()
  | .cons head tail => do
    let item ← parseOneItem head
    let items ← parseItems tail
    return (item, items)
end

/-- `uint32(n).to_bytes(4, "big")`. -/
def streamSize (n : ℕ) : Except PyError Bytes := do
  let size ← IntType.uint32.new n
  return Lib.beBytes 4 size.val.toNat

def streamBool (item : Bool) : Bytes := [if item then 1 else 0]

def streamOptional {α : Type} (streamInner : α → Except PyError Bytes) :
    Option α → Except PyError Bytes
  | none => return [0]
  | some item => return [1] ++ (← streamInner item)

def streamBytes (item : Bytes) : Except PyError Bytes := return (← streamSize item.length) ++ item

def streamList {α : Type} (streamInner : α → Except PyError Bytes) (item : List α) :
    Except PyError Bytes :=
  return (← streamSize item.length) ++ (← Lib.writeMany streamInner item)

def streamStr (item : PyStr) : Except PyError Bytes := do
  let strBytes ← encodeUtf8 item
  return (← streamSize strBytes.length) ++ strBytes

mutual
def streamOneItem : (t : FType) → Value t → Except PyError Bytes
  | .bool, item => return streamBool item
  | .int k, item => k.stream item
  | .sizedBytes _, item => return item.toBytes
  | .bytes, item => streamBytes item
  | .str, item => streamStr item
  | .optional inner, item => streamOptional (streamOneItem inner) item
  | .list inner, item => streamList (streamOneItem inner) item
  | .tuple inner, item => streamItems inner item
  | .streamable fields, item => streamItems fields item

/-- The items of a tuple, or `Streamable.stream`. -/
def streamItems : (ts : FTypes) → Values ts → Except PyError Bytes
  | .nil, _ => return []
  | .cons head tail, items => return (← streamOneItem head items.1) ++ (← streamItems tail items.2)
end

namespace Streamable

def fromBytes (fields : FTypes) (blob : Bytes) : Except PyError (Values fields) := do
  let (parsed, rest) ← (parseItems fields).run blob
  pyAssert (rest = [])
  return parsed

def toBytes (fields : FTypes) (v : Values fields) : Except PyError Bytes := streamItems fields v

end Streamable

end SectorChain
