import SectorChain.Lib.BigEndian

/-!
# Byte strings and exceptions

`bytes32` and its siblings carry their length.
-/

namespace SectorChain

/-- Python `bytes`. -/
abbrev Bytes := List UInt8

/-- The streamable type `make_sized_bytes(size)` builds: `bytes` of one fixed size. -/
structure SizedBytes (size : ℕ) where
  toBytes : Bytes
  length_eq : toBytes.length = size
deriving DecidableEq

abbrev Bytes32 := SizedBytes 32

instance : LawfulBEq Bytes := inferInstance

instance : LawfulBEq Bytes32 := inferInstance

/-- Exception classes. `setError` is `merkle_set.SetError`; `doesNotReturn` marks a loop that goes on for ever. -/
inductive PyError where
  | assertionError
  | indexError
  | keyError
  | valueError
  | typeError
  | zeroDivisionError
  | setError
  | integrityError
  | operationalError
  | cancelledError
  | unicodeError
  | recursionError
  | passwordDeleteError
  | doesNotReturn
deriving DecidableEq, Repr

namespace SizedBytes

@[simp] lemma length_toBytes {size : ℕ} (v : SizedBytes size) : v.toBytes.length = size :=
  v.length_eq

lemma toBytes_injective {size : ℕ} {a b : SizedBytes size} (h : a.toBytes = b.toBytes) : a = b := by
  cases a
  cases b
  cases h
  rfl

/-- `int.to_bytes(size, "big")` of a number that fits. -/
def ofNat (size n : ℕ) : SizedBytes size := ⟨Lib.beBytes size n, Lib.beBytes_length size n⟩

/-- The sized type applied to a byte string. -/
def ofBytes (size : ℕ) (bs : Bytes) : Except PyError (SizedBytes size) :=
  if h : bs.length = size then .ok ⟨bs, h⟩ else .error .valueError

end SizedBytes

def pyAssert (b : Bool) : Except PyError Unit := if b then pure () else throw .assertionError

@[simp] lemma pyAssert_true : pyAssert true = .ok () := rfl

@[simp] lemma pyAssert_false : pyAssert false = .error .assertionError := rfl

lemma pyAssert_ok {b : Bool} {u : Unit} : pyAssert b = .ok u ↔ b = true := by
  cases b <;> simp

def assertSome {α : Type} : Option α → Except PyError α
  | some a => .ok a
  | none => .error .assertionError

lemma assertSome_ok {α : Type} {x : Option α} {a : α} : assertSome x = .ok a ↔ x = some a := by
  cases x <;> simp [assertSome]

end SectorChain
