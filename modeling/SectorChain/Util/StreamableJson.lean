import SectorChain.Util.ByteTypes

/-!
# Streamable classes as JSON

`recurse_jsonify` after `dataclasses.asdict`, and `dataclass_from_dict`.
-/

namespace SectorChain

/-- The Python values that stand for JSON. -/
inductive Json where
  | null
  | bool (b : Bool)
  | int (n : ℤ)
  | str (s : PyStr)
  | list (items : List Json)
  | dict (entries : List (PyStr × Json))

namespace Json

/-- What `not d` negates. -/
def truthy : Json → Bool
  | null => false
  | bool b => b
  | int n => n ≠ 0
  | str s => !s.isEmpty
  | list items => !items.isEmpty
  | dict entries => !entries.isEmpty

/-- What `for item in d` runs over. -/
def iterate : Json → Except PyError (List Json)
  | str s => .ok (s.map fun c => .str [c])
  | list items => .ok items
  | dict entries => .ok (entries.map fun e => .str e.1)
  | _ => .error .typeError

end Json

/-- `unhashable_types`. -/
inductive UnhashableType where
  | PrivateKey
  | G1Element
  | G2Element
  | Program
  | SerializedProgram

/-- The unhashable classes, whose `from_bytes` reads what `bytes` wrote. -/
structure Unhashables where
  Instance : UnhashableType → Type
  toBytes : {k : UnhashableType} → Instance k → Bytes
  fromBytes : (k : UnhashableType) → Bytes → Except PyError (Instance k)
  fromBytes_toBytes : ∀ {k : UnhashableType} (a : Instance k), fromBytes k (toBytes a) = .ok a

mutual
/-- The type of a field. -/
inductive JType where
  | bool
  | int (k : IntType)
  | sizedBytes (size : ℕ)
  | bytes
  | str
  | unhashable (k : UnhashableType)
  | optional (inner : JType)
  | list (inner : JType)
  | tuple (items : JTypes)
  | streamable (fields : JTypes)

/-- The fields of a class with their names, or the items of a tuple, whose names are not used. -/
inductive JTypes where
  | nil
  | cons (name : PyStr) (head : JType) (tail : JTypes)
end

def JTypes.names : JTypes → List PyStr
  | .nil => []
  | .cons name _ tail => name :: tail.names

section

variable (U : Unhashables)

mutual
def JValue : JType → Type
  | .bool => Bool
  | .int k => FixedInt k
  | .sizedBytes size => SizedBytes size
  | .bytes => Bytes
  | .str => PyStr
  | .unhashable k => U.Instance k
  | .optional inner => Option (JValue inner)
  | .list inner => List (JValue inner)
  | .tuple items => JValues items
  | .streamable fields => JValues fields

def JValues : JTypes → Type
  | .nil => Unit
  | .cons _ head tail => JValue head × JValues tail
end

/-- `f"0x{bytes(item).hex()}"`. -/
def hexText (bs : Bytes) : Json := .str (ofChar '0' :: ofChar 'x' :: hexStr bs)

def jsonifyOptional {α : Type} (jsonify : α → Json) : Option α → Json
  | none => .null
  | some item => jsonify item

mutual
def recurseJsonify : (t : JType) → JValue U t → Json
  | .bool, item => .bool item
  | .int _, item => .int item.val
  | .sizedBytes _, item => hexText item.toBytes
  | .bytes, item => hexText item
  | .str, item => .str item
  | .unhashable _, item => hexText (U.toBytes item)
  | .optional inner, item => jsonifyOptional (recurseJsonify inner) item
  | .list inner, item => .list (item.map (recurseJsonify inner))
  | .tuple items, item => .list ((jsonifyFields items item).map Prod.snd)
  | .streamable fields, item => .dict (jsonifyFields fields item)

def jsonifyFields : (ts : JTypes) → JValues U ts → List (PyStr × Json)
  | .nil, _ => []
  | .cons name head tail, items =>
    (name, recurseJsonify head items.1) :: jsonifyFields tail items.2
end

/-- `int` of a text and `str` of a value that is none. -/
structure Conversions where
  intOfStr : PyStr → Except PyError ℤ
  strOf : Json → PyStr

variable (conv : Conversions)

/-- `int(value)`. -/
def intFrom : Json → Except PyError ℤ
  | .int n => .ok n
  | .bool b => .ok (if b then 1 else 0)
  | .str s => conv.intOfStr s
  | _ => .error .typeError

def strFrom : Json → PyStr
  | .str s => s
  | d => conv.strOf d

/-- `hexstr_to_bytes(d)`. -/
def bytesFrom : Json → Except PyError Bytes
  | .str s => hexstrToBytes s
  | _ => .error .typeError

mutual
def dataclassFromDict : (t : JType) → Json → Except PyError (JValue U t)
  | .optional inner, d => if d.truthy then some <$> dataclassFromDict inner d else .ok none
  | .tuple items, d => do itemsFrom items (← d.iterate)
  | .streamable fields, .dict entries =>
    if entries.all fun e => e.1 ∈ fields.names then fieldsFrom fields entries else .error .keyError
  | .streamable _, _ => .error .typeError
  | .list inner, d => do (← d.iterate).mapM (dataclassFromDict inner)
  | .sizedBytes size, d => do SizedBytes.ofBytes size (← bytesFrom d)
  | .bytes, d => bytesFrom d
  | .unhashable k, d => do U.fromBytes k (← bytesFrom d)
  | .int k, d => do k.new (← intFrom conv d)
  | .bool, d => .ok d.truthy
  | .str, d => .ok (strFrom conv d)

/-- A tuple that is too short is refused by the class it is a field of. -/
def itemsFrom : (ts : JTypes) → List Json → Except PyError (JValues U ts)
  | .nil, [] => .ok ()
  | .nil, _ :: _ => .error .indexError
  | .cons _ _ _, [] => .error .valueError
  | .cons _ head tail, item :: items => do
    return (← dataclassFromDict head item, ← itemsFrom tail items)

/-- The arguments of the class, by name. -/
def fieldsFrom : (ts : JTypes) → List (PyStr × Json) → Except PyError (JValues U ts)
  | .nil, _ => .ok ()
  | .cons name head tail, entries =>
    match entries.lookup name with
    | none => .error .typeError
    | some item => do return (← dataclassFromDict head item, ← fieldsFrom tail entries)
end

def toJsonDict (fields : JTypes) (x : JValues U fields) : Json :=
  recurseJsonify U (.streamable fields) x

def fromJsonDict (fields : JTypes) (jsonDict : Json) : Except PyError (JValues U fields) :=
  dataclassFromDict U conv (.streamable fields) jsonDict

end

end SectorChain
