import SectorChain.Types.Basic

/-!
# Merkle sets

The compressed binary trie of `merkle_set.py`.
-/

namespace SectorChain.MerkleSet

def EMPTY : Bytes := [0]
def TERMINAL : Bytes := [1]
def MIDDLE : Bytes := [2]
def TRUNCATED : Bytes := [3]

def BLANK : Bytes := List.replicate 32 0

/-- The two-byte keys for which `init_prehashed` stores a hash state. -/
def prehashed : List Bytes :=
  [EMPTY, TERMINAL, MIDDLE].flatMap fun x => [EMPTY, TERMINAL, MIDDLE].map fun y => x ++ y

/-- A node of the trie. Only the hash of a terminal is checked to have 32 bytes. -/
inductive Node where
  | empty
  | terminal (hash : Bytes)
  | middle (child0 child1 : Node) (hash : Bytes)
  | truncated (hash : Bytes)
deriving DecidableEq, Repr

def getBit (mybytes : Bytes) (pos : ℕ) : Except PyError Bool := do
  pyAssert (mybytes.length = 32)
  match mybytes[pos / 8]? with
  | some x => pure (x.toNat.testBit (7 - pos % 8))
  | none => throw .indexError

namespace Node

def hash : Node → Bytes
  | empty => BLANK
  | terminal hash => hash
  | middle _ _ hash => hash
  | truncated hash => hash

def getHash : Node → Bytes
  | empty => EMPTY ++ BLANK
  | terminal hash => TERMINAL ++ hash
  | middle _ _ hash => MIDDLE ++ hash
  | truncated hash => MIDDLE ++ hash

def isEmpty : Node → Bool
  | empty => true
  | _ => false

def isTerminal : Node → Bool
  | terminal _ => true
  | _ => false

def isDouble : Node → Except PyError Bool
  | empty => throw .setError
  | terminal _ => throw .setError
  | middle child0 child1 _ =>
    if child0.isEmpty then child1.isDouble
    else if child1.isEmpty then child0.isDouble
    else pure (child0.isTerminal && child1.isTerminal)
  | truncated _ => pure false

end Node

/-- `TerminalNode._audit`, from position `pos` on. -/
def auditFrom (hash : Bytes) : ℕ → List Bool → Except PyError Unit
  | _, [] => pure ()
  | pos, v :: bits => do
    pyAssert ((← getBit hash pos) == v)
    auditFrom hash (pos + 1) bits

/-- `TerminalNode.__init__`. -/
def terminalNode (hash : Bytes) (bits : Option (List Bool)) : Except PyError Node := do
  pyAssert (hash.length = 32)
  if let some bits := bits then auditFrom hash 0 bits
  return .terminal hash

section Hash

variable (sha256 : Bytes → Bytes32)

/-- The two node types a pair of 33-byte node hashes starts with. -/
def hashdownKey (mystr : Bytes) : Bytes := mystr.take 1 ++ (mystr.drop 33).take 1

/-- The prehashed 30 zero bytes and node types, then the two hashes. -/
def hashdownInput (mystr : Bytes) : Bytes :=
  List.replicate 30 0 ++ hashdownKey mystr ++ ((mystr.drop 1).take 32 ++ mystr.drop 34)

def hashdown (mystr : Bytes) : Except PyError Bytes := do
  pyAssert (mystr.length = 66)
  if hashdownKey mystr ∈ prehashed then return (sha256 (hashdownInput mystr)).toBytes
  else throw .keyError

def compressRoot (mystr : Bytes) : Except PyError Bytes := do
  pyAssert (mystr.length = 33)
  if mystr.take 1 = MIDDLE then return mystr.drop 1
  if mystr.take 1 = EMPTY then
    pyAssert (mystr.drop 1 = BLANK)
    return BLANK
  return (sha256 mystr).toBytes

/-- `MiddleNode.__init__`. A node over two values takes the hash of the node that separates them. -/
def middleNode (child0 child1 : Node) : Except PyError Node := do
  if ← (if child0.isEmpty then child1.isDouble else pure false) then
    return .middle child0 child1 child1.hash
  if ← (if child1.isEmpty then child0.isDouble else pure false) then
    return .middle child0 child1 child0.hash
  if child0.isEmpty && (child1.isEmpty || child1.isTerminal) then throw .setError
  if child1.isEmpty && child0.isTerminal then throw .setError
  if child0.isTerminal && child1.isTerminal && child1.hash ≤ child0.hash then throw .setError
  return .middle child0 child1 (← hashdown sha256 (child0.getHash ++ child1.getHash))

/-- `TerminalNode._make_middle`, which ends at position 256, where `get_bit` leaves the value. -/
def makeMiddle (child0 child1 : Node) : ℕ → ℕ → Except PyError Node
  | 0, _ => throw .indexError
  | steps + 1, depth => do
    let cbit0 ← getBit child0.hash depth
    let cbit1 ← getBit child1.hash depth
    if cbit0 ≠ cbit1 then middleNode sha256 child0 child1
    else
      let next ← makeMiddle child0 child1 steps (depth + 1)
      if cbit0 then middleNode sha256 .empty next else middleNode sha256 next .empty

namespace Node

/-- The `add` methods. Whether a child is still the same object is equality of nodes. -/
def add (toadd : Bytes) : Node → ℕ → Except PyError Node
  | empty, _ => terminalNode toadd none
  | terminal hash, depth => do
    if toadd = hash then return .terminal hash
    let new ← terminalNode toadd none
    if hash < toadd then makeMiddle sha256 (.terminal hash) new (256 - depth) depth
    else makeMiddle sha256 new (.terminal hash) (256 - depth) depth
  | middle child0 child1 hash, depth => do
    if ← getBit toadd depth then
      let newchild ← add toadd child1 (depth + 1)
      if newchild = child1 then return .middle child0 child1 hash
      middleNode sha256 child0 newchild
    else
      let newchild ← add toadd child0 (depth + 1)
      if newchild = child0 then return .middle child0 child1 hash
      middleNode sha256 newchild child1
  | truncated hash, _ => return .truncated hash

def remove (toremove : Bytes) : Node → ℕ → Except PyError Node
  | empty, _ => return .empty
  | terminal hash, _ => return if toremove = hash then .empty else .terminal hash
  | middle child0 child1 hash, depth => do
    if ← getBit toremove depth then
      let newchild ← remove toremove child1 (depth + 1)
      if newchild = child1 then return .middle child0 child1 hash
      if newchild.isEmpty && child0.isTerminal then return child0
      if newchild.isTerminal && child0.isEmpty then return newchild
      middleNode sha256 child0 newchild
    else
      let newchild ← remove toremove child0 (depth + 1)
      if newchild = child0 then return .middle child0 child1 hash
      if newchild.isEmpty && child1.isTerminal then return child1
      if newchild.isTerminal && child1.isEmpty then return newchild
      middleNode sha256 newchild child1
  | truncated hash, _ => return .truncated hash

end Node

end Hash

namespace Node

/-- The bytes `other_included` appends. `self` is what `is_included` of the node gives. -/
def otherIncluded (node : Node) (collapse : Bool) (self : Except PyError (Bool × Bytes)) : Except PyError Bytes :=
  match node with
  | empty => pure EMPTY
  | terminal hash => pure (TERMINAL ++ hash)
  | middle _ _ hash => do
    if collapse then return TRUNCATED ++ hash
    if !(← node.isDouble) then return TRUNCATED ++ hash
    return (← self).2
  | truncated hash => pure (TRUNCATED ++ hash)

/-- The `is_included` methods: the answer, and the bytes they append to the proof. -/
def isIncluded (tocheck : Bytes) : Node → ℕ → Except PyError (Bool × Bytes)
  | empty, _ => pure (false, EMPTY)
  | terminal hash, _ => pure (tocheck = hash, TERMINAL ++ hash)
  | middle child0 child1 _, depth => do
    if ← getBit tocheck depth then
      let other ← child0.otherIncluded (!child1.isEmpty) (isIncluded tocheck child0 (depth + 1))
      let (r, p) ← isIncluded tocheck child1 (depth + 1)
      return (r, MIDDLE ++ other ++ p)
    else
      let (r, p) ← isIncluded tocheck child0 (depth + 1)
      let other ← child1.otherIncluded (!child0.isEmpty) (isIncluded tocheck child1 (depth + 1))
      return (r, MIDDLE ++ p ++ other)
  | truncated _, _ => throw .setError

end Node

end SectorChain.MerkleSet

namespace SectorChain

structure MerkleSet where
  root : MerkleSet.Node := .empty
deriving DecidableEq, Repr

namespace MerkleSet

/-- `_deserialize`. Each level reads a byte, so `proof.length + 1` levels reach past the end. -/
def deserializeFrom (sha256 : Bytes → Bytes32) (proof : Bytes) :
    ℕ → ℕ → List Bool → Except PyError (Node × ℕ)
  | 0, _, _ => throw .recursionError
  | levels + 1, pos, bits => do
    let t := (proof.drop pos).take 1
    if t = EMPTY then return (.empty, pos + 1)
    if t = TERMINAL then
      return (← terminalNode ((proof.drop (pos + 1)).take 32) (some bits), pos + 33)
    if t = TRUNCATED then return (.truncated ((proof.drop (pos + 1)).take 32), pos + 33)
    if t ≠ MIDDLE then throw .setError
    let (v0, pos) ← deserializeFrom sha256 proof levels (pos + 1) (bits ++ [false])
    let (v1, pos) ← deserializeFrom sha256 proof levels pos (bits ++ [true])
    return (← middleNode sha256 v0 v1, pos)

/-- How many calls of `_deserialize` the interpreter nests. There is room for a path of 256 bits. -/
class RecursionLimit where
  calls : ℕ
  enough : 257 ≤ calls

variable [RecursionLimit] (sha256 : Bytes → Bytes32)

variable (s : MerkleSet) (root val proof : Bytes)

def getRoot : Except PyError Bytes := compressRoot sha256 s.root.getHash

def addAlreadyHashed (toadd : Bytes) : Except PyError MerkleSet :=
  return ⟨← s.root.add sha256 toadd 0⟩

def removeAlreadyHashed (toremove : Bytes) : Except PyError MerkleSet :=
  return ⟨← s.root.remove sha256 toremove 0⟩

def isIncludedAlreadyHashed (tocheck : Bytes) : Except PyError (Bool × Bytes) :=
  s.root.isIncluded tocheck 0

def deserializeProof (proof : Bytes) : Except PyError MerkleSet :=
  let parsed : Except PyError MerkleSet := do
    let (r, pos) ← deserializeFrom sha256 proof RecursionLimit.calls 0 []
    if pos ≠ proof.length then throw .setError
    return ⟨r⟩
  match parsed with
  | .error .indexError => .error .setError
  | parsed => parsed

def confirm (expected : Bool) : Except PyError Bool :=
  let checked : Except PyError Bool := do
    let p ← deserializeProof sha256 proof
    if (← p.getRoot sha256) ≠ root then return false
    let (r, _) ← p.isIncludedAlreadyHashed val
    return r == expected
  match checked with
  | .error .setError => .ok false
  | checked => checked

def confirmIncludedAlreadyHashed : Except PyError Bool :=
  confirm sha256 root val proof true

def confirmNotIncludedAlreadyHashed : Except PyError Bool :=
  confirm sha256 root val proof false

def confirmIncluded : Except PyError Bool :=
  confirmNotIncludedAlreadyHashed sha256 root (sha256 val).toBytes proof

def confirmNotIncluded : Except PyError Bool :=
  confirmNotIncludedAlreadyHashed sha256 root (sha256 val).toBytes proof

end MerkleSet

end SectorChain
