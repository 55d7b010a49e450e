import SectorChain.Consensus.Header.Iterations
import SectorChain.Lib.Dict

/-!
# Block records and the way back

Functions that go back until they have seen enough are a `walk`.
-/

namespace SectorChain.Header

open Lib

structure Blocks where
  blockRecords : Dict Bytes32 BlockRecord
  heightToHash : Dict ℕ Bytes32

namespace Blocks

variable (blocks : Blocks)

variable (height : ℕ) (headerHash : Bytes32)

def containsBlock : Bool := blocks.blockRecords.contains headerHash

def containsHeight : Bool := blocks.heightToHash.contains height

def tryBlockRecord : Option BlockRecord := blocks.blockRecords.get? headerHash

def blockRecord : Except PyError BlockRecord :=
  match blocks.blockRecords.get? headerHash with
  | some r => .ok r
  | none => .error .keyError

def hashAt : Except PyError Bytes32 :=
  match blocks.heightToHash.get? height with
  | some h => .ok h
  | none => .error .keyError

def heightToBlockRecord : Except PyError BlockRecord := do
  let headerHash ← blocks.hashAt height
  blocks.blockRecord headerHash

/-- What a loop does at a block: it goes on to the block before, or it ends. -/
inductive Visit (σ α : Type) where
  | back (s : σ)
  | done (a : α)

/-- Goes back from `curr`. Heights fall, so the first one bounds the rounds. -/
def walkFrom {σ α : Type} (visit : σ → BlockRecord → Except PyError (Visit σ α)) :
    ℕ → σ → BlockRecord → Except PyError α
  | 0, _, _ => .error .doesNotReturn
  | fuel + 1, s, curr => do
    match ← visit s curr with
    | .done a => return a
    | .back s =>
      let prev ← blocks.blockRecord curr.prevHash
      walkFrom visit fuel s prev

def walk {σ α : Type} (visit : σ → BlockRecord → Except PyError (Visit σ α)) (s : σ) (curr : BlockRecord) :
    Except PyError α :=
  blocks.walkFrom visit (curr.height + 1) s curr

/-- `while not stop(curr): curr = blocks.block_record(curr.prev_hash)`. -/
def backTo (stop : BlockRecord → Bool) (curr : BlockRecord) : Except PyError BlockRecord :=
  blocks.walk (fun _ r => .ok (if stop r then .done r else .back ())) () curr

end Blocks

end SectorChain.Header
