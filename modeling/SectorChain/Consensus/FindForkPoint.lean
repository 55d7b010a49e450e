import SectorChain.Consensus.Env
import SectorChain.Lib.Forest

/-!
# The fork point of two chains

`find_fork_point_in_chain` walks back from two blocks until they meet.
-/

namespace SectorChain

open Lib

/-- The loop of `find_fork_point_in_chain`. The sum of the heights falls with each round. -/
def findForkPointFrom {R : Type} [DecidableEq R] (shape : Shape Bytes32 R) (blockRecord : Bytes32 → Except PyError R) :
    ℕ → R → R → Except PyError ℤ
  | 0, _, _ => .error .doesNotReturn
  | fuel + 1, block1, block2 =>
    if shape.height block2 > 0 ∨ shape.height block1 > 0 then
      if shape.height block2 > shape.height block1 then do
        let block2 ← blockRecord (shape.parent block2)
        findForkPointFrom shape blockRecord fuel block1 block2
      else if shape.height block1 > shape.height block2 then do
        let block1 ← blockRecord (shape.parent block1)
        findForkPointFrom shape blockRecord fuel block1 block2
      else if shape.key block2 = shape.key block1 then .ok (shape.height block2)
      else do
        let block2 ← blockRecord (shape.parent block2)
        let block1 ← blockRecord (shape.parent block1)
        findForkPointFrom shape blockRecord fuel block1 block2
    else if block2 ≠ block1 then .ok (-1)
    else .ok 0

/-- Records are found under their header hashes. -/
abbrev recordShape : Shape Bytes32 BlockRecord := ⟨BlockRecord.headerHash, BlockRecord.prevHash, BlockRecord.height⟩

/-- The height of the last common block, or -1 if there is none. -/
def findForkPointInChain (blocks : BlockchainInterface) (block1 block2 : BlockRecord) :
    Except PyError ℤ :=
  findForkPointFrom recordShape blocks.blockRecord (block1.height + block2.height + 1) block1 block2

end SectorChain
