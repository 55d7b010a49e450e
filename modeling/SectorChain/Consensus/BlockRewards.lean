import SectorChain.Util.ConditionTools

/-!
# Block rewards

The source computes in floating point; all amounts are exact there.
-/

namespace SectorChain

def octetPerSector : ℕ := 1000000000000

def blocksPerYear : ℕ := 1681920

variable (height : ℕ) (blockHeight : ℕ) (genesisChallenge : Bytes32)

def eighthOfReward : ℕ :=
  if height = 0 then 100000 * octetPerSector / 8
  else if height < 3 * blocksPerYear then 2 * octetPerSector / 8
  else if height < 6 * blocksPerYear then 1 * octetPerSector / 8
  else if height < 9 * blocksPerYear then octetPerSector / 2 / 8
  else if height < 12 * blocksPerYear then octetPerSector / 4 / 8
  else octetPerSector / 8 / 8

def calculatePoolReward : ℕ := 7 * eighthOfReward height

def calculateBaseFarmerReward : ℕ := eighthOfReward height

/-- Sixteen bytes of the genesis challenge and the height. -/
def rewardParentId (half : Bytes) (hhalf : half.length = 16) (blockHeight : ℕ) : Bytes32 :=
  ⟨half ++ Lib.beBytes 16 blockHeight, by rw [List.length_append, hhalf, Lib.beBytes_length]⟩

def poolParentId : Bytes32 :=
  rewardParentId (genesisChallenge.toBytes.take 16) (by simp) blockHeight

def farmerParentId : Bytes32 :=
  rewardParentId (genesisChallenge.toBytes.drop 16) (by simp) blockHeight

/-- A reward coin; `reward` is cast to `uint64`. -/
def createRewardCoin (parentId puzzleHash : Bytes32) (reward : ℕ) : Except PyError Coin := do
  let amount ← uint64 reward
  return ⟨parentId, puzzleHash, amount.1, uint64_lt amount⟩

def createPoolCoin (puzzleHash : Bytes32) (reward : ℕ) (genesisChallenge : Bytes32) : Except PyError Coin :=
  createRewardCoin (poolParentId blockHeight genesisChallenge) puzzleHash reward

def createFarmerCoin (puzzleHash : Bytes32) (reward : ℕ) (genesisChallenge : Bytes32) : Except PyError Coin :=
  createRewardCoin (farmerParentId blockHeight genesisChallenge) puzzleHash reward

end SectorChain
