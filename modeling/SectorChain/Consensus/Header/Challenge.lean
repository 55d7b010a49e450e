import SectorChain.Consensus.Header.Difficulty

/-!
# Challenges and signage point VDFs

`get_block_challenge.py` and `vdf_info_computation.py`.
-/

namespace SectorChain.Header

open Lib

section

variable (env : HeaderEnv)

def ChallengeChainSubSlot.getHash (s : ChallengeChainSubSlot) : Bytes32 := env.stdHash s.stream

def InfusedChallengeChainSubSlot.getHash (s : InfusedChallengeChainSubSlot) : Bytes32 := env.stdHash s.stream

def RewardChainSubSlot.getHash (s : RewardChainSubSlot) : Bytes32 := env.stdHash s.stream

/-- Whether an overflow block is in the same sub-slot, so that no sub-slot is missing. -/
def finalEosIsAlreadyIncluded (headerBlock : UnfinishedHeaderBlock) (blocks : Blocks) (subSlotIters : ℕ) :
    Except PyError Bool :=
  if headerBlock.finishedSubSlots.length > 0 then .ok false
  else do
    let curr ← blocks.blockRecord headerBlock.prevHeaderHash
    let close (r : BlockRecord) : Bool :=
      r.overflow && (headerBlock.rewardChainBlock.totalIters : ℤ) - r.totalIters < (subSlotIters / 2 : ℕ)
    blocks.walk (fun seenOverflowBlock r => .ok (
      if r.firstInSubSlot then .done seenOverflowBlock
      else if r.height = 0 then .done false
      else .back (seenOverflowBlock || close r))) (close curr) curr

def reversedSlotHashes (r : BlockRecord) : Except PyError (List Bytes32) :=
  if r.firstInSubSlot then do
    let finished ← assertSome r.finishedChallengeSlotHashes
    return finished.reverse
  else .ok []

def finishedSlotHashes (blocks : Blocks) (challengesToLookFor : ℕ) (curr : BlockRecord) : Except PyError (List Bytes32) :=
  blocks.walk (fun hashes r => do
    if hashes.length < challengesToLookFor then
      let more ← reversedSlotHashes r
      let hashes := hashes ++ more
      if r.height = 0 then do
        let finished ← assertSome r.finishedChallengeSlotHashes
        pyAssert (finished.length > 0)
        return .done hashes
      else return .back hashes
    else return .done hashes) [] curr

def getBlockChallenge (headerBlock : UnfinishedHeaderBlock) (blocks : Blocks)
    (genesisBlock overflow skipOverflowLastSsValidation : Bool) : Except PyError Bytes32 :=
  match headerBlock.finishedSubSlots.getLast? with
  | some last =>
    if overflow then
      if skipOverflowLastSsValidation then .ok (last.challengeChain.getHash env)
      else .ok last.challengeChain.challengeChainEndOfSlotVdf.challenge
    else .ok (last.challengeChain.getHash env)
  | none =>
    if genesisBlock then .ok env.genesisChallenge
    else do
      let challengesToLookFor := if overflow then if skipOverflowLastSsValidation then 1 else 2 else 1
      let curr ← blocks.blockRecord headerBlock.prevHeaderHash
      let hashes ← finishedSlotHashes blocks challengesToLookFor curr
      match hashes[challengesToLookFor - 1]? with
      | some challenge => return challenge
      | none => throw .indexError

structure SignagePointVdfInfo where
  ccVdfChallenge : Bytes32
  rcVdfChallenge : Bytes32
  ccVdfInput : ClassgroupElement
  vdfIters : ℕ
deriving DecidableEq

/-- Where the VDF to a signage point starts, at a block or at the slot: iterations, input and challenge. -/
def signagePointStart (curr : BlockRecord) (spTotalIters spIters : ℕ) :
    Except PyError (ℕ × ClassgroupElement × Bytes32) :=
  if curr.totalIters < spTotalIters then do
    let iters ← uint64 ((spTotalIters : ℤ) - curr.totalIters)
    return (iters, curr.challengeVdfOutput, curr.rewardInfusionNewChallenge)
  else do
    let hashes ← assertSome curr.finishedRewardSlotHashes
    let rcVdfChallenge ← lastOf hashes
    return (spIters, ClassgroupElement.getDefaultElement, rcVdfChallenge)

/-- The cases in which the previous block is in the slot of the signage point. -/
def signagePointFromPrev (prevB : BlockRecord) (blocks : Blocks) (spTotalIters spIters : ℕ) :
    Except PyError SignagePointVdfInfo := do
  let curr ← blocks.backTo (fun r => r.firstInSubSlot || r.totalIters ≤ spTotalIters) prevB
  let (vdfIters, ccVdfInput, rcVdfChallenge) ← signagePointStart curr spTotalIters spIters
  let first ← blocks.backTo BlockRecord.firstInSubSlot curr
  let hashes ← assertSome first.finishedChallengeSlotHashes
  let ccVdfChallenge ← lastOf hashes
  return ⟨ccVdfChallenge, rcVdfChallenge, ccVdfInput, vdfIters⟩

def foundSubSlots (r : BlockRecord) : Except PyError (List (Bytes32 × Bytes32)) :=
  if r.firstInSubSlot then do
    let challengeHashes ← assertSome r.finishedChallengeSlotHashes
    let rewardHashes ← assertSome r.finishedRewardSlotHashes
    return (challengeHashes.zip rewardHashes).reverse
  else return []

/-- The same for an overflow block in the slot of the previous block. -/
def overflowSignagePointStart (found : List (Bytes32 × Bytes32)) (spPreSb : Option BlockRecord)
    (spTotalIters spIters : ℕ) : Except PyError (ℕ × ClassgroupElement × Bytes32) :=
  match spPreSb with
  | some r => do
    let iters ← uint64 ((spTotalIters : ℤ) - r.totalIters)
    return (iters, r.challengeVdfOutput, r.rewardInfusionNewChallenge)
  | none => match found[1]? with
    | some slot => .ok (spIters, ClassgroupElement.getDefaultElement, slot.2)
    | none => .error .indexError

/-- Collects the slots and the last block before the signage point. -/
def overflowVisit (spTotalIters : ℕ) (s : List (Bytes32 × Bytes32) × Option BlockRecord) (r : BlockRecord) :
    Except PyError
      (Blocks.Visit (List (Bytes32 × Bytes32) × Option BlockRecord) (List (Bytes32 × Bytes32) × Option BlockRecord)) := do
  let slots ← foundSubSlots r
  let found := s.1 ++ slots
  let spPreSb := if s.2.isNone ∧ r.totalIters < spTotalIters then some r else s.2
  if found.length < 2 ∧ r.height > 0 then return .back (found, spPreSb)
  else return .done (found, spPreSb)

/-- An overflow block in the slot of the previous block: the loop collects the last two slots. -/
def signagePointFromOverflow (prevB : BlockRecord) (blocks : Blocks) (spTotalIters spIters : ℕ) :
    Except PyError SignagePointVdfInfo := do
  let (found, spPreSb) ← blocks.walk (overflowVisit spTotalIters) ([], none) prevB
  let (vdfIters, ccVdfInput, rcVdfChallenge) ← overflowSignagePointStart found spPreSb spTotalIters spIters
  match found[1]? with
  | some slot => return ⟨slot.1, rcVdfChallenge, ccVdfInput, vdfIters⟩
  | none => throw .indexError

def getSignagePointVdfInfo (finishedSubSlots : List EndOfSubSlotBundle) (overflow : Bool) (prevB : Option BlockRecord)
    (blocks : Blocks) (spTotalIters spIters : ℕ) : Except PyError SignagePointVdfInfo :=
  let fromSlot (slot : EndOfSubSlotBundle) : SignagePointVdfInfo :=
    ⟨slot.challengeChain.getHash env, slot.rewardChain.getHash env, ClassgroupElement.getDefaultElement, spIters⟩
  match finishedSubSlots.reverse, overflow, prevB with
  | last :: _, false, _ => .ok (fromSlot last)
  | _ :: beforeLast :: _, true, _ => .ok (fromSlot beforeLast)
  | _, _, none => .ok ⟨env.genesisChallenge, env.genesisChallenge, ClassgroupElement.getDefaultElement, spIters⟩
  | [_], true, some prevB => signagePointFromPrev prevB blocks spTotalIters spIters
  | [], true, some prevB => signagePointFromOverflow prevB blocks spTotalIters spIters
  | [], false, some prevB => signagePointFromPrev prevB blocks spTotalIters spIters

end

end SectorChain.Header
