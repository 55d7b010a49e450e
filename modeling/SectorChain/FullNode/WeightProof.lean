import SectorChain.Lib.Dict
import SectorChain.Types.Block
import SectorChain.Util.Errors

/-!
# Sampling of sub-epochs in a weight proof

The weights to check are an argument.
-/

namespace SectorChain

open Lib

structure SubEpochChallengeSegment where
  subEpochN : ℕ
  content : Bytes
deriving DecidableEq

/-- The cap on the number of sampled sub-epochs. -/
def MAX_SAMPLES : ℕ := 20

/-- Whether one of the weights, which are sorted, is within a sub-epoch. -/
def sampleSubEpoch (startOfEpochWeight endOfEpochWeight : ℕ) (weightToCheck : Option (List ℕ)) :
    Except PyError Bool :=
  match weightToCheck with
  | none => .ok true
  | some weights =>
    match weights.head?, weights.getLast? with
    | some first, some last =>
      if last < startOfEpochWeight then .ok false
      else if first > endOfEpochWeight then .ok false
      else .ok (choose weights)
    | _, _ => .error .indexError
where
  choose : List ℕ → Bool
    | [] => false
    | weight :: weights =>
      if weight > endOfEpochWeight then false
      else if startOfEpochWeight < weight ∧ weight < endOfEpochWeight then true
      else choose weights

/-- The sub-epochs from number `n` on that have to be sampled, given the weights at which they start. -/
def sampledSubEpochsFrom (weightToCheck : Option (List ℕ)) :
    ℕ → List ℕ → Dict ℕ Bool → Except PyError (Dict ℕ Bool)
  | n, start :: stop :: rest, sampled => do
    if ← sampleSubEpoch start stop weightToCheck then
      let sampled := sampled.set n true
      if sampled.entries.length = MAX_SAMPLES then return sampled
      else sampledSubEpochsFrom weightToCheck (n + 1) (stop :: rest) sampled
    else sampledSubEpochsFrom weightToCheck (n + 1) (stop :: rest) sampled
  | _, _, sampled => return sampled

def sampledSubEpochs (subEpochWeightList : List ℕ) (weightToCheck : Option (List ℕ)) :
    Except PyError (Dict ℕ Bool) :=
  sampledSubEpochsFrom weightToCheck 0 subEpochWeightList .empty

/-- `curr_sub_epoch_n < n`, where the counter starts at `-1`. -/
def isBelow : Option ℕ → ℕ → Bool
  | none, _ => true
  | some curr, n => curr < n

/-- Takes the labels of the segments out of the sampled sub-epochs. The counter follows every label. -/
def removeSampled : Option ℕ → List SubEpochChallengeSegment → Dict ℕ Bool → Dict ℕ Bool
  | _, [], sampled => sampled
  | curr, segment :: segments, sampled =>
    removeSampled (some segment.subEpochN) segments
      (if isBelow curr segment.subEpochN then sampled.erase segment.subEpochN else sampled)

def validateSubEpochSampling (subEpochWeightList : List ℕ) (weightToCheck : Option (List ℕ))
    (segments : List SubEpochChallengeSegment) : Except PyError Bool := do
  let sampled ← sampledSubEpochs subEpochWeightList weightToCheck
  return (removeSampled none segments sampled).entries.length = 0

/-- Groups segments by sub-epoch. The counter only goes up. -/
def mapSegmentsFrom : Option ℕ → List SubEpochChallengeSegment → Dict ℕ (List SubEpochChallengeSegment) →
    Dict ℕ (List SubEpochChallengeSegment)
  | _, [], groups => groups
  | none, segment :: segments, groups =>
    mapSegmentsFrom (some segment.subEpochN) segments (groups.set segment.subEpochN [segment])
  | some curr, segment :: segments, groups =>
    if curr < segment.subEpochN then
      mapSegmentsFrom (some segment.subEpochN) segments (groups.set segment.subEpochN [segment])
    else
      mapSegmentsFrom (some curr) segments (groups.set curr ((groups.get? curr).getD [] ++ [segment]))

def mapSegmentsBySubEpoch (segments : List SubEpochChallengeSegment) :
    Dict ℕ (List SubEpochChallengeSegment) :=
  mapSegmentsFrom none segments .empty

end SectorChain
