import SectorChain.Consensus.Header.Types

/-!
# Integers, iterations and quality

Conversions raise when a value does not fit.
-/

namespace SectorChain

def truncateToSignificantBits (x numSignificantBits : ℕ) : ℕ :=
  if numSignificantBits > x.size then x
  else
    let lower := x.size - numSignificantBits
    let mask := (1 <<< x.size) - 1 - ((1 <<< lower) - 1)
    x &&& mask

/-- `truncate_to_significant_bits` on an integer of either sign. -/
def truncateIntToSignificantBits (inputX : ℤ) (numSignificantBits : ℕ) : ℤ :=
  let x := inputX.natAbs
  if numSignificantBits > x.size then x
  else if inputX < 0 then -↑(truncateToSignificantBits x numSignificantBits)
  else ↑(truncateToSignificantBits x numSignificantBits)

/-- The number of bits from the first one to the last one that is set. -/
def countSignificantBits (x : ℕ) : ℕ :=
  match (List.range x.size).find? fun i => x &&& (1 <<< i) > 0 with
  | some i => x.size - i
  | none => 0

namespace Header

open Lib

def toUint (bits : ℕ) (x : ℤ) : Except PyError ℕ :=
  if 0 ≤ x ∧ x < 2 ^ bits then .ok x.toNat else .error .valueError

def uint8 (x : ℤ) : Except PyError ℕ := toUint 8 x

def uint32 (x : ℤ) : Except PyError ℕ := toUint 32 x

def uint64 (x : ℤ) : Except PyError ℕ := toUint 64 x

def uint128 (x : ℤ) : Except PyError ℕ := toUint 128 x

def floorDiv (x y : ℤ) : Except PyError ℤ := if y = 0 then .error .zeroDivisionError else .ok (x.fdiv y)

/-- `x % y` of numbers that are not negative. -/
def modulo (x y : ℕ) : Except PyError ℕ := if y = 0 then .error .zeroDivisionError else .ok (x % y)

def lastOf {α : Type} (l : List α) : Except PyError α :=
  match l.getLast? with
  | some a => .ok a
  | none => .error .indexError

def isOverflowBlock (signagePointIndex : ℕ) : Except PyError Bool :=
  if signagePointIndex ≥ NUM_SPS_SUB_SLOT then .error .valueError
  else .ok (signagePointIndex ≥ NUM_SPS_SUB_SLOT - NUM_SP_INTERVALS_EXTRA)

def calculateSpIntervalIters (subSlotIters : ℕ) : Except PyError ℕ := do
  pyAssert (subSlotIters % NUM_SPS_SUB_SLOT = 0)
  uint64 (subSlotIters / NUM_SPS_SUB_SLOT : ℕ)

def calculateSpIters (subSlotIters signagePointIndex : ℕ) : Except PyError ℕ := do
  if signagePointIndex ≥ NUM_SPS_SUB_SLOT then throw .valueError
  let interval ← calculateSpIntervalIters subSlotIters
  uint64 (interval * signagePointIndex : ℕ)

def calculateIpIters (subSlotIters signagePointIndex requiredIters : ℕ) : Except PyError ℕ := do
  let spIters ← calculateSpIters subSlotIters signagePointIndex
  let spIntervalIters ← calculateSpIntervalIters subSlotIters
  let rest ← modulo spIters spIntervalIters
  if rest ≠ 0 ∨ spIters ≥ subSlotIters then throw .valueError
  if requiredIters ≥ spIntervalIters ∨ requiredIters = 0 then throw .valueError
  let ipIters ← modulo (spIters + NUM_SP_INTERVALS_EXTRA * spIntervalIters + requiredIters) subSlotIters
  uint64 ipIters

namespace BlockRecord

def spIters (r : BlockRecord) : Except PyError ℕ := calculateSpIters r.subSlotIters r.signagePointIndex

def ipIters (r : BlockRecord) : Except PyError ℕ :=
  calculateIpIters r.subSlotIters r.signagePointIndex r.requiredIters

def spSubSlotTotalIters (r : BlockRecord) : Except PyError ℕ := do
  let ipIters ← r.ipIters
  if r.overflow then uint128 (r.totalIters - ipIters - r.subSlotIters)
  else uint128 (r.totalIters - ipIters)

def spTotalIters (r : BlockRecord) : Except PyError ℕ := do
  let start ← r.spSubSlotTotalIters
  let spIters ← r.spIters
  return start + spIters

end BlockRecord

/-- The expected size of a plot; the code truncates one half to zero for `k = 0`. -/
def expectedPlotSize (k : ℕ) : ℕ := if k = 0 then 0 else (2 * k + 1) * 2 ^ (k - 1)

section

variable (env : HeaderEnv)

def calculateIterationsQuality (qualityString : Bytes32) (size difficulty : ℕ) (ccSpOutputHash : Bytes32) :
    Except PyError ℕ := do
  let spQualityString := env.stdHash (qualityString.toBytes ++ ccSpOutputHash.toBytes)
  let quotient ← floorDiv (difficulty * DIFFICULTY_CONSTANT_FACTOR * beNat spQualityString.toBytes)
    (2 ^ 256 * expectedPlotSize size)
  let iters ← uint64 quotient
  return max iters 1

namespace ProofOfSpace

def getPlotId (p : ProofOfSpace) : Except PyError Bytes32 := do
  pyAssert (p.poolPublicKey.isNone ∨ p.poolContractPuzzleHash.isNone)
  match p.poolPublicKey, p.poolContractPuzzleHash with
  | some pk, _ => return env.stdHash (pk.toBytes ++ p.plotPublicKey.toBytes)
  | none, some ph => return env.stdHash (ph.toBytes ++ p.plotPublicKey.toBytes)
  | none, none => throw .typeError

variable (plotId challengeHash signagePoint : Bytes32)

def calculatePlotFilterInput : Bytes32 :=
  env.stdHash (plotId.toBytes ++ challengeHash.toBytes ++ signagePoint.toBytes)

def calculatePosChallenge : Bytes32 :=
  env.stdHash (calculatePlotFilterInput env plotId challengeHash signagePoint).toBytes

/-- Whether the first bits of the filter hash are zero. -/
def passesPlotFilter : Bool :=
  beNat (calculatePlotFilterInput env plotId challengeHash signagePoint).toBytes /
    2 ^ (256 - NUMBER_ZERO_BITS_PLOT_FILTER) = 0

def verifyAndGetQualityString (p : ProofOfSpace) (originalChallengeHash signagePoint : Bytes32) :
    Except PyError (Option Bytes32) := do
  if p.poolPublicKey.isNone ∧ p.poolContractPuzzleHash.isNone then return none
  if p.poolPublicKey.isSome ∧ p.poolContractPuzzleHash.isSome then return none
  if p.size < MIN_PLOT_SIZE then return none
  if p.size > MAX_PLOT_SIZE then return none
  let plotId ← p.getPlotId env
  if calculatePosChallenge env plotId originalChallengeHash signagePoint ≠ p.challenge then return none
  if !passesPlotFilter env plotId originalChallengeHash signagePoint then return none
  return env.validateProof plotId p.size p.challenge p.proof

end ProofOfSpace

def VDFProof.isValid (proof : VDFProof) (inputEl : ClassgroupElement) (info : VDFInfo)
    (targetVdfInfo : Option VDFInfo) : Bool :=
  (targetVdfInfo.isNone || targetVdfInfo = some info) && proof.witnessType + 1 ≤ MAX_VDF_WITNESS_SIZE &&
    env.verifyVdf info.challenge inputEl (info.output.toBytes ++ proof.witness) info.numberOfIterations proof.witnessType

end

end Header

end SectorChain
