import SectorChain.Wallet.Puzzles.Clvm

/-!
# Singletons
-/

namespace SectorChain

open Clvm

/-- The programs that `singleton_top_layer.py` loads. -/
structure SingletonMods where
  /-- `SINGLETON_MOD`. -/
  singletonMod : SExp
  /-- `SINGLETON_LAUNCHER`. -/
  singletonLauncher : SExp

section

variable (stdHash : Bytes → Bytes32)

/-- `(MOD_HASH . (LAUNCHER_ID . LAUNCHER_PUZZLE_HASH))`. -/
def singletonStruct (mods : SingletonMods) (launcherId : Bytes32) : SExp :=
  .pair (.atom (sha256tree stdHash mods.singletonMod))
    (.pair (.atom launcherId.toBytes) (.atom (sha256tree stdHash mods.singletonLauncher)))

def puzzleForSingleton (mods : SingletonMods) (launcherId : Bytes32) (innerPuz : SExp) : SExp :=
  curry mods.singletonMod [singletonStruct stdHash mods launcherId, innerPuz]

/-- The puzzle hash of a singleton with the given inner puzzle hash. -/
def calculateFullPuzzleHash (SINGLETON_STRUCT : SExp) (innerPuzzleHash : Bytes) : Option Bytes := do
  let modHash ← nthAtom? 0 SINGLETON_STRUCT
  return puzzleHashOfCurriedFunction stdHash modHash [innerPuzzleHash, sha256tree stdHash SINGLETON_STRUCT]

/-- The id of a coin whose parent is a singleton. -/
def createMyID (SINGLETON_STRUCT : SExp) (fullPuzzleHash parentParent parentInnerPuzzleHash parentAmount
    myAmount : Bytes) : Option Bytes := do
  let parentPuzzleHash ← calculateFullPuzzleHash stdHash SINGLETON_STRUCT parentInnerPuzzleHash
  return sha256 stdHash
    [sha256 stdHash [parentParent, parentPuzzleHash, parentAmount], fullPuzzleHash, myAmount]

/-- The condition with its puzzle hash wrapped; further arguments are dropped. -/
def morphCondition (condition SINGLETON_STRUCT : SExp) : Option SExp := do
  let code ← nth? 0 condition
  let puzzleHash ← calculateFullPuzzleHash stdHash SINGLETON_STRUCT (← nthAtom? 1 condition)
  let amount ← nth? 2 condition
  return .ofList [code, .atom puzzleHash, amount]

def createdCoinValueOr0 (condition : SExp) : Option SExp := do
  if ← eq (← nth? 0 condition) (opcode .CREATE_COIN) then nth? 2 condition else return .atom []

/-- The atom `-113`. -/
def ESCAPE_VALUE : Bytes := [0x8f]

/-- Is the amount odd, is it the escape value? -/
def oddConsM113 (outputAmount : SExp) : Option (Bool × Bool) := do
  let amount ← outputAmount.atom?
  return (intFromBytes amount % 2 = 1, amount = ESCAPE_VALUE)

/-- `check_and_morph_conditions_for_singleton`, with `morph_next_condition` in the second case. -/
def checkAndMorphConditionsForSingleton (SINGLETON_STRUCT : SExp) : SExp → Bool → Option SExp
  | .atom bs, hasOddOutputBeenFound =>
    -- `(f conditions)` raises on an atom that is not empty
    if bs = [] ∧ hasOddOutputBeenFound then some (.atom []) else none
  | .pair condition conditions, hasOddOutputBeenFound => do
    let (isOutputOdd, isOutputM113) ← oddConsM113 (← createdCoinValueOr0 condition)
    if isOutputOdd && hasOddOutputBeenFound then none
    let first ← if isOutputOdd then morphCondition stdHash condition SINGLETON_STRUCT else some condition
    let rest ← checkAndMorphConditionsForSingleton SINGLETON_STRUCT conditions
      (isOutputOdd || hasOddOutputBeenFound)
    return if isOutputM113 then rest else .pair first rest

def truthDataToTruthStruct (myId fullPuzhash innerpuzhash myAmount lineageProof singletonStruct : SExp) : SExp :=
  .pair (.pair myId fullPuzhash) (.pair (.pair innerpuzhash myAmount) (.pair lineageProof singletonStruct))

variable (runPuzzle : SExp → SExp → Option SExp)

variable (SINGLETON_STRUCT lineageProof : SExp)

def stagerThree (myId fullPuzhash innerpuzhash myAmount : Bytes)
    (INNER_PUZZLE innerSolution : SExp) : Option SExp := do
  let conditions ← runPuzzle INNER_PUZZLE (.pair (truthDataToTruthStruct (.atom myId) (.atom fullPuzhash)
    (.atom innerpuzhash) (.atom myAmount) lineageProof SINGLETON_STRUCT) innerSolution)
  let morphed ← checkAndMorphConditionsForSingleton stdHash SINGLETON_STRUCT conditions false
  return .pair (.ofList [opcode .ASSERT_MY_COIN_ID, .atom myId]) morphed

/-- The id of the coin, according to one of the two kinds of lineage proofs. -/
def myIdOfLineage (fullPuzhash myAmount : Bytes) : Option Bytes := do
  -- `is_not_eve_proof`
  if truthy (← (← lineageProof.rest?).rest?) then
    createMyID stdHash SINGLETON_STRUCT fullPuzhash (← nthAtom? 0 lineageProof) (← nthAtom? 1 lineageProof)
      (← nthAtom? 2 lineageProof) myAmount
  else do
    let launcherId ← nthAtom? 1 SINGLETON_STRUCT
    let launcherPuzzleHash ← (← (← SINGLETON_STRUCT.rest?).rest?).atom?
    if launcherId = sha256 stdHash
        [← nthAtom? 0 lineageProof, launcherPuzzleHash, ← nthAtom? 1 lineageProof] then
      return sha256 stdHash [launcherId, fullPuzhash, myAmount]
    else none

def stagerTwo (fullPuzhash innerpuzhash myAmount : Bytes) (INNER_PUZZLE innerSolution : SExp) : Option SExp := do
  let myId ← myIdOfLineage stdHash SINGLETON_STRUCT lineageProof fullPuzhash myAmount
  stagerThree stdHash runPuzzle SINGLETON_STRUCT lineageProof myId fullPuzhash innerpuzhash myAmount
    INNER_PUZZLE innerSolution

def stagerOne (myInnerpuzhash myAmount : Bytes) (INNER_PUZZLE innerSolution : SExp) : Option SExp := do
  let fullPuzhash ← calculateFullPuzzleHash stdHash SINGLETON_STRUCT myInnerpuzhash
  stagerTwo stdHash runPuzzle SINGLETON_STRUCT lineageProof fullPuzhash myInnerpuzhash myAmount
    INNER_PUZZLE innerSolution

/-- The main program, on the solution `(lineage_proof my_amount inner_solution)`. -/
def singletonTopLayer (SINGLETON_STRUCT INNER_PUZZLE solution : SExp) : Option SExp := do
  let lineageProof ← nth? 0 solution
  let myAmount ← nthAtom? 1 solution
  let innerSolution ← nth? 2 solution
  if intFromBytes myAmount % 2 = 1 then
    stagerOne stdHash runPuzzle SINGLETON_STRUCT lineageProof (sha256tree stdHash INNER_PUZZLE) myAmount
      INNER_PUZZLE innerSolution
  else none

/-- The main program, on the solution `(singleton_full_puzzle_hash amount key_value_list)`. -/
def singletonLauncher (solution : SExp) : Option SExp := do
  let singletonFullPuzzleHash ← nth? 0 solution
  let amount ← nth? 1 solution
  let keyValueList ← nth? 2 solution
  return .ofList [
    .ofList [opcode .CREATE_COIN, singletonFullPuzzleHash, amount],
    .ofList [opcode .CREATE_COIN_ANNOUNCEMENT,
      .atom (sha256tree stdHash (.ofList [singletonFullPuzzleHash, amount, keyValueList]))]]

end

end SectorChain
