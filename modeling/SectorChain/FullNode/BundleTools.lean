import SectorChain.Types.Program
import SectorChain.Util.ConditionTools

/-!
# Spend bundles

Also what `rom_bootstrap_generator.clvm` makes of a list of spends.
-/

namespace SectorChain

open Lib

/-- What the code around the mempool calls. Fee rates are floats in the source; only their order matters. -/
structure MempoolEnv (Q : Type) extends Env where
  /-- `puzzle_reveal.run_with_cost(INFINITE_COST, solution)`, `none` for an `EvalError`. -/
  runPuzzle : SExp → SExp → Option SExp
  /-- `AugSchemeMPL.aggregate`. -/
  aggregate : List G2Element → G2Element
  /-- `int(fee) / int(cost)`, for a cost that is not zero. -/
  perCost : ℕ → ℕ → Q
  /-- `MEMPOOL_BLOCK_BUFFER`. -/
  mempoolBlockBuffer : ℕ

structure CoinSolution where
  coin : Coin
  puzzleReveal : SerializedProgram
  solution : SerializedProgram
deriving DecidableEq

structure SpendBundle where
  coinSolutions : List CoinSolution
  aggregatedSignature : G2Element
deriving DecidableEq

/-- `None` stands for the error code of a value without an opcode. -/
def parseSexpToCondition (sexp : SExp) : Option ConditionWithArgs :=
  match sexp.asAtomList with
  | [] => none
  | opcode :: vars => some ⟨(ConditionOpcode.ofBytes? opcode).getD .UNKNOWN, vars⟩

/-- The conditions of a list; an error code or an `EvalError` is `none`. -/
def parseSexpToConditions : SExp → Option (List ConditionWithArgs)
  | .atom bs => if bs = [] then some [] else none
  | .pair cond rest => do
    let cvp ← parseSexpToCondition cond
    let cvps ← parseSexpToConditions rest
    return cvp :: cvps

section

variable {Q : Type} (env : MempoolEnv Q)

def additionsForSolution (coinName : Bytes32) (puzzleReveal solution : SerializedProgram) :
    Except PyError (List Coin) :=
  match (env.runPuzzle puzzleReveal.program solution.program).bind parseSexpToConditions with
  | none => .ok []
  | some conditions =>
    (((conditionsByOpcode conditions).get? .CREATE_COIN).getD []).mapM (createdOutput coinName)

def CoinSolution.additions (cs : CoinSolution) : Except PyError (List Coin) :=
  additionsForSolution env (cs.coin.name env.stdHash) cs.puzzleReveal cs.solution

namespace SpendBundle

def additions (bundle : SpendBundle) : Except PyError (List Coin) :=
  List.flatten <$> bundle.coinSolutions.mapM (CoinSolution.additions env)

/-- The coins that the bundle spends, as it states them. -/
def removals (bundle : SpendBundle) : List Coin := bundle.coinSolutions.map CoinSolution.coin

def aggregateBundles (spendBundles : List SpendBundle) : SpendBundle where
  coinSolutions := spendBundles.flatMap coinSolutions
  aggregatedSignature := env.aggregate (spendBundles.map aggregatedSignature)

end SpendBundle

end

/-- `(parent puzzle amount solution)`, without the puzzle hash of the coin. -/
def CoinSolution.entry (cs : CoinSolution) : Bytes :=
  [0xff] ++ [0xff] ++ SExp.atomAsBin cs.coin.parentCoinInfo.toBytes ++ [0xff] ++ cs.puzzleReveal.buf ++
    [0xff] ++ SExp.atomAsBin (intToBytes cs.coin.amount) ++
    [0xff] ++ cs.solution.buf ++ [0x80]

def spendBundleToSerializedCoinSolutionEntryList (bundle : SpendBundle) : Bytes :=
  bundle.coinSolutions.flatMap CoinSolution.entry ++ [0x80]

def simpleSolutionGenerator (bundle : SpendBundle) : BlockGenerator where
  program := [0xff] ++ [0x01] ++ [0xff] ++ spendBundleToSerializedCoinSolutionEntryList bundle ++ [0x80]
  generatorArgs := []

section

variable {Q : Type} (env : MempoolEnv Q)

/-- The puzzle is replaced by its tree hash, and the solution by the conditions. -/
def processCoinSolution : SExp → Option SExp
  | .pair parent (.pair puzzle (.pair amount (.pair solution spendLevelExtras))) => do
    let conditions ← env.runPuzzle puzzle solution
    return .pair parent (.pair (.atom (puzzle.treeHash env.stdHash).toBytes)
      (.pair amount (.pair conditions spendLevelExtras)))
  | _ => none

/-- `recurse`: all spends of a list. -/
def processCoinSolutions : SExp → Option SExp
  | .atom bs => if bs = [] then some (.atom []) else none
  | .pair spend spends => do
    let spend ← processCoinSolution env spend
    let spends ← processCoinSolutions spends
    return .pair spend spends

end

end SectorChain
