import SectorChain.Wallet.Puzzles.Clvm

/-!
# The standard puzzle

Solutions whose delegated puzzle quotes a list of conditions.
-/

namespace SectorChain

def makeCondition (opcode : ConditionOpcode) (args : List Bytes) : SExp :=
  .ofList ((opcode.value :: args).map .atom)

def makeCreateCoinCondition (puzzleHash : Bytes32) (amount : ℕ) : SExp :=
  makeCondition .CREATE_COIN [puzzleHash.toBytes, intToBytes amount]

def makeAssertAbsoluteSecondsExceedsCondition (time : ℕ) : SExp :=
  makeCondition .ASSERT_SECONDS_ABSOLUTE [intToBytes time]

def makeAssertMyCoinIdCondition (coinName : Bytes32) : SExp :=
  makeCondition .ASSERT_MY_COIN_ID [coinName.toBytes]

def makeReserveFeeCondition (fee : ℕ) : SExp := makeCondition .RESERVE_FEE [intToBytes fee]

def makeCreateCoinAnnouncement (message : Bytes) : SExp := makeCondition .CREATE_COIN_ANNOUNCEMENT [message]

/-- `Program.to(None)` is the empty atom. -/
def makeAssertCoinAnnouncement (announcementHash : Option Bytes32) : SExp :=
  makeCondition .ASSERT_COIN_ANNOUNCEMENT [(announcementHash.map SizedBytes.toBytes).getD []]

def makeCreatePuzzleAnnouncement (message : Bytes) : SExp := makeCondition .CREATE_PUZZLE_ANNOUNCEMENT [message]

def makeAssertPuzzleAnnouncement (announcementHash : Bytes32) : SExp :=
  makeCondition .ASSERT_PUZZLE_ANNOUNCEMENT [announcementHash.toBytes]

/-- `(q . conditions)`. -/
def puzzleForConditions (conditions : List SExp) : SExp := .pair (.atom [1]) (.ofList conditions)

def solutionForDelegatedPuzzle (delegatedPuzzle solution : SExp) : SExp :=
  .ofList [.atom [], delegatedPuzzle, solution]

def solutionForConditions (conditions : List SExp) : SExp :=
  solutionForDelegatedPuzzle (puzzleForConditions conditions) (.atom [])

/-- What the standard puzzle returns for a delegated puzzle that quotes conditions. -/
def quotedConditions : SExp → Option SExp
  | .pair (.atom []) (.pair (.pair (.atom [1]) conditions) _) => some conditions
  | _ => none

end SectorChain
