import SectorChain.FullNode.BundleTools
import SectorChain.Wallet.Puzzles.Evaluation

/-!
# Compressed generators

They take the start of their puzzles from an earlier generator.
-/

namespace SectorChain

open Lib

/-- `block_program_zero.clvm`. -/
def DECOMPRESS_BLOCK : SExp := Clvm.loadClvm
  ([0xff02ffff01ff04ffff02ff02ffff04ff02ffff04ff05ffff04ff0bffff04ff5fffff,
    0x04ff81bfffff04ffff0cff82027fff17ff2f80ff8080808080808080ff8080ffff04,
    0xffff01ff02ffff03ff17ffff01ff04ffff02ff0bffff04ff2fffff04ff05ffff04ff,
    0x5fffff04ff27ff808080808080ffff02ff02ffff04ff02ffff04ff05ffff04ff0bff,
    0xff04ff37ffff04ff2fffff04ff5fff808080808080808080ff8080ff0180ff018080].flatMap (beBytes 34))

/-- `decompress_puzzle.clvm`. -/
def DECOMPRESS_PUZZLE : SExp := Clvm.loadClvm
  (beBytes 21 0xff02ff02ffff04ffff0eff05ff0bff1780ff808080)

/-- `decompress_coin_solution_entry_with_prefix.clvm`. -/
def DECOMPRESS_CSE_WITH_PREFIX : SExp := Clvm.loadClvm
  (beBytes 54 0xff04ff47ffff04ffff02ff05ffff04ff02ffff04ff0bffff04ff8197ffff01ff84ff0180808080808080ffff04ff81a7ff81d7808080)

/-- The standard puzzle up to its public key, as bytes. -/
def STANDARD_TRANSACTION_PUZZLE_PREFIX : Bytes :=
  ([0xff02ffff01ff02ffff01ff02ffff03ff0bffff01ff02ffff03ffff09ff05ffff1dff,
    0x0bffff1effff0bff0bffff02ff06ffff04ff02ffff04ff17ff8080808080808080ff,
    0xff01ff02ff17ff2f80ffff01ff088080ff0180ffff01ff04ffff04ff04ffff04ff05,
    0xffff04ffff02ff06ffff04ff02ffff04ff17ff80808080ff80808080ffff02ff17ff,
    0x2f808080ff0180ffff04ffff01ff32ff02ffff03ffff07ff0580ffff01ff0bffff01,
    0x02ffff02ff06ffff04ff02ffff04ff09ff80808080ffff02ff06ffff04ff02ffff04,
    0xff0dff8080808080ffff01ff0bffff0101ff058080ff0180ff018080ffff04ffff01].flatMap (beBytes 34))

def STANDARD_TRANSACTION_PUZZLE_SUFFIX : Bytes := [0xff, 0x01, 0x80, 0x80]

def isHexDigit (c : Char) : Bool := ('a' ≤ c ∧ c ≤ 'f') ∨ ('0' ≤ c ∧ c ≤ '9')

/-- The length of the group `(b0[a-f0-9]{96})`. -/
abbrev PUBKEY_DIGITS : ℕ := 98

/-- The length of a match, which is the same for all texts. -/
def patternLength : ℕ :=
  (hex STANDARD_TRANSACTION_PUZZLE_PREFIX).length + PUBKEY_DIGITS + (hex STANDARD_TRANSACTION_PUZZLE_SUFFIX).length

variable (bundle : SpendBundle) (text : List Char) (puzzle : SerializedProgram)

def pubkeyGroup : List Char :=
  (text.drop (hex STANDARD_TRANSACTION_PUZZLE_PREFIX).length).take PUBKEY_DIGITS

/-- `STANDARD_TRANSACTION_PUZZLE_PATTERN` matches at the start of a text. -/
def matchesPattern : Bool :=
  (hex STANDARD_TRANSACTION_PUZZLE_PREFIX).isPrefixOf text &&
    ((pubkeyGroup text).length = PUBKEY_DIGITS && (pubkeyGroup text).take 2 = ['b', '0'] &&
      ((pubkeyGroup text).drop 2).all isHexDigit) &&
    (hex STANDARD_TRANSACTION_PUZZLE_SUFFIX).isPrefixOf
      (text.drop ((hex STANDARD_TRANSACTION_PUZZLE_PREFIX).length + PUBKEY_DIGITS))

/-- `search`: the start of the leftmost match. -/
def searchPattern : Option ℕ :=
  (List.range (text.length + 1)).find? fun i => matchesPattern (text.drop i)

/-- The start and the end of the puzzle up to the public key, in bytes. -/
def matchStandardTransactionAtAnyIndex (generatorBody : Bytes) : Except PyError (Option (ℕ × ℕ)) :=
  match searchPattern (hex generatorBody) with
  | none => .ok none
  | some mStart => do
    let mEnd := mStart + patternLength
    pyAssert (mStart % 2 = 0 ∧ mEnd % 2 = 0)
    let start := mStart / 2
    let stop := (mEnd - PUBKEY_DIGITS - (hex STANDARD_TRANSACTION_PUZZLE_SUFFIX).length) / 2
    pyAssert ((generatorBody.drop start).take (stop - start) = STANDARD_TRANSACTION_PUZZLE_PREFIX)
    return some (start, stop)

def hexValue (c : Char) : ℕ := if c.toNat < 58 then c.toNat - 48 else c.toNat - 87

def fromHex : List Char → Bytes
  | high :: low :: digits => UInt8.ofNat (16 * hexValue high + hexValue low) :: fromHex digits
  | _ => []

/-- `fullmatch`, and the bytes of the group. -/
def matchStandardTransactionExactlyAndReturnPubkey : Option Bytes :=
  let text := hex puzzle.buf
  if matchesPattern text ∧ text.length = patternLength then some (fromHex (pubkeyGroup text)) else none

structure CompressorArg where
  blockHeight : ℕ
  generator : SerializedProgram
  start : ℕ
  stop : ℕ
deriving DecidableEq

/-- A match at the start of the program is no template, since `start` is false then. -/
def detectPotentialTemplateGenerator (blockHeight : ℕ) (program : SerializedProgram) :
    Except PyError (Option CompressorArg) := do
  match ← matchStandardTransactionAtAnyIndex program.buf with
  | none => return none
  | some (start, stop) =>
    return if start ≠ 0 ∧ stop ≠ 0 ∧ stop > start then some ⟨blockHeight, program, start, stop⟩ else none

def compressCsePuzzle : Option Bytes :=
  matchStandardTransactionExactlyAndReturnPubkey puzzle

/-- `((parent amount) (pubkey solution))`, where a missing key is the empty atom. -/
def compressCoinSolution (coinSolution : CoinSolution) : SExp :=
  let compressedPuzzle := compressCsePuzzle coinSolution.puzzleReveal
  .ofList [.ofList [.atom coinSolution.coin.parentCoinInfo.toBytes, .atom (intToBytes coinSolution.coin.amount)],
    .ofList [.atom (compressedPuzzle.getD []), coinSolution.solution.program]]

def puzzleSuitableForCompression : Bool :=
  (matchStandardTransactionExactlyAndReturnPubkey puzzle).isSome

def bundleSuitableForCompression : Bool :=
  bundle.coinSolutions.all fun coinSolution => puzzleSuitableForCompression coinSolution.puzzleReveal

def compressedCoinSolutionEntryList : SExp :=
  .ofList (bundle.coinSolutions.map compressCoinSolution)

def compressedProgram (originalGenerator : CompressorArg) (compressedCseList : SExp) : SExp :=
  Clvm.curry DECOMPRESS_BLOCK [DECOMPRESS_PUZZLE, DECOMPRESS_CSE_WITH_PREFIX,
    .atom (intToBytes originalGenerator.start), .atom (intToBytes originalGenerator.stop), compressedCseList]

def createCompressedGenerator (originalGenerator : CompressorArg) (compressedCseList : SExp) : BlockGenerator where
  program := (compressedProgram originalGenerator compressedCseList).asBin
  generatorArgs := [⟨originalGenerator.blockHeight, originalGenerator.generator.buf⟩]

def compressedSpendBundleSolution (originalGeneratorParams : CompressorArg) (bundle : SpendBundle) : BlockGenerator :=
  createCompressedGenerator originalGeneratorParams (compressedCoinSolutionEntryList bundle)

/-- What the generator ROM (`rom_bootstrap_generator.clvm`) gets for the list of spends. -/
def generatorEntries (depth : ℕ) (generator : BlockGenerator) : Option SExp := do
  let program ← SExp.fromBytes generator.program
  let result ← Clvm.eval depth program
    (.ofList [Clvm.LOCAL_DESERIALIZE_MOD, .ofList (generator.generatorRefs.map .atom)])
  result.first?

end SectorChain
