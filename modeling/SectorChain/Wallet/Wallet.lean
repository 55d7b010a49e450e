import SectorChain.Wallet.WalletStateManager
import SectorChain.Wallet.Puzzles.Standard
import SectorChain.Lib.Iteration

/-!
# The standard wallet

Selection of coins, and the transactions built from them.
-/

namespace SectorChain

open Lib WalletStateManager

/-- What the standard wallet computes with its keys, and the order in which it meets the elements of sets. -/
structure StandardWalletEnv extends WalletEnv where
  /-- `calculate_synthetic_public_key` for the default hidden puzzle. -/
  syntheticPublicKey : Bytes → Bytes
  /-- `p2_delegated_puzzle_or_hidden_puzzle.clvm`. -/
  standardMod : SExp
  /-- The signature of `sign_coin_solutions`, which runs the puzzles to find out what to sign. -/
  aggsig : List CoinSolution → Except PyError G2Element
  /-- The cost of a transaction that spends a coin to its own puzzle hash. -/
  costOfTransaction : Coin → Except PyError ℕ
  /-- `MAX_BLOCK_COST_CLVM`. -/
  maxBlockCostClvm : ℕ
  coinOrder : Iteration Coin
  recordOrder : Iteration WalletCoinRecord

/-- An output that a transaction is asked for. -/
structure Primary where
  puzzlehash : Bytes32
  amount : ℕ
deriving DecidableEq

structure Announcement where
  originInfo : Bytes32
  message : Bytes
deriving DecidableEq

def Announcement.name (stdHash : Bytes → Bytes32) (a : Announcement) : Bytes32 :=
  stdHash (a.originInfo.toBytes ++ a.message)

/-- The arguments of `make_solution`. Sets are given in the order of their iteration. -/
structure SolutionArgs where
  primaries : List Primary := []
  minTime : ℕ := 0
  me : Option Bytes32 := none
  coinAnnouncements : List Bytes := []
  coinAnnouncementsToAssert : List (Option Bytes32) := []
  puzzleAnnouncements : List Bytes := []
  puzzleAnnouncementsToAssert : List Bytes32 := []
  fee : ℕ := 0

/-- The arguments of `_generate_unsigned_transaction`. -/
structure TransactionArgs where
  amount : ℕ
  newpuzzlehash : Bytes32
  fee : ℕ
  originId : Option Bytes32
  coins : Option (Finset Coin)
  primariesInput : Option (List Primary)
  ignoreMaxSendAmount : Bool
  /-- Names, which callers pass where the annotation has announcements. -/
  announcementsToConsume : List Bytes32

namespace Wallet

variable (env : StandardWalletEnv) (walletId : ℕ)

variable (coin : Coin) (s : WalletStateManager)

def getKeys (puzzleHash : Bytes32) : Except PyError Bytes :=
  match s.puzzleStore.indexForPuzzleHash puzzleHash with
  | none => .error .valueError
  | some indexForPuzzlehash => .ok (env.getPublicKey indexForPuzzlehash)

def puzzleForPk (pubkey : Bytes) : SExp := Clvm.curry env.standardMod [.atom (env.syntheticPublicKey pubkey)]

def puzzleForPuzzleHash (puzzleHash : Bytes32) : WalletM SExp := do
  let publicKey ← getKeys env (← get) puzzleHash
  return puzzleForPk env publicKey

def getNewPuzzlehash : WalletM Bytes32 := do
  let record ← getUnusedDerivationRecord env.toWalletEnv walletId
  return record.puzzleHash

def hackPopulateSecretKeysForCoinSolutions (coinSolutions : List CoinSolution) : WalletM Unit :=
  coinSolutions.forM fun coinSolution => do
    let _ ← getKeys env (← get) coinSolution.coin.puzzleHash

/-- `CoinSolution(coin, SerializedProgram.from_bytes(bytes(puzzle)), …)`. -/
def coinSolution (puzzle solution : SExp) : Except PyError CoinSolution := do
  let puzzleReveal ← SerializedProgram.ofProgram puzzle
  let solution ← SerializedProgram.ofProgram solution
  return ⟨coin, puzzleReveal, solution⟩

def conditionList (args : SolutionArgs) : List SExp :=
  args.primaries.map (fun primary => makeCreateCoinCondition primary.puzzlehash primary.amount) ++
    (if args.minTime > 0 then [makeAssertAbsoluteSecondsExceedsCondition args.minTime] else []) ++
    (args.me.map makeAssertMyCoinIdCondition).toList ++
    (if args.fee ≠ 0 then [makeReserveFeeCondition args.fee] else []) ++
    args.coinAnnouncements.map makeCreateCoinAnnouncement ++
    args.coinAnnouncementsToAssert.map makeAssertCoinAnnouncement ++
    args.puzzleAnnouncements.map makeCreatePuzzleAnnouncement ++
    args.puzzleAnnouncementsToAssert.map makeAssertPuzzleAnnouncement

def makeSolution (args : SolutionArgs) : SExp := solutionForConditions (conditionList args)

/-- `uint128(value)`. -/
def toUint128 (value : ℕ) : Except PyError ℕ := if value < 2 ^ 128 then .ok value else .error .valueError

/-- The total of the spendable coins, as a `uint128` after each addition. -/
def getSpendableBalance : Except PyError ℕ :=
  (env.recordOrder.list (getSpendableCoinsForWallet env.toWalletEnv s walletId)).foldlM
    (fun spendableAmount record => toUint128 (spendableAmount + record.coin.amount)) 0

/-- `unspent.sort(reverse=True, key=lambda r: r.coin.amount)`: stable and descending. -/
def sortByAmount (records : List WalletCoinRecord) : List WalletCoinRecord :=
  records.insertionSort fun a b => b.coin.amount ≤ a.coin.amount

def useCoins (amount : ℤ) (unconfirmedRemovals : List Bytes32) (exclude : List Coin) :
    List WalletCoinRecord → ℕ → Finset Coin → ℕ × Finset Coin
  | [], sumValue, usedCoins => (sumValue, usedCoins)
  | coinrecord :: unspent, sumValue, usedCoins =>
    if sumValue ≥ amount ∧ usedCoins.card > 0 then (sumValue, usedCoins)
    else if coinrecord.name env.stdHash ∈ unconfirmedRemovals then
      useCoins amount unconfirmedRemovals exclude unspent sumValue usedCoins
    else if coinrecord.coin ∈ exclude then
      useCoins amount unconfirmedRemovals exclude unspent sumValue usedCoins
    else
      useCoins amount unconfirmedRemovals exclude unspent (sumValue + coinrecord.coin.amount)
        (insert coinrecord.coin usedCoins)

def selectCoins (amount : ℤ) (exclude : List Coin) : Except PyError (Finset Coin) := do
  let spendableAmount ← getSpendableBalance env walletId s
  if amount > spendableAmount then throw .valueError
  let unspent := sortByAmount (env.recordOrder.list (getSpendableCoinsForWallet env.toWalletEnv s walletId))
  let unconfirmedRemovals := unconfirmedRemovalsForWallet env.toWalletEnv s walletId
  let (sumValue, usedCoins) := useCoins env amount unconfirmedRemovals exclude unspent 0 ∅
  if sumValue < amount then throw .valueError
  return usedCoins

/-- The loop of `get_max_send_amount`, where `max_cost` is a fifth of the cost of a block. -/
def sendAmount (costOfSingleTx : ℕ) : List WalletCoinRecord → ℕ → ℕ → ℕ
  | [], _, totalAmount => totalAmount
  | record :: spendable, currentCost, totalAmount =>
    let currentCost := currentCost + costOfSingleTx
    let totalAmount := totalAmount + record.coin.amount
    if 5 * (currentCost + costOfSingleTx) > env.maxBlockCostClvm then totalAmount
    else sendAmount costOfSingleTx spendable currentCost totalAmount

/-- The cost of a transaction is computed once, for the largest coin. -/
def getCostOfSingleTx : WalletM ℕ := do
  match (← get).costOfSingleTx with
  | some costOfSingleTx => return costOfSingleTx
  | none =>
    let costResult ← env.costOfTransaction coin
    modify fun s => { s with costOfSingleTx := some costResult }
    return costResult

def getMaxSendAmount : WalletM ℕ := do
  let s ← get
  match sortByAmount (env.recordOrder.list (getSpendableCoinsForWallet env.toWalletEnv s walletId)) with
  | [] => return 0
  | record :: spendable =>
    let costOfSingleTx ← getCostOfSingleTx env record.coin
    return sendAmount env costOfSingleTx (record :: spendable) 0 0

/-- `Coin(parent, primary["puzzlehash"], primary["amount"])`. -/
def outputCoin (parent : Bytes32) (primary : Primary) : Except PyError Coin :=
  if h : primary.amount < 2 ^ 64 then .ok ⟨parent, primary.puzzlehash, primary.amount, h⟩ else .error .valueError

/-- The coins that a coin of this name creates. -/
def outputCoins (parent : Bytes32) (primaries : List Primary) : Except PyError (List Coin) :=
  primaries.mapM (outputCoin parent)

variable (args : TransactionArgs)

def requestedPrimaries : List Primary :=
  args.primariesInput.getD [] ++ [⟨args.newpuzzlehash, args.amount⟩]

def allPrimaries (change : ℕ) : WalletM (List Primary) := do
  if change > 0 then
    let changePuzzleHash ← getNewPuzzlehash env walletId
    return requestedPrimaries args ++ [⟨changePuzzleHash, change⟩]
  else return requestedPrimaries args

/-- The solution of the coin that creates the outputs, and the announcement about all inputs and outputs. -/
def originSolution (coins : List Coin) (change : ℕ) (coin : Coin) : WalletM (SExp × Announcement) := do
  let primaries ← allPrimaries env walletId args change
  let outputs ← outputCoins (coin.name env.stdHash) primaries
  let message := env.stdHash ((coins ++ outputs).flatMap fun c => (c.name env.stdHash).toBytes)
  let solution := makeSolution
    { primaries := primaries
      fee := args.fee
      coinAnnouncements := [message.toBytes]
      coinAnnouncementsToAssert := args.announcementsToConsume.map some }
  return (solution, ⟨coin.name env.stdHash, message.toBytes⟩)

/-- The loop over the coins. Only one coin creates outputs, the others assert its announcement. -/
def generateSpends (args : TransactionArgs) (coins : List Coin) (change : ℕ) :
    List Coin → Option Bytes32 → WalletM (List CoinSolution)
  | [], _ => return []
  | coin :: rest, primaryAnnouncementHash => do
    let puzzle ← puzzleForPuzzleHash env coin.puzzleHash
    if primaryAnnouncementHash = none ∧ (args.originId = none ∨ args.originId = some (coin.name env.stdHash)) then
      let (solution, announcement) ← originSolution env walletId args coins change coin
      let spend ← coinSolution coin puzzle solution
      let spends ← generateSpends args coins change rest (some (announcement.name env.stdHash))
      return spend :: spends
    else
      let solution := makeSolution { coinAnnouncementsToAssert := [primaryAnnouncementHash] }
      let spend ← coinSolution coin puzzle solution
      let spends ← generateSpends args coins change rest primaryAnnouncementHash
      return spend :: spends

def primariesAmount : ℕ := ((args.primariesInput.getD []).map Primary.amount).sum

def totalAmount : ℕ := args.amount + args.fee + primariesAmount args

def checkMaxSendAmount : WalletM Unit := do
  if args.ignoreMaxSendAmount = false then
    let maxSend ← getMaxSendAmount env walletId
    if totalAmount args > maxSend then throw .valueError

/-- `coins`, or a selection if there are none. -/
def coinsToSpend : WalletM (Finset Coin) := do
  match args.coins with
  | some coins => return coins
  | none => selectCoins env walletId (← get) (totalAmount args) []

def generateUnsignedTransaction : WalletM (List CoinSolution) := do
  checkMaxSendAmount env walletId args
  let coins ← coinsToSpend env walletId args
  let coins := env.coinOrder.list coins
  pyAssert (coins.length > 0)
  let spendValue := (coins.map Coin.amount).sum
  pyAssert (totalAmount args ≤ spendValue)
  if args.primariesInput ≠ none ∧ ¬ (requestedPrimaries args).Nodup then throw .valueError
  generateSpends env walletId args coins (spendValue - totalAmount args) coins none

def relativeSpends (amount : ℕ) : List Coin → Option SExp → WalletM (List CoinSolution)
  | [], _ => return []
  | coin :: rest, solution => do
    let puzzle ← puzzleForPuzzleHash env coin.puzzleHash
    match solution with
    | some solution =>
      let spend ← coinSolution coin puzzle solution
      let spends ← relativeSpends amount rest (some solution)
      return spend :: spends
    | none =>
      let newpuzhash ← getNewPuzzlehash env walletId
      let solution := makeSolution { primaries := [⟨newpuzhash, amount⟩] }
      let spend ← coinSolution coin puzzle solution
      let spends ← relativeSpends amount rest (some solution)
      return spend :: spends

/-- The output is not negative, since the selected coins are worth what is to be lost. -/
def createSpendBundleRelativeSector (sectorAmount : ℤ) (exclude : List Coin) : WalletM SpendBundle := do
  let utxos ← selectCoins env walletId (← get) (if sectorAmount < 0 then |sectorAmount| else 0) exclude
  let coins := env.coinOrder.list utxos
  pyAssert (coins.length > 0)
  let spendValue := (coins.map Coin.amount).sum
  let listOfSolutions ← relativeSpends env walletId (spendValue + sectorAmount).toNat coins none
  hackPopulateSecretKeysForCoinSolutions env listOfSolutions
  let aggsig ← env.aggsig listOfSolutions
  return ⟨listOfSolutions, aggsig⟩

end Wallet

end SectorChain
