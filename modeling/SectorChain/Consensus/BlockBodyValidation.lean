import SectorChain.Consensus.BlockHeaderValidation
import SectorChain.Consensus.BlockRewards
import SectorChain.Consensus.BlockRootValidation
import SectorChain.Consensus.FindForkPoint
import SectorChain.FullNode.BlockStore
import SectorChain.FullNode.CoinStore
import SectorChain.FullNode.MempoolCheckConditions

/-!
# Body validation

`validate_block_body`, cut into its groups of checks.
-/

namespace SectorChain

open Lib

/-- Validation steps that read the stores. -/
abbrev BodyM (α : Type) := Exec Exit Node α

/-- A call of the stores or of the chain, which may raise. -/
def raising {α : Type} (m : NodeM α) : BodyM α := ExceptT.adapt .raised m

def settle {α : Type} (m : BodyM (Option α)) : NodeM (Option Err × Option α) := .mk fun s =>
  match exec m s with
  | (.ok a, s') => (.ok (none, a), s')
  | (.error (.rejected error), s') => (.ok (some error, none), s')
  | (.error (.raised error), s') => (.error error, s')

section

variable (env : Env)

/-- Check 1: a block that is no transaction block has no body. -/
def checkNoTransactions (blocks : BlockchainInterface) (block : FullBlock) : Except Exit Unit := do
  require (block.foliageTransactionBlock.isNone && block.transactionsInfo.isNone &&
    block.transactionsGenerator.isNone) .NOT_BLOCK_BUT_HAS_DATA
  let prev ← orRaise (blocks.blockRecord block.prevHeaderHash)
  let prevTb ← orRaise (blocks.lastTransactionBlock (prev.height + 1) prev)
  let timestamp ← orRaise (assertSome prevTb.timestamp)
  require (!(timestamp > env.constants.initialFreezeEndTimestamp &&
    block.transactionsGeneratorRefList.length > 0)) .NOT_BLOCK_BUT_HAS_DATA

def rewardCoinsSince (blocks : BlockchainInterface) : ℕ → BlockRecord → Except PyError (List Coin)
  | 0, _ => .error .doesNotReturn
  | fuel + 1, currB =>
    if currB.isTransactionBlock then .ok []
    else do
      let poolCoin ← createPoolCoin currB.height currB.poolPuzzleHash
        (calculatePoolReward currB.height) env.constants.genesisChallenge
      let farmerCoin ← createFarmerCoin currB.height currB.farmerPuzzleHash
        (calculateBaseFarmerReward currB.height) env.constants.genesisChallenge
      let prevB ← blocks.blockRecord currB.prevHash
      let older ← rewardCoinsSince blocks fuel prevB
      return poolCoin :: farmerCoin :: older

/-- The reward coins that a transaction block has to claim, and the height of the previous one. -/
def expectedRewardCoins (blocks : BlockchainInterface) (height : ℕ)
    (foliageTransactionBlock : FoliageTransactionBlock) : Except PyError (List Coin × ℕ) :=
  if height = 0 then .ok ([], 0)
  else do
    let prevTransactionBlock ←
      blocks.blockRecord foliageTransactionBlock.prevTransactionBlockHash
    let fees ← assertSome prevTransactionBlock.fees
    let poolCoin ← createPoolCoin prevTransactionBlock.height prevTransactionBlock.poolPuzzleHash
      (calculatePoolReward prevTransactionBlock.height) env.constants.genesisChallenge
    let farmerCoin ← createFarmerCoin prevTransactionBlock.height
      prevTransactionBlock.farmerPuzzleHash
      (calculateBaseFarmerReward prevTransactionBlock.height + fees) env.constants.genesisChallenge
    -- for the second block in the chain, don't go back further
    let older ← if prevTransactionBlock.height > 0 then do
        let currB ← blocks.blockRecord prevTransactionBlock.prevHash
        rewardCoinsSince env blocks (currB.height + 1) currB
      else .ok []
    return ((poolCoin :: farmerCoin :: older).dedup, prevTransactionBlock.height)

def sameSet (a b : List Coin) : Bool := a.all (· ∈ b) && b.all (· ∈ a)

variable (forkH : ℤ) (since : SinceFork) (getBlockGenerator : FullBlock → NodeM (Option BlockGenerator))
  (peak : Option BlockRecord) (block : FullBlock) (height : ℕ) (foliageTransactionBlock : FoliageTransactionBlock)
  (info : TransactionsInfo) (npcList : List NPC)

/-- Check 5: the reward claims are the expected ones, without duplicates after the freeze. -/
def checkRewardClaims (claims expected : List Coin) : Except Exit Unit := do
  require (sameSet claims expected) .INVALID_REWARD_COINS
  require (!(foliageTransactionBlock.timestamp > env.constants.initialFreezeEndTimestamp &&
    claims.length ≠ expected.length)) .INVALID_REWARD_COINS

/-- Check 7a: the generator root. -/
def checkGeneratorRoot : Except Exit Unit :=
  match block.transactionsGenerator with
  | some generator =>
    require (env.stdHash generator = info.generatorRoot) .INVALID_TRANSACTIONS_GENERATOR_HASH
  | none =>
    require (info.generatorRoot.toBytes = List.replicate 32 0) .INVALID_TRANSACTIONS_GENERATOR_HASH

/-- Checks 8a to 8c: the generator references. -/
def checkGeneratorRefs : Except Exit Unit :=
  if block.transactionsGeneratorRefList = [] then
    require (info.generatorRefsRoot.toBytes = List.replicate 32 1)
      .INVALID_TRANSACTIONS_GENERATOR_REFS_ROOT
  else do
    require block.transactionsGenerator.isSome .INVALID_TRANSACTIONS_GENERATOR_REFS_ROOT
    require (info.generatorRefsRoot = env.stdHash (block.transactionsGeneratorRefList.flatMap (beBytes 4)))
      .INVALID_TRANSACTIONS_GENERATOR_REFS_ROOT
    require (block.transactionsGeneratorRefList.length ≤ env.constants.maxGeneratorRefListSize)
      .TOO_MANY_GENERATOR_REFS
    require (block.transactionsGeneratorRefList.all (· < height)) .FUTURE_GENERATOR_REFS

/-- Checks 6, 7a and 8a to 8c: freeze, generator root and generator references. -/
def checkGenerator : Except Exit Unit := do
  require (!(foliageTransactionBlock.timestamp ≤ env.constants.initialFreezeEndTimestamp &&
    block.transactionsGenerator.isSome)) .INITIAL_TRANSACTION_FREEZE
  checkGeneratorRoot env block info
  checkGeneratorRefs env block height info

/-- Checks 7 and 8: the spends of the generator and its cost. -/
def checkNpcResult (npcResult : Option NPCResult) : Except Exit (List NPC × ℕ) := do
  match block.transactionsGenerator with
  | some generator =>
    let npcResult ← orRaise (assertSome npcResult)
    let cost := calculateCostOfProgram env generator npcResult
    require (cost ≤ env.constants.maxBlockCostClvm) .BLOCK_COST_EXCEEDS_MAX
    rejectSome npcResult.error
    return (npcResult.npcList, cost)
  | none =>
    orRaise (pyAssert npcResult.isNone)
    return ([], 0)

def coinsByName (coins : List Coin) : Dict Bytes32 Coin :=
  coins.foldl (fun d coin => d.set (coin.name env.stdHash) coin) .empty

/-- Checks 10 to 14 on all coins that the block creates and removes. -/
def checkAdditionsAndRemovals (additions : List Coin) (removals : List Bytes32) : Except Exit Unit := do
  require (additions.all fun coin => coin.amount ≤ env.constants.maxCoinAmount)
    .COIN_AMOUNT_EXCEEDS_MAXIMUM
  rejectSome (← orRaise (validateBlockMerkleRoots env.stdHash foliageTransactionBlock.additionsRoot
    foliageTransactionBlock.removalsRoot additions removals))
  require (env.stdHash (encodedFilter env additions removals) = foliageTransactionBlock.filterHash)
    .INVALID_TRANSACTIONS_FILTER_HASH
  require (additions.map (Coin.name env.stdHash)).Nodup .DUPLICATE_OUTPUT
  require removals.Nodup .DOUBLE_SPEND

def forkHeight (blocks : BlockchainInterface) (peak : Option BlockRecord) (block : FullBlock)
    (height : ℕ) (forkPointWithPeak : Option ℕ) : Except PyError ℤ :=
  match peak with
  | none => .ok (-1)
  | some peak =>
    if height = 0 then .ok (-1)
    else match forkPointWithPeak with
      | some fork => .ok fork
      | none => do
        let prev ← blocks.blockRecord block.prevHeaderHash
        findForkPointInChain blocks peak prev

/-- The ancestors of `curr` down to the fork, by height. -/
def reorgBlocksFrom (forkH : ℤ) : ℕ → FullBlock → Dict ℕ FullBlock → NodeM (Dict ℕ FullBlock)
  | 0, _, _ => throw .doesNotReturn
  | fuel + 1, curr, reorgBlocks =>
    if curr.height > forkH ∧ curr.height ≠ 0 then do
      let prev ← getFullBlock curr.prevHeaderHash
      let prev ← assertSome prev
      reorgBlocksFrom forkH fuel prev (reorgBlocks.set prev.height prev)
    else return reorgBlocks

/-- Coins created and removed on a fork; a created coin with its height and timestamp. -/
structure SinceFork where
  additions : Dict Bytes32 (Coin × ℕ × ℕ)
  removals : List Bytes32

def SinceFork.add (curr : FullBlock) (since : SinceFork) (coin : Coin) : Except PyError SinceFork := do
  pyAssert !since.additions.contains (coin.name env.stdHash)
  let foliageTransactionBlock ← assertSome curr.foliageTransactionBlock
  let addition := (coin, curr.height, foliageTransactionBlock.timestamp)
  return { since with additions := since.additions.set (coin.name env.stdHash) addition }

def SinceFork.remove (coinName : Bytes32) : Except PyError SinceFork := do
  pyAssert (coinName ∉ since.removals)
  return { since with removals := coinName :: since.removals }

/-- Adds removals, additions and reward coins of a block of the fork. -/
def SinceFork.addBlock (curr : FullBlock) (removals : List Bytes32) (additions : List Coin)
    (since : SinceFork) : Except PyError SinceFork := do
  let since ← removals.foldlM SinceFork.remove since
  let since ← additions.foldlM (SinceFork.add env curr) since
  let rewardCoins ← curr.getIncludedRewardCoins
  rewardCoins.foldlM (SinceFork.add env curr) since

def removalsAndAdditionsOf (curr : FullBlock) : NodeM (List Bytes32 × List Coin) := do
  match curr.transactionsGenerator with
  | none => return ([], [])
  | some _ =>
    let generator ← getBlockGenerator curr
    let generator ← assertSome generator
    let info ← assertSome curr.transactionsInfo
    let npcResult := getNamePuzzleConditions env generator
      (min env.constants.maxBlockCostClvm info.cost) false
    txRemovalsAndAdditions npcResult.npcList

def sinceForkFrom (getBlockGenerator : FullBlock → NodeM (Option BlockGenerator)) (forkH : ℤ)
    (reorgBlocks : Dict ℕ FullBlock) : ℕ → FullBlock → SinceFork → NodeM SinceFork
  | 0, _, _ => throw .doesNotReturn
  | fuel + 1, curr, since =>
    if curr.height > forkH then do
      let (removals, additions) ← removalsAndAdditionsOf env getBlockGenerator curr
      let since ← since.addBlock env curr removals additions
      if curr.height = 0 then return since
      match reorgBlocks.get? (curr.height - 1) with
      | none => throw .keyError
      | some prev => sinceForkFrom getBlockGenerator forkH reorgBlocks fuel prev since
    else return since

/-- What the ancestors of a block above the fork height create and remove. -/
def sinceFork (forkH : ℤ) : NodeM SinceFork := do
  if height = 0 then return ⟨.empty, []⟩
  let prevBlock ← getFullBlock block.prevHeaderHash
  let prevBlock ← assertSome prevBlock
  let reorgBlocks ← reorgBlocksFrom forkH (prevBlock.height + 1) prevBlock .empty
  if forkH ≠ -1 then pyAssert ((reorgBlocks.entries.length : ℤ) = height - forkH - 1)
  sinceForkFrom env getBlockGenerator forkH reorgBlocks (prevBlock.height + 1) prevBlock ⟨.empty, []⟩

/-- The record of a coin that only the fork has. -/
def forkCoinRecord (rem : Bytes32) : Except Exit CoinRecord :=
  match since.additions.get? rem with
  | none => .error (.rejected .UNKNOWN_UNSPENT)
  | some (newCoin, confirmedHeight, confirmedTimestamp) =>
    .ok ⟨newCoin, confirmedHeight, 0, false, false, confirmedTimestamp⟩

/-- The record of a coin that exists before the block, below the fork or in it. -/
def existingCoinRecord (rem : Bytes32) :
    Option CoinRecord → Except Exit CoinRecord
  | none => forkCoinRecord since rem
  | some unspent =>
    if unspent.confirmedBlockIndex ≤ forkH then do
      require (!(unspent.spent && unspent.spentBlockIndex ≤ forkH)) .DOUBLE_SPEND
      return unspent
    else forkCoinRecord since rem

/-- Check 15 for one removal: it is created by the block, or exists and is not spent. -/
def removalCoinRecord (additionsDic : Dict Bytes32 Coin) (timestamp height : ℕ) (forkH : ℤ)
    (since : SinceFork) (rem : Bytes32) : BodyM CoinRecord := do
  match additionsDic.get? rem with
  | some remCoin => return ⟨remCoin, height, height, true, false, timestamp⟩
  | none =>
    let unspent ← raising (getCoinRecord env rem)
    let record ← existingCoinRecord forkH since rem unspent
    require (rem ∉ since.removals) .DOUBLE_SPEND_IN_FORK
    return record

/-- Check 15 for all removals: the records of the removed coins by name. -/
def removalCoinRecords (additionsDic : Dict Bytes32 Coin) (timestamp height : ℕ) (forkH : ℤ)
    (since : SinceFork) (removals : List Bytes32) : BodyM (Dict Bytes32 CoinRecord) :=
  removals.foldlM (fun records rem => do
    let record ← removalCoinRecord env additionsDic timestamp height forkH since rem
    return records.set (record.name env.stdHash) record) .empty

/-- The sum of the fees that the spends reserve, as a `uint128`. -/
def assertFeeSum : Except Exit ℕ :=
  (npcList.flatMap fun npc => npc.conditionsOf .RESERVE_FEE).foldlM (fun sum cvp => do
    let var ← orRaise (cvp.var 0)
    require (0 ≤ intFromBytes var) .RESERVE_FEE_CONDITION_FAILED
    let sum := sum + (intFromBytes var).toNat
    if sum < 2 ^ 128 then return sum else throw (.raised .valueError)) 0

/-- Checks 16 to 19: what is removed covers what is added and the fees. -/
def checkAmounts (additions : List Coin) (records : List CoinRecord) : Except Exit Unit := do
  let removed := (records.map fun r => r.coin.amount).sum
  let added := (additions.map Coin.amount).sum
  require (added ≤ removed) .MINTING_COIN
  let fees := removed - added
  let feeSum ← assertFeeSum npcList
  require (feeSum ≤ fees) .RESERVE_FEE_CONDITION_FAILED
  require (fees + calculateBaseFarmerReward height ≤ env.constants.maxCoinAmount)
    .COIN_AMOUNT_EXCEEDS_MAXIMUM
  require (info.fees = fees) .INVALID_BLOCK_FEE_AMOUNT

/-- Check 20: the removed coins have the puzzle hashes of the spends. -/
def checkPuzzleHashes (records : List CoinRecord) : Except Exit Unit :=
  let removalsPuzzleDic : Dict Bytes32 Bytes32 := npcList.foldl (fun d npc => d.set npc.coinName npc.puzzleHash) .empty
  records.forM fun unspent =>
    match removalsPuzzleDic.get? (unspent.name env.stdHash) with
    | none => .error (.raised .keyError)
    | some puzzleHash => require (unspent.coin.puzzleHash = puzzleHash) .WRONG_PUZZLE_HASH

/-- Check 21: the conditions hold. The pairs of keys and messages that have to be signed. -/
def checkConditions (coinAnnouncementNames puzzleAnnouncementNames : List Bytes32)
    (npcList : List NPC) (records : Dict Bytes32 CoinRecord)
    (prevTransactionBlockHeight timestamp : ℕ) : Except Exit (List (Bytes × Bytes)) :=
  List.flatten <$> npcList.mapM fun npc => do
    let unspent ← match records.get? npc.coinName with
      | some unspent => pure unspent
      | none => throw (.raised .keyError)
    rejectSome (← orRaise (mempoolCheckConditionsDict env unspent coinAnnouncementNames
      puzzleAnnouncementNames npc prevTransactionBlockHeight timestamp))
    orRaise (pkmPairsForConditionsDict env npc)

/-- Check 22: the aggregated signature. -/
def checkSignature (pairs : List (Bytes × Bytes)) (info : TransactionsInfo) : Except Exit Unit :=
  require (env.aggregateVerify (pairs.map Prod.fst) (pairs.map Prod.snd) info.aggregatedSignature)
    .BAD_AGGREGATE_SIGNATURE

/-- What checks 2 to 14 pass on to checks 15 to 22. -/
structure BlockSpends where
  foliageTransactionBlock : FoliageTransactionBlock
  info : TransactionsInfo
  coinbaseAdditions : List Coin
  prevTransactionBlockHeight : ℕ
  npcList : List NPC
  additions : List Coin
  coinAnnouncementNames : List Bytes32
  puzzleAnnouncementNames : List Bytes32
deriving DecidableEq

/-- Checks 2 to 14. -/
def collectSpends (npcResult : Option NPCResult) : BodyM BlockSpends := do
  match block.foliageTransactionBlock, block.transactionsInfo with
  | some foliageTransactionBlock, some info => do
    require (foliageTransactionBlock.transactionsInfoHash = env.stdHash info.stream)
      .INVALID_TRANSACTIONS_INFO_HASH
    require (block.foliage.foliageTransactionBlockHash =
      some (env.stdHash foliageTransactionBlock.stream)) .INVALID_FOLIAGE_BLOCK_HASH
    let (coinbaseAdditions, prevTransactionBlockHeight) ←
      orRaise (expectedRewardCoins env (← get).blocks height foliageTransactionBlock)
    checkRewardClaims env foliageTransactionBlock info.rewardClaimsIncorporated coinbaseAdditions
    checkGenerator env block height foliageTransactionBlock info
    let (npcList, cost) ← checkNpcResult env block npcResult
    let additions ← orRaise (additionsForNpc npcList)
    let coinAnnouncementNames ← orRaise (coinAnnouncementsNamesForNpc env npcList)
    let puzzleAnnouncementNames ← orRaise (puzzleAnnouncementsNamesForNpc env npcList)
    require (info.cost = cost) .INVALID_BLOCK_COST
    checkAdditionsAndRemovals env foliageTransactionBlock (additions ++ coinbaseAdditions)
      (npcList.map NPC.coinName)
    return ⟨foliageTransactionBlock, info, coinbaseAdditions, prevTransactionBlockHeight, npcList, additions,
      coinAnnouncementNames, puzzleAnnouncementNames⟩
  | _, _ => throw (.rejected .IS_TRANSACTION_BLOCK_BUT_NO_DATA)

/-- Check 15. -/
def findCoins (forkPointWithPeak : Option ℕ) (b : BlockSpends) : BodyM (Dict Bytes32 CoinRecord) := do
  let blocks := (← get).blocks
  let forkH ← orRaise (forkHeight blocks peak block height forkPointWithPeak)
  let since ← raising (sinceFork env getBlockGenerator block height forkH)
  removalCoinRecords env (coinsByName env (b.additions ++ b.coinbaseAdditions))
    b.foliageTransactionBlock.timestamp height forkH since (b.npcList.map NPC.coinName)

/-- Checks 16 to 22. -/
def checkCoinsOfBlock (b : BlockSpends) (records : Dict Bytes32 CoinRecord) : Except Exit Unit := do
  let unspents := records.entries.map Prod.snd
  checkAmounts env height b.info b.npcList b.additions unspents
  checkPuzzleHashes env b.npcList unspents
  let pairs ← checkConditions env b.coinAnnouncementNames b.puzzleAnnouncementNames b.npcList records
    b.prevTransactionBlockHeight b.foliageTransactionBlock.timestamp
  checkSignature env pairs b.info

/-- Checks 2 to 22, for a transaction block. -/
def validateTransactionBlock (npcResult : Option NPCResult)
    (forkPointWithPeak : Option ℕ) : BodyM (Option NPCResult) := do
  let b ← collectSpends env block height npcResult
  let records ← findCoins env getBlockGenerator peak block height forkPointWithPeak b
  checkCoinsOfBlock env height b records
  return npcResult

def validateBlockBody (npcResult : Option NPCResult)
    (forkPointWithPeak : Option ℕ) : NodeM (Option Err × Option NPCResult) := settle do
  orRaise (pyAssert (height = block.height))
  if block.foliage.foliageTransactionBlockHash.isNone then do
    checkNoTransactions env (← get).blocks block
    return none
  else
    validateTransactionBlock env getBlockGenerator peak block height npcResult forkPointWithPeak

end

end SectorChain
