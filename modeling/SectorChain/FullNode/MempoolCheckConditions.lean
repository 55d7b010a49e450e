import SectorChain.Lib.Except
import SectorChain.Util.ConditionTools

/-!
# Running a generator and checking its conditions
-/

namespace SectorChain

/-- A value whose absence makes the source raise some other exception. -/
def orRuntimeError {α : Type} : Option α → Except Err α
  | some a => .ok a
  | none => .error .GENERATOR_RUNTIME_ERROR

namespace SExp

def first (s : SExp) : Except Err SExp := orRuntimeError s.first?

def rest (s : SExp) : Except Err SExp := orRuntimeError s.rest?

/-- The atom in a place where `None` makes `len` or a cast raise. -/
def asAtom (s : SExp) : Except Err Bytes := orRuntimeError s.atom?

end SExp

/-- An integer with two redundant leading zero bytes, or more. -/
def redundantZeros : Bytes → Bool
  | 0 :: 0 :: _ :: _ => true
  | _ => false

def sanitizeInt (n : SExp) (safeMode : Bool) : Except Err ℤ := do
  let buf ← n.asAtom
  if safeMode && redundantZeros buf then throw .INVALID_CONDITION
  return intFromBytes buf

variable (args : SExp) (safeMode : Bool)

def parseAggsig : Except Err (List Bytes) := do
  let pubkey ← (← args.first).asAtom
  let args ← args.rest
  let message ← args.first
  if pubkey.length ≠ 48 then throw .INVALID_CONDITION
  let message ← message.asAtom
  if message.length > 1024 then throw .INVALID_CONDITION
  return [pubkey, message]

def parseCreateCoin : Except Err (List Bytes) := do
  let puzzleHash ← (← args.first).asAtom
  let args ← args.rest
  if puzzleHash.length ≠ 32 then throw .INVALID_CONDITION
  let amountInt ← sanitizeInt (← args.first) safeMode
  if amountInt ≥ 2 ^ 64 then throw .COIN_AMOUNT_EXCEEDS_MAXIMUM
  if amountInt < 0 then throw .COIN_AMOUNT_NEGATIVE
  return [puzzleHash, intToBytes amountInt.toNat]

/-- A lock up to `bound`: inherently satisfied below one, an error from the bound on. -/
def parseLock (bound : ℤ) (args : SExp) (safeMode : Bool) (errorCode : Err) : Except Err (Option (List Bytes)) := do
  let lock ← sanitizeInt (← args.first) safeMode
  if lock ≤ 0 then return none
  if lock ≥ bound then throw errorCode
  return some [intToBytes lock.toNat]

def parseSeconds : SExp → Bool → Err → Except Err (Option (List Bytes)) := parseLock (2 ^ 64)

def parseHeight : SExp → Bool → Err → Except Err (Option (List Bytes)) := parseLock (2 ^ 32)

def parseUnsigned (errorCode : Err) : Except Err (List Bytes) := do
  let n ← sanitizeInt (← args.first) safeMode
  if n ≥ 2 ^ 64 ∨ n < 0 then throw errorCode
  return [intToBytes n.toNat]

def parseFee : Except Err (List Bytes) :=
  parseUnsigned args safeMode .RESERVE_FEE_CONDITION_FAILED

def parseAmount : Except Err (List Bytes) :=
  parseUnsigned args safeMode .ASSERT_MY_AMOUNT_FAILED

def parseHash (errorCode : Err) : Except Err (List Bytes) := do
  let h ← (← args.first).asAtom
  if h.length ≠ 32 then throw errorCode
  return [h]

def parseAnnouncement : Except Err (List Bytes) := do
  let msg ← (← args.first).asAtom
  if msg.length > 1024 then throw .INVALID_CONDITION
  return [msg]

/-- The arguments of a condition; `none` for a condition that is inherently true. -/
def parseConditionArgs (condition : ConditionOpcode) (safeMode : Bool) : Except Err (Option (List Bytes)) :=
  match condition with
  | .AGG_SIG_UNSAFE | .AGG_SIG_ME => some <$> parseAggsig args
  | .CREATE_COIN => some <$> parseCreateCoin args safeMode
  | .ASSERT_SECONDS_ABSOLUTE => parseSeconds args safeMode .ASSERT_SECONDS_ABSOLUTE_FAILED
  | .ASSERT_SECONDS_RELATIVE => parseSeconds args safeMode .ASSERT_SECONDS_RELATIVE_FAILED
  | .ASSERT_HEIGHT_ABSOLUTE => parseHeight args safeMode .ASSERT_HEIGHT_ABSOLUTE_FAILED
  | .ASSERT_HEIGHT_RELATIVE => parseHeight args safeMode .ASSERT_HEIGHT_RELATIVE_FAILED
  | .ASSERT_MY_COIN_ID => some <$> parseHash args .ASSERT_MY_COIN_ID_FAILED
  | .RESERVE_FEE => some <$> parseFee args safeMode
  | .CREATE_COIN_ANNOUNCEMENT => some <$> parseAnnouncement args
  | .ASSERT_COIN_ANNOUNCEMENT => some <$> parseHash args .ASSERT_ANNOUNCE_CONSUMED_FAILED
  | .CREATE_PUZZLE_ANNOUNCEMENT => some <$> parseAnnouncement args
  | .ASSERT_PUZZLE_ANNOUNCEMENT => some <$> parseHash args .ASSERT_ANNOUNCE_CONSUMED_FAILED
  | .ASSERT_MY_PARENT_ID => some <$> parseHash args .ASSERT_MY_PARENT_ID_FAILED
  | .ASSERT_MY_PUZZLEHASH => some <$> parseHash args .ASSERT_MY_PUZZLEHASH_FAILED
  | .ASSERT_MY_AMOUNT => some <$> parseAmount args safeMode
  | .UNKNOWN => throw .INVALID_CONDITION

def conditionOpcode (condition : SExp) : Option ConditionOpcode :=
  condition.atom?.bind ConditionOpcode.ofBytes?

def parseCondition (cond : SExp) (safeMode : Bool) : Except Err (ℕ × Option ConditionWithArgs) := do
  let condition ← cond.first
  match conditionOpcode condition with
  | some opcode =>
    let args ← parseConditionArgs (← cond.rest) opcode safeMode
    return (conditionCost opcode, args.map (ConditionWithArgs.mk opcode))
  | none =>
    if safeMode then throw .INVALID_CONDITION
    return (0, some ⟨.UNKNOWN, (← cond.rest).asAtomList⟩)

def chargeCost (maxCost cost : ℕ) : Except Err ℕ :=
  if maxCost < cost then .error .INVALID_BLOCK_COST else .ok (maxCost - cost)

def parseSpendCondition (acc : ℕ × List ConditionWithArgs) (cond : SExp) :
    Except Err (ℕ × List ConditionWithArgs) := do
  let (cost, cvl) ← parseCondition cond safeMode
  let maxCost ← chargeCost acc.1 cost
  return (maxCost, acc.2 ++ cvl.toList)

def parseBytes32 (s : SExp) : Except Err Bytes32 := do
  let bs ← s.asAtom
  if h : bs.length = 32 then return ⟨bs, h⟩ else throw .INVALID_CONDITION

/-- The coin of a spend, and the rest of the spend. -/
def parseSpentCoin (res : SExp) : Except Err (Coin × SExp) := do
  let spentCoinParentId ← parseBytes32 (← res.first)
  let res ← res.rest
  let spentCoinPuzzleHash ← parseBytes32 (← res.first)
  let res ← res.rest
  let amount ← sanitizeInt (← res.first) safeMode
  let res ← res.rest
  match uint64 amount with
  | .error _ => throw .GENERATOR_RUNTIME_ERROR
  | .ok amount => return (⟨spentCoinParentId, spentCoinPuzzleHash, amount.1, uint64_lt amount⟩, res)

section

variable (env : Env)

def parseSpend (safeMode : Bool) (acc : ℕ × List NPC) (res : SExp) : Except Err (ℕ × List NPC) := do
  let (spentCoin, res) ← parseSpentCoin safeMode res
  let (maxCost, conditionsList) ←
    (← res.first).foldIter .GENERATOR_RUNTIME_ERROR (parseSpendCondition safeMode) (acc.1, [])
  let npc : NPC := ⟨spentCoin.name env.stdHash, spentCoin.puzzleHash, (conditionsByOpcode conditionsList).entries⟩
  return (maxCost, acc.2 ++ [npc])

def createGeneratorArgs (generatorRefList : List Bytes) : SExp :=
  .ofList [.ofList (generatorRefList.map .atom)]

/-- The body of `get_name_puzzle_conditions`: spends and CLVM cost. -/
def runBlockGenerator (generator : BlockGenerator) (maxCost : ℕ) (safeMode : Bool) : Except Err (List NPC × ℕ) := do
  let maxCost ← chargeCost maxCost (generator.program.length * env.constants.costPerByte)
  let (clvmCost, result) ← orRuntimeError
    (env.runGenerator safeMode maxCost generator.program (createGeneratorArgs generator.generatorRefs))
  let maxCost ← chargeCost maxCost clvmCost
  let (_, npcList) ←
    (← result.first).foldIter .GENERATOR_RUNTIME_ERROR (parseSpend env safeMode) (maxCost, [])
  return (npcList, clvmCost)

def getNamePuzzleConditions (generator : BlockGenerator) (maxCost : ℕ) (safeMode : Bool) : NPCResult :=
  match runBlockGenerator env generator maxCost safeMode with
  | .ok (npcList, clvmCost) => ⟨none, npcList, clvmCost⟩
  | .error code => ⟨some code, [], 0⟩

end

def assertVar (condition : ConditionWithArgs) (errorCode : Err) (check : Bytes → Bool) :
    Except PyError (Option Err) := do
  let v ← condition.var 0
  return if check v then none else some errorCode

section

variable (env : Env)

variable (condition : ConditionWithArgs) (unspent : CoinRecord)

def mempoolAssertAnnouncement (announcements : List Bytes32) : Except PyError (Option Err) := do
  let announcementHash ← SizedBytes.ofBytes 32 (← condition.var 0)
  return if announcementHash ∈ announcements then none else some .ASSERT_ANNOUNCE_CONSUMED_FAILED

def mempoolAssertMyCoinId : Except PyError (Option Err) :=
  assertVar condition .ASSERT_MY_COIN_ID_FAILED fun v => (unspent.coin.name env.stdHash).toBytes = v

def mempoolAssertAbsoluteBlockHeightExceeds (prevTransactionBlockHeight : ℕ) : Except PyError (Option Err) :=
  assertVar condition .ASSERT_HEIGHT_ABSOLUTE_FAILED fun v =>
    !(prevTransactionBlockHeight < intFromBytes v)

def mempoolAssertRelativeBlockHeightExceeds (prevTransactionBlockHeight : ℕ) : Except PyError (Option Err) :=
  assertVar condition .ASSERT_HEIGHT_RELATIVE_FAILED fun v =>
    !(prevTransactionBlockHeight < intFromBytes v + unspent.confirmedBlockIndex)

def mempoolAssertAbsoluteTimeExceeds (timestamp : ℕ) : Except PyError (Option Err) :=
  assertVar condition .ASSERT_SECONDS_ABSOLUTE_FAILED fun v => !(timestamp < intFromBytes v)

def mempoolAssertRelativeTimeExceeds (timestamp : ℕ) : Except PyError (Option Err) :=
  assertVar condition .ASSERT_SECONDS_RELATIVE_FAILED fun v =>
    !(timestamp < intFromBytes v + unspent.timestamp)

def mempoolAssertMyParentId : Except PyError (Option Err) :=
  assertVar condition .ASSERT_MY_PARENT_ID_FAILED fun v => unspent.coin.parentCoinInfo.toBytes = v

def mempoolAssertMyPuzzlehash : Except PyError (Option Err) :=
  assertVar condition .ASSERT_MY_PUZZLEHASH_FAILED fun v => unspent.coin.puzzleHash.toBytes = v

def mempoolAssertMyAmount : Except PyError (Option Err) :=
  assertVar condition .ASSERT_MY_AMOUNT_FAILED fun v => unspent.coin.amount = intFromBytes v

def checkCondition (coinAnnouncementNames puzzleAnnouncementNames : List Bytes32)
    (prevTransactionBlockHeight timestamp : ℕ) (cvp : ConditionWithArgs) :
    Except PyError (Option Err) :=
  match cvp.opcode with
  | .ASSERT_MY_COIN_ID => mempoolAssertMyCoinId env cvp unspent
  | .ASSERT_COIN_ANNOUNCEMENT => mempoolAssertAnnouncement cvp coinAnnouncementNames
  | .ASSERT_PUZZLE_ANNOUNCEMENT => mempoolAssertAnnouncement cvp puzzleAnnouncementNames
  | .ASSERT_HEIGHT_ABSOLUTE =>
    mempoolAssertAbsoluteBlockHeightExceeds cvp prevTransactionBlockHeight
  | .ASSERT_HEIGHT_RELATIVE =>
    mempoolAssertRelativeBlockHeightExceeds cvp unspent prevTransactionBlockHeight
  | .ASSERT_SECONDS_ABSOLUTE => mempoolAssertAbsoluteTimeExceeds cvp timestamp
  | .ASSERT_SECONDS_RELATIVE => mempoolAssertRelativeTimeExceeds cvp unspent timestamp
  | .ASSERT_MY_PARENT_ID => mempoolAssertMyParentId cvp unspent
  | .ASSERT_MY_PUZZLEHASH => mempoolAssertMyPuzzlehash cvp unspent
  | .ASSERT_MY_AMOUNT => mempoolAssertMyAmount cvp unspent
  | _ => .ok none

def firstError {α : Type} (check : α → Except PyError (Option Err)) :
    List α → Except PyError (Option Err)
  | [] => .ok none
  | a :: l => do
    match ← check a with
    | some e => return some e
    | none => firstError check l

def mempoolCheckConditionsDict
    (coinAnnouncementNames puzzleAnnouncementNames : List Bytes32) (npc : NPC)
    (prevTransactionBlockHeight timestamp : ℕ) : Except PyError (Option Err) :=
  firstError (checkCondition env unspent coinAnnouncementNames puzzleAnnouncementNames
    prevTransactionBlockHeight timestamp) (npc.conditionDict.entries.flatMap Prod.snd)

end

end SectorChain
