import SectorChain.Consensus.Env

/-!
# Coins, announcements and signatures of a list of conditions
-/

namespace SectorChain

/-- `int_from_bytes`, a signed number. -/
def intFromBytes (bs : Bytes) : ℤ := Lib.beInt bs

def uint64 (n : ℤ) : Except PyError { n : ℕ // n < 2 ^ 64 } :=
  if h : 0 ≤ n ∧ n < 2 ^ 64 then .ok ⟨n.toNat, by omega⟩ else .error .valueError

lemma uint64_lt (n : { n : ℕ // n < 2 ^ 64 }) : n.1 < 2 ^ 64 := n.2

def ConditionWithArgs.var (cvp : ConditionWithArgs) (i : ℕ) : Except PyError Bytes :=
  match cvp.vars[i]? with
  | some v => .ok v
  | none => .error .indexError

/-- `ConditionCost`, by opcode; unknown conditions are free. -/
def conditionCost : ConditionOpcode → ℕ
  | .AGG_SIG_UNSAFE | .AGG_SIG_ME => 1200000
  | .CREATE_COIN => 1800000
  | _ => 0

def conditionsByOpcode (conditions : List ConditionWithArgs) :
    Lib.Dict ConditionOpcode (List ConditionWithArgs) :=
  conditions.foldl (fun d cvp =>
    match d.get? cvp.opcode with
    | none => d.set cvp.opcode [cvp]
    | some cvps => d.set cvp.opcode (cvps ++ [cvp])) .empty

def NPC.conditionsOf (npc : NPC) (opcode : ConditionOpcode) : List ConditionWithArgs :=
  (npc.conditionDict.get? opcode).getD []

def createdOutput (inputCoinName : Bytes32) (cvp : ConditionWithArgs) : Except PyError Coin := do
  let puzzleHash ← cvp.var 0
  let amountBin ← cvp.var 1
  let amount ← uint64 (intFromBytes amountBin)
  let puzzleHash ← SizedBytes.ofBytes 32 puzzleHash
  return ⟨inputCoinName, puzzleHash, amount.1, uint64_lt amount⟩

def createdOutputsForConditionsDict (npc : NPC) : Except PyError (List Coin) :=
  (npc.conditionsOf .CREATE_COIN).mapM (createdOutput npc.coinName)

def additionsForNpc (npcList : List NPC) : Except PyError (List Coin) :=
  List.flatten <$> npcList.mapM createdOutputsForConditionsDict

/-- Removals and additions, without the rewards of farmer and pool. -/
def txRemovalsAndAdditions (npcList : List NPC) : Except PyError (List Bytes32 × List Coin) := do
  let additions ← additionsForNpc npcList
  return (npcList.map NPC.coinName, additions)

variable (env : Env)

def announcementName (originInfo : Bytes32) (message : Bytes) : Bytes32 :=
  env.stdHash (originInfo.toBytes ++ message)

/-- The announcements of one opcode that the spends make. -/
def announcementNames (opcode : ConditionOpcode) (origin : NPC → Bytes32) (npcList : List NPC) :
    Except PyError (List Bytes32) :=
  List.flatten <$> npcList.mapM fun npc =>
    (npc.conditions.flatMap fun e => if e.1 = opcode then e.2 else []).mapM fun cvp => do
      let message ← cvp.var 0
      pyAssert (message.length ≤ 1024)
      return announcementName env (origin npc) message

def coinAnnouncementsNamesForNpc : List NPC → Except PyError (List Bytes32) :=
  announcementNames env .CREATE_COIN_ANNOUNCEMENT NPC.coinName

def puzzleAnnouncementsNamesForNpc : List NPC → Except PyError (List Bytes32) :=
  announcementNames env .CREATE_PUZZLE_ANNOUNCEMENT NPC.puzzleHash

/-- Public key and message of one signature condition. -/
def pkmPair (suffix : Bytes) (cwa : ConditionWithArgs) : Except PyError (Bytes × Bytes) := do
  pyAssert (cwa.vars.length = 2)
  let pk ← cwa.var 0
  let msg ← cwa.var 1
  pyAssert (pk.length = 48 && msg.length ≤ 1024)
  if !env.isG1Element pk then throw .valueError
  return (pk, msg ++ suffix)

def pkmPairsForConditionsDict (npc : NPC) : Except PyError (List (Bytes × Bytes)) := do
  let unsafePairs ← (npc.conditionsOf .AGG_SIG_UNSAFE).mapM (pkmPair env [])
  let mePairs ← (npc.conditionsOf .AGG_SIG_ME).mapM
    (pkmPair env (npc.coinName.toBytes ++ env.constants.aggSigMeAdditionalData))
  return unsafePairs ++ mePairs

/-- The cost of a generator: CLVM cost, conditions and size. The sum is not bounded by its type `uint64` here. -/
def calculateCostOfProgram (program : Bytes) (npcResult : NPCResult) : ℕ :=
  npcResult.clvmCost +
    (npcResult.npcList.map fun npc =>
      (npc.conditionDict.entries.map fun e => e.2.length * conditionCost e.1).sum).sum +
    program.length * env.constants.costPerByte

end SectorChain
