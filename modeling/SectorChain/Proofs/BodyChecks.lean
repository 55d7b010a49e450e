import SectorChain.Proofs.Reads
import Mathlib.Algebra.BigOperators.Group.List.Basic
import Mathlib.Data.List.Dedup

/-!
# What acceptance of a block means

Inversion lemmas for the checks and for `receive_block`.
-/

namespace SectorChain.Proofs

open Lib

variable {additions : List Coin} {cost : ℕ} {errorCode : Option Err} {npcList : List NPC} {result : ReceiveBlockResult}
  {u : Unit} {α : Type}

lemma orRaise_ok {x : Except PyError α} {a : α} : orRaise x = .ok a ↔ x = .ok a := mapError_eq_ok

lemma require_ok {ok : Bool} {error : Err} : require ok error = .ok u ↔ ok = true := by
  unfold require
  cases ok <;> simp

lemma rejectSome_ok {error : Option Err} : rejectSome error = .ok u ↔ error = none := by
  cases error <;> simp [rejectSome]

lemma raising_ok {m : NodeM α} {s s' : Node} {a : α} :
    exec (raising m) s = (.ok a, s') ↔ exec m s = (.ok a, s') := by
  unfold raising
  rw [exec_adapt, Prod.mk.injEq, mapError_eq_ok, ← Prod.mk.injEq]

lemma settle_ok {m : BodyM (Option α)} {s s' : Node} {r : Option α} :
    exec (settle m) s = (.ok (none, r), s') ↔ exec m s = (.ok r, s') := by
  unfold settle
  rw [exec_mk]
  rcases exec m s with ⟨(e | e) | a, s₁⟩ <;> simp

section

variable {env : Env} {block : FullBlock} {height : ℕ}

lemma checkNpcResult_ok {npc : Option NPCResult} (h : checkNpcResult env block npc = .ok (npcList, cost)) :
    (block.transactionsGenerator = none ∧ npc = none ∧ npcList = []) ∨
    ∃ generator result, block.transactionsGenerator = some generator ∧ npc = some result ∧
      result.error = none ∧ npcList = result.npcList ∧
      cost = calculateCostOfProgram env generator result ∧ cost ≤ env.constants.maxBlockCostClvm := by
  unfold checkNpcResult at h
  cases hgenerator : block.transactionsGenerator with
  | none =>
    rw [hgenerator] at h
    simp only [bind_eq_ok, orRaise_ok, pyAssert_ok] at h
    obtain ⟨_, hnone, h⟩ := h
    cases h
    exact .inl ⟨rfl, by simpa using hnone, rfl⟩
  | some generator =>
    rw [hgenerator] at h
    simp only [bind_eq_ok, orRaise_ok, assertSome_ok, require_ok, rejectSome_ok] at h
    obtain ⟨result, hresult, _, hcost, _, herror, h⟩ := h
    cases h
    exact .inr ⟨generator, result, rfl, hresult, herror, rfl, rfl, by simpa using hcost⟩

lemma txOfResult_of_checkNpcResult {npc : Option NPCResult} (h : checkNpcResult env block npc = .ok (npcList, cost))
    (hadditions : additionsForNpc npcList = .ok additions) :
    txOfResult npc = .ok (npcList.map NPC.coinName, additions) := by
  rcases checkNpcResult_ok h with ⟨-, rfl, rfl⟩ | ⟨_, result, -, rfl, -, rfl, -⟩
  · cases hadditions
    rfl
  · unfold txOfResult txRemovalsAndAdditions
    dsimp only
    rw [hadditions]
    rfl

lemma sameSet_iff {a b : List Coin} : sameSet a b = true ↔ ∀ c, c ∈ a ↔ c ∈ b := by
  unfold sameSet
  simp only [Bool.and_eq_true, List.all_eq_true, decide_eq_true_eq]
  constructor
  · rintro ⟨hab, hba⟩ c
    exact ⟨hab c, hba c⟩
  · intro h
    exact ⟨fun c => (h c).mp, fun c => (h c).mpr⟩

/-- What checks 2 to 14 have computed and checked. -/
structure Collected (env : Env) (blocks : BlockchainInterface) (block : FullBlock) (height : ℕ)
    (npcResult : Option NPCResult) (b : BlockSpends) : Prop where
  foliageTransactionBlock : block.foliageTransactionBlock = some b.foliageTransactionBlock
  info : block.transactionsInfo = some b.info
  rewards : expectedRewardCoins env blocks height b.foliageTransactionBlock =
    .ok (b.coinbaseAdditions, b.prevTransactionBlockHeight)
  claims : sameSet b.info.rewardClaimsIncorporated b.coinbaseAdditions = true
  npcList : ∃ cost, checkNpcResult env block npcResult = .ok (b.npcList, cost)
  additions : additionsForNpc b.npcList = .ok b.additions
  coinAnnouncements : coinAnnouncementsNamesForNpc env b.npcList = .ok b.coinAnnouncementNames
  puzzleAnnouncements : puzzleAnnouncementsNamesForNpc env b.npcList = .ok b.puzzleAnnouncementNames
  filterHash : env.stdHash (encodedFilter env (b.additions ++ b.coinbaseAdditions)
    (b.npcList.map NPC.coinName)) = b.foliageTransactionBlock.filterHash
  nodup_additions : ((b.additions ++ b.coinbaseAdditions).map (Coin.name env.stdHash)).Nodup
  nodup_removals : (b.npcList.map NPC.coinName).Nodup

lemma checkAdditionsAndRemovals_ok {foliage : FoliageTransactionBlock} {removals : List Bytes32}
    (h : checkAdditionsAndRemovals env foliage additions removals = .ok u) :
    env.stdHash (encodedFilter env additions removals) = foliage.filterHash ∧
      (additions.map (Coin.name env.stdHash)).Nodup ∧ removals.Nodup := by
  unfold checkAdditionsAndRemovals at h
  simp only [bind_eq_ok, require_ok, decide_eq_true_eq] at h
  obtain ⟨_, -, _, -, _, -, _, hfilter, _, hadditions, hremovals⟩ := h
  exact ⟨hfilter, hadditions, hremovals⟩

variable {peak : Option BlockRecord} {npc r : Option NPCResult} {forkPoint : Option ℕ}
  {s s' : Node}

lemma collectSpends_ok {b : BlockSpends} (h : exec (collectSpends env block height npc) s = (.ok b, s')) :
    s' = s ∧ Collected env s.blocks block height npc b := by
  unfold collectSpends at h
  cases hfoliage : block.foliageTransactionBlock with
  | none =>
    rw [hfoliage] at h
    cases h
  | some foliage =>
    cases hinfo : block.transactionsInfo with
    | none =>
      rw [hfoliage, hinfo] at h
      cases h
    | some info =>
      rw [hfoliage, hinfo] at h
      simp only [exec_bind_ok, exec_lift_eq, exec_get, Prod.mk.injEq, Except.ok.injEq, orRaise_ok,
        require_ok, decide_eq_true_eq] at h
      obtain ⟨_, _, ⟨-, rfl⟩, _, _, ⟨-, rfl⟩, _, _, ⟨rfl, rfl⟩, ⟨coinbase, prevHeight⟩, _,
        ⟨hcoinbase, rfl⟩, _, _, ⟨hclaims, rfl⟩, _, _, ⟨-, rfl⟩, ⟨npcList, cost⟩, _,
        ⟨hnpc, rfl⟩, additions, _, ⟨hadditions, rfl⟩, coinNames, _, ⟨hcoinNames, rfl⟩, puzzleNames, _,
        ⟨hpuzzleNames, rfl⟩, _, _, ⟨-, rfl⟩, _, _, ⟨hcoins, rfl⟩, h⟩ := h
      rw [exec_pure] at h
      cases h
      obtain ⟨hfilter, hnewCoins, hremovals⟩ := checkAdditionsAndRemovals_ok hcoins
      unfold checkRewardClaims at hclaims
      simp only [bind_eq_ok, require_ok] at hclaims
      exact ⟨rfl, hfoliage, hinfo, hcoinbase, hclaims.choose_spec.1, ⟨cost, hnpc⟩, hadditions, hcoinNames, hpuzzleNames,
        hfilter, hnewCoins, hremovals⟩

lemma checkNoTransactions_ok {blocks : BlockchainInterface} (h : checkNoTransactions env blocks block = .ok u) :
    block.foliageTransactionBlock = none ∧ block.transactionsInfo = none ∧ block.transactionsGenerator = none := by
  obtain ⟨_, hnone, -⟩ := bind_eq_ok.mp h
  simpa [require_ok, and_assoc] using hnone

lemma validateBlockBody_ok
    (h : exec (validateBlockBody env getGenerator peak block height npc forkPoint) s = (.ok (none, r), s')) :
    (block.foliageTransactionBlock = none ∧ block.transactionsInfo = none ∧ block.transactionsGenerator = none) ∨
    ∃ b, Collected env s.blocks block height npc b := by
  unfold validateBlockBody at h
  rw [settle_ok] at h
  obtain ⟨_, _, hassert, h⟩ := exec_bind_ok.mp h
  obtain ⟨-, rfl⟩ := exec_lift_eq.mp hassert
  split at h
  · simp only [exec_get_bind, exec_bind_ok, exec_lift_eq] at h
    obtain ⟨_, _, ⟨hnone, rfl⟩, h⟩ := h
    exact .inl (checkNoTransactions_ok hnone)
  · obtain ⟨b, _, hcollect, -⟩ := exec_bind_ok.mp h
    exact .inr ⟨b, (collectSpends_ok hcollect).2⟩

lemma validateBodyAndRecord_ok {requiredIters : ℕ} {v : Option NPCResult × BlockRecord}
    (h : exec (validateBodyAndRecord env block forkPoint npc requiredIters) s = (.ok v, s')) :
    ∃ peak r, exec (validateBlockBody env getGenerator peak block block.height npc forkPoint) s = (.ok (none, r), s') := by
  unfold validateBodyAndRecord at h
  rw [exec_get_bind] at h
  simp only [exec_bind_ok, exec_lift_eq, orRaise_ok, raising_ok, rejectSome_ok] at h
  obtain ⟨peak, _, ⟨-, rfl⟩, ⟨errorCode, r⟩, s₁, hbody, _, _, ⟨rfl, rfl⟩, record, _, ⟨-, rfl⟩, h⟩ := h
  cases h
  exact ⟨peak, r, hbody⟩

def accepted : ReceiveBlockResult → Bool
  | .NEW_PEAK | .ADDED_AS_ORPHAN => true
  | _ => false

lemma checkConnected_not_accepted
    (h : checkConnected env s block = .ok (some (result, errorCode))) : accepted result = false := by
  unfold checkConnected at h
  split at h
  · cases h
    rfl
  split at h
  · cases h
  split at h
  · cases h
    rfl
  obtain ⟨prev, -, h⟩ := bind_eq_ok.mp h
  split at h
  · cases h
    rfl
  · cases h

lemma receiveBlock_accepted {preValidationResult : Option PreValidationResult} {fork : Option ℕ}
    (h : exec (receiveBlock env block preValidationResult forkPoint) s = (.ok (result, errorCode, fork), s'))
    (haccepted : accepted result = true) :
    checkConnected env s block = .ok none ∧
    ∃ npc blockRecord s₁, exec (validateBlock env block preValidationResult forkPoint) s =
        (.ok (npc, blockRecord), s₁) ∧
      exec (addBlock env block blockRecord forkPoint npc) s₁ = (.ok fork, s') := by
  unfold receiveBlock at h
  rw [exec_get_bind, exec_bind_ok] at h
  obtain ⟨connected, _, hconnected, h⟩ := h
  rw [exec_lift_eq] at hconnected
  obtain ⟨hconnected, rfl⟩ := hconnected
  rcases connected with _ | ⟨result', errorCode'⟩
  · obtain ⟨⟨errorCode', validated⟩, s₁, hvalidated, h⟩ := exec_bind_ok.mp h
    rcases validated with _ | ⟨npc, blockRecord⟩
    · cases h
      cases haccepted
    obtain ⟨fork', s₂, hadd, h⟩ := exec_bind_ok.mp h
    have hnone : errorCode' = none := by
      unfold settle at hvalidated
      rw [exec_mk] at hvalidated
      split at hvalidated <;> simp at hvalidated
      exact hvalidated.1.1.symm
    subst hnone
    rw [settle_ok, map_eq_pure_bind] at hvalidated
    obtain ⟨v, _, hvalid, hv⟩ := exec_bind_ok.mp hvalidated
    cases hv
    refine ⟨hconnected, npc, blockRecord, s₁, hvalid, ?_⟩
    cases fork' <;> cases h <;> exact hadd
  · cases h
    rw [checkConnected_not_accepted hconnected] at haccepted
    cases haccepted

end

section Keeps

variable (env : Env) (block : FullBlock)

lemma keeps_settle {m : BodyM (Option α)} (h : Keeps (Reads env) m) : Keeps (Reads env) (settle m) := by
  intro s
  have hs := h s
  unfold settle
  rw [exec_mk]
  rcases hrun : exec m s with ⟨(_ | _) | _, s₁⟩
  all_goals
    rw [hrun] at hs
    exact hs

lemma keeps_findCoins (peak : Option BlockRecord) (height : ℕ) (forkPoint : Option ℕ) (b : BlockSpends) :
    Keeps (Reads env) (findCoins env getGenerator peak block height forkPoint b) := by
  refine keeps_get_bind fun s => keeps_lift_bind fun forkH =>
    keeps_bind (keeps_raising env (keeps_sinceFork env block height forkH)) fun since => ?_
  refine keeps_foldlM (fun records rem _ => ?_) _
  exact keeps_bind (keeps_removalCoinRecord env _ _ _ _ _ rem) fun record => keeps_pure _

lemma keeps_validateBlockBody (peak : Option BlockRecord) (height : ℕ) (npcResult : Option NPCResult)
    (forkPoint : Option ℕ) :
    Keeps (Reads env) (validateBlockBody env getGenerator peak block height npcResult forkPoint) := by
  refine keeps_settle env (keeps_lift_bind fun _ => ?_)
  split
  · exact keeps_get_bind fun s => keeps_lift_bind fun _ => keeps_pure _
  · refine keeps_bind ?_ fun b => keeps_bind (keeps_findCoins env block peak height forkPoint b) fun records =>
      keeps_lift_bind fun _ => keeps_pure _
    unfold collectSpends
    split
    · exact keeps_lift_bind fun _ => keeps_lift_bind fun _ => keeps_get_bind fun s => keeps_lift_bind fun rewards =>
        keeps_lift_bind fun _ => keeps_lift_bind fun _ => keeps_lift_bind fun npcs => keeps_lift_bind fun additions =>
        keeps_lift_bind fun coinNames => keeps_lift_bind fun puzzleNames => keeps_lift_bind fun _ =>
        keeps_lift_bind fun _ => keeps_pure _
    · exact keeps_throw _

lemma keeps_validateBlock (preValidationResult : Option PreValidationResult) (forkPoint : Option ℕ) :
    Keeps (Reads env) (validateBlock env block preValidationResult forkPoint) := by
  refine keeps_bind ?_ fun validated => ?_
  · cases preValidationResult with
    | some result => exact keeps_lift _
    | none =>
      refine keeps_get_bind fun s => keeps_lift_bind fun iters => keeps_bind (keeps_raising env ?_) fun generated => ?_
      · unfold runGeneratorOf
        split
        · refine keeps_bind (keeps_tryGetGenerator env block) fun generator => ?_
          cases generator with
          | none => exact keeps_pure _
          | some generator => exact keeps_lift_bind fun _ => keeps_lift_bind fun _ => keeps_pure _
        · exact keeps_pure _
      · cases generated with
        | error code => exact keeps_throw _
        | ok npcResult => exact keeps_lift_bind fun requiredIters => keeps_pure _
  · refine keeps_get_bind fun s => keeps_lift_bind fun peak =>
      keeps_bind (keeps_raising env (keeps_validateBlockBody env block peak block.height validated.1 forkPoint))
      fun body => ?_
    exact keeps_lift_bind fun _ => keeps_lift_bind fun record => keeps_pure _

end Keeps

/-- A block that is not added leaves the tables, the block records and the chain as they were. -/
theorem rejected_block_leaves_chain (env : Env) (block : FullBlock) (preValidationResult : Option PreValidationResult)
    (forkPoint fork : Option ℕ) (result : ReceiveBlockResult) (errorCode : Option Err) (s s' : Node)
    (h : exec (receiveBlock env block preValidationResult forkPoint) s = (.ok (result, errorCode, fork), s'))
    (hrejected : accepted result = false) : Reads env s s' := by
  unfold receiveBlock at h
  rw [exec_get_bind] at h
  obtain ⟨connected, _, hconnected, h⟩ := exec_bind_ok.mp h
  obtain ⟨-, rfl⟩ := exec_lift_eq.mp hconnected
  rcases connected with _ | ⟨result', errorCode'⟩
  · obtain ⟨⟨errorCode', validated⟩, s₁, hvalidated, h⟩ := exec_bind_ok.mp h
    have hreads : Reads env s s₁ := by
      refine (keeps_settle env ?_).rel hvalidated
      rw [map_eq_pure_bind]
      exact keeps_bind (keeps_validateBlock env block preValidationResult forkPoint) fun _ => keeps_pure _
    rcases validated with _ | ⟨npc, blockRecord⟩
    · cases h
      exact hreads
    · obtain ⟨fork', s₂, -, h⟩ := exec_bind_ok.mp h
      cases fork' <;> cases h <;> cases hrejected
  · cases h
    exact .refl s

def sampleHash (bs : Bytes) : Bytes32 := .ofNat 32 (beNat (1 :: bs) % (2 ^ 256 - 189))

def sampleFilter (elements : List Bytes) : Bytes :=
  beBytes 40 ((elements.dedup.map fun x => beNat (1 :: x)).sum)

/-- CLVM runs programs as `run` says. A block with a finished slot counts ten times. -/
def sampleEnv (run : Bytes → SExp → Option (ℕ × SExp)) : Env where
  constants := DEFAULT_CONSTANTS
  stdHash := sampleHash
  runGenerator := fun _ maxCost program args => (run program args).filter fun r => r.1 ≤ maxCost
  bip158 := sampleFilter
  isG1Element := fun _ => true
  aggregateVerify := fun _ _ _ => true
  time := 1700000000
  getNextSubSlotItersAndDifficulty := fun newSlot _ _ => .ok (2 ^ 27, if newSlot then 70 else 7)
  headerChecks := fun _ _ _ _ _ => .ok none
  requiredIters := fun _ _ _ _ => 1
  signagePointAfter := fun _ headerBlock _ _ =>
    headerBlock.foliage.foliageTransactionBlockHash.isSome
  makeSubEpochSummary := fun _ _ _ _ _ => .error .assertionError
  recordSlotData := fun _ _ _ => .ok []

lemma filterOfSet_sampleFilter : FilterOfSet sampleFilter := by
  intro l l' h
  have hperm : l.dedup.Perm l'.dedup := by
    rw [List.perm_ext_iff_of_nodup l.nodup_dedup l'.nodup_dedup]
    intro x
    rw [List.mem_dedup, List.mem_dedup, h]
  unfold sampleFilter
  rw [(hperm.map _).sum_eq]

def samplePool : Bytes32 := .ofNat 32 1

def sampleFarmer : Bytes32 := .ofNat 32 2

def coinOf (r : Except PyError Coin) : Coin :=
  match r with
  | .ok coin => coin
  | .error _ => ⟨.ofNat 32 0, .ofNat 32 0, 0, by decide⟩

def samplePoolCoin (height : ℕ) : Coin :=
  coinOf (createPoolCoin height samplePool (calculatePoolReward height)
    DEFAULT_CONSTANTS.genesisChallenge)

def sampleFarmerCoin (height fees : ℕ) : Coin :=
  coinOf (createFarmerCoin height sampleFarmer (calculateBaseFarmerReward height + fees)
    DEFAULT_CONSTANTS.genesisChallenge)

def rootOf (values : List Bytes32) : Bytes32 :=
  match (do (← buildMerkleSet sampleHash values).getRoot sampleHash : Except PyError Bytes) with
  | .ok bs => if h : bs.length = 32 then ⟨bs, h⟩ else .ofNat 32 0
  | .error _ => .ofNat 32 0

/-- What is special about a transaction block. -/
structure SampleBody where
  prevTransactionBlockHash : Bytes32
  timestamp : ℕ
  generator : Option Bytes
  refs : List ℕ
  removals : List Bytes32
  rewards : List Coin
  cost : ℕ
  fees : ℕ

def SampleBody.info (body : SampleBody) : TransactionsInfo where
  generatorRoot := match body.generator with
    | some program => sampleHash program
    | none => .ofNat 32 0
  generatorRefsRoot := if body.refs = [] then ⟨List.replicate 32 1, rfl⟩
    else sampleHash (body.refs.flatMap (beBytes 4))
  aggregatedSignature := .ofNat 96 0
  fees := body.fees
  cost := body.cost
  rewardClaimsIncorporated := body.rewards

def SampleBody.foliageTransactionBlock (body : SampleBody) : FoliageTransactionBlock where
  prevTransactionBlockHash := body.prevTransactionBlockHash
  timestamp := body.timestamp
  filterHash := sampleHash (sampleFilter ((body.rewards.map fun coin => coin.puzzleHash.toBytes) ++
    body.removals.map SizedBytes.toBytes))
  additionsRoot := rootOf (additionLeaves sampleHash body.rewards)
  removalsRoot := rootOf body.removals
  transactionsInfoHash := sampleHash body.info.stream

/-- A block; `tag` keeps blocks apart that are the same otherwise. -/
def sampleBlock (height weight : ℕ) (hheight : height < 2 ^ 32) (prev : Bytes32) (newSlot : Bool)
    (tag : ℕ) (body : Option SampleBody) : FullBlock where
  finishedSubSlots := if newSlot then [⟨none, none, none, []⟩] else []
  rewardChainBlock := ⟨weight, height, hheight, body.isSome, []⟩
  proofs := []
  foliage := {
    prevBlockHash := prev
    rewardBlockHash := .ofNat 32 0
    foliageBlockData := ⟨.ofNat 32 0, ⟨samplePool, 0⟩, none, sampleFarmer, .ofNat 32 tag⟩
    foliageBlockDataSignature := .ofNat 96 0
    foliageTransactionBlockHash := body.map fun b => sampleHash b.foliageTransactionBlock.stream
    foliageTransactionBlockSignature := body.map fun _ => .ofNat 96 0 }
  foliageTransactionBlock := body.map SampleBody.foliageTransactionBlock
  transactionsInfo := body.map SampleBody.info
  transactionsGenerator := body.bind SampleBody.generator
  transactionsGeneratorRefList := (body.map SampleBody.refs).getD []

def spendOf (coin : Coin) (conditions : List SExp) : SExp :=
  .ofList [.atom coin.parentCoinInfo.toBytes, .atom coin.puzzleHash.toBytes,
    .atom (intToBytes coin.amount), .ofList conditions]

lemma zero_lt_limit : 0 < 2 ^ 32 := by decide

lemma one_lt_limit : 1 < 2 ^ 32 := by decide

lemma two_lt_limit : 2 < 2 ^ 32 := by decide

def sampleGenesis : FullBlock :=
  let challenge := DEFAULT_CONSTANTS.genesisChallenge
  sampleBlock 0 7 zero_lt_limit challenge false 0
    (some ⟨challenge, 1650000000, none, [], [], [], 0, 0⟩)

def sampleSecond : FullBlock :=
  let genesis := sampleGenesis.headerHash sampleHash
  sampleBlock 1 14 one_lt_limit genesis false 1
    (some ⟨genesis, 1650000001, none, [], [], [samplePoolCoin 0, sampleFarmerCoin 0 0], 0, 0⟩)

def receiveAll (env : Env) (blocks : List FullBlock) : Node :=
  (exec (blocks.forM fun block => do let _ ← receiveBlock env block none none) (Node.new 100 100)).2

/-- A block that states a cost of one. -/
def costlySecond : FullBlock :=
  let genesis := sampleGenesis.headerHash sampleHash
  sampleBlock 1 14 one_lt_limit genesis false 1
    (some ⟨genesis, 1650000001, none, [], [], [samplePoolCoin 0, sampleFarmerCoin 0 0], 1, 0⟩)

theorem rejected_block_leaves_chain_costly : let env := sampleEnv fun _ _ => none
    let s := receiveAll env [sampleGenesis]
    s.blockRecords.contains (sampleGenesis.headerHash sampleHash) = true ∧
      ∃ s', exec (receiveBlock env costlySecond none none) s = (.ok (.INVALID_BLOCK, some .INVALID_BLOCK_COST, none), s') ∧
        Reads env s s' := by
  have hrun : (receiveAll (sampleEnv fun _ _ => none) [sampleGenesis]).blockRecords.contains
        (sampleGenesis.headerHash sampleHash) = true ∧
      (exec (receiveBlock (sampleEnv fun _ _ => none) costlySecond none none)
        (receiveAll (sampleEnv fun _ _ => none) [sampleGenesis])).1 =
          .ok (.INVALID_BLOCK, some .INVALID_BLOCK_COST, none) := by
    decide +kernel
  exact ⟨hrun.1, _, exec_eq_of_fst hrun.2, rejected_block_leaves_chain _ _ _ _ _ _ _ _ _ (exec_eq_of_fst hrun.2) rfl⟩

end SectorChain.Proofs
