import SectorChain.Proofs.BodyChecks
import SectorChain.Proofs.ConditionModes

/-!
# The two ways to validate a block

Only pre-validation parses in safe mode and checks the filter.
-/

namespace SectorChain.Proofs

open Lib List

/-- From `s` on, with this generator result, the block passes body validation and is added. -/
def AcceptsFrom (env : Env) (block : FullBlock) (forkPoint : Option ℕ) (npcResult : Option NPCResult)
    (requiredIters : ℕ) (s : Node) : Prop :=
  ∃ v s₁ fork s₂, exec (validateBodyAndRecord env block forkPoint npcResult requiredIters) s = (.ok v, s₁) ∧
    exec (addBlock env block v.2 forkPoint v.1) s₁ = (.ok fork, s₂)

def Accepts (env : Env) (block : FullBlock) (preValidationResult : Option PreValidationResult)
    (forkPoint : Option ℕ) (s : Node) : Prop :=
  ∃ result errorCode fork, (exec (receiveBlock env block preValidationResult forkPoint) s).1 =
    .ok (result, errorCode, fork) ∧ accepted result = true

variable {env : Env} {block : FullBlock} {forkPoint : Option ℕ} {s : Node}
variable {f : FoliageTransactionBlock} {item : BatchItem} {prevB : Option BlockRecord} {program : Bytes}
variable {blocks : BlockchainInterface} {diff req ssi : ℕ} {header : HeaderBlock}
  {npc : Option NPCResult} {r : Option BlockGenerator} {s' : Node}

lemma accepts_iff {pre : Option PreValidationResult} :
    Accepts env block pre forkPoint s ↔ checkConnected env s block = .ok none ∧
      ∃ npc req s₁, exec (generatorResultOf env block pre) s = (.ok (npc, req), s₁) ∧
        AcceptsFrom env block forkPoint npc req s₁ := by
  constructor
  · rintro ⟨result, errorCode, fork, hrun, haccepted⟩
    obtain ⟨hconnected, npc, blockRecord, s₁, hvalid, hadd⟩ := receiveBlock_accepted (Prod.ext hrun rfl) haccepted
    obtain ⟨⟨npcResult', req⟩, s₂, hgenerator, hbody⟩ := exec_bind_ok.mp hvalid
    exact ⟨hconnected, npcResult', req, s₂, hgenerator, _, _, _, _, hbody, hadd⟩
  rintro ⟨hconnected, npc, req, s₁, hgenerator, v, s₂, fork, s₃, hbody, hadd⟩
  have hvalid : exec (validateBlock env block pre forkPoint) s = (.ok v, s₂) := by
    unfold validateBlock
    rw [exec_bind_of_ok hgenerator]
    exact hbody
  have hsettle : exec (settle (some <$> validateBlock env block pre forkPoint)) s = (.ok (none, some v), s₂) := by
    rw [settle_ok, map_eq_pure_bind, exec_bind_of_ok hvalid, exec_pure]
  have hadded : exec (addValidated env block forkPoint (none, some v)) s₂ =
      (.ok (if fork.isSome then (.NEW_PEAK, none, fork) else (.ADDED_AS_ORPHAN, none, none)), s₃) := by
    unfold addValidated
    rw [exec_bind_of_ok hadd]
    cases fork <;> rfl
  unfold Accepts receiveBlock
  rw [exec_get_bind, hconnected, exec_lift_ok_bind]
  rw [exec_bind_of_ok hsettle, hadded]
  cases fork with
  | none => exact ⟨_, _, _, rfl, rfl⟩
  | some fork => exact ⟨_, _, _, rfl, rfl⟩

lemma AcceptsFrom.generator (h : AcceptsFrom env block forkPoint npc req s)
    (hprogram : block.transactionsGenerator = some program) :
    block.isTransactionBlock = true ∧ block.transactionsInfo.isSome = true ∧
      ∃ result, npc = some result ∧ result.error = none := by
  obtain ⟨v, s₁, fork, s₂, hbody, -⟩ := h
  obtain ⟨peak, r, hbody⟩ := validateBodyAndRecord_ok hbody
  rcases validateBlockBody_ok hbody with ⟨-, -, hnone⟩ | ⟨b, hb⟩
  · rw [hprogram] at hnone
    cases hnone
  refine ⟨?_, ?_, ?_⟩
  · unfold FullBlock.isTransactionBlock
    rw [hb.foliageTransactionBlock]
    rfl
  · rw [hb.info]
    rfl
  · rcases checkNpcResult_ok hb.npcList.choose_spec with ⟨hnone, -, -⟩ | ⟨_, result, -, hresult, herror, -⟩
    · rw [hprogram] at hnone
      cases hnone
    · exact ⟨result, hresult, herror⟩

lemma encodedFilter_congr (hfilter : FilterOfSet env.bip158) {additions additions' : List Coin}
    (h : ∀ c, c ∈ additions ↔ c ∈ additions') (removals : List Bytes32) :
    encodedFilter env additions removals = encodedFilter env additions' removals := by
  apply hfilter
  intro x
  simp only [mem_append, mem_map, h]

def FilterOk (env : Env) (block : FullBlock) (npcResult : Option NPCResult) : Prop :=
  ∃ headerBlock, headerOf env block npcResult = .ok headerBlock ∧ ∀ f, block.foliageTransactionBlock = some f →
      f.filterHash = env.stdHash headerBlock.transactionsFilter

lemma AcceptsFrom.filterOk (hfilter : FilterOfSet env.bip158) (h : AcceptsFrom env block forkPoint npc req s)
    (hnone : block.transactionsGenerator = none → npc = none) : FilterOk env block npc := by
  obtain ⟨v, s₁, fork, s₂, hbody, -⟩ := h
  obtain ⟨peak, r, hbody⟩ := validateBodyAndRecord_ok hbody
  rcases validateBlockBody_ok hbody with ⟨hfoliage, -, hprogram⟩ | ⟨b, hb⟩
  · rw [hnone hprogram]
    unfold FilterOk headerOf getBlockHeader FullBlock.getIncludedRewardCoins
      FullBlock.isTransactionBlock
    rw [hfoliage]
    exact ⟨_, rfl, fun f hf => by cases hf⟩
  have htx := txOfResult_of_checkNpcResult hb.npcList.choose_spec hb.additions
  unfold FilterOk headerOf getBlockHeader FullBlock.getIncludedRewardCoins
    FullBlock.isTransactionBlock
  rw [htx, hb.foliageTransactionBlock, hb.info]
  refine ⟨_, rfl, fun f hf => ?_⟩
  cases hf
  rw [← hb.filterHash]
  apply congrArg
  apply encodedFilter_congr hfilter
  intro coin
  have hclaims := sameSet_iff.mp hb.claims coin
  simp only [mem_append, mem_dedup, hclaims]

lemma checkFoliageTransactionBlock_filter (hfilter : f.filterHash = env.stdHash header.transactionsFilter) :
    checkFoliageTransactionBlock env blocks header true prevB f =
      checkFoliageTransactionBlock env blocks header false prevB f := by
  unfold checkFoliageTransactionBlock
  simp [hfilter, require]

lemma checkFoliageTransactionBlock_filterHash {u : Unit}
    (h : checkFoliageTransactionBlock env blocks header true prevB f = .ok u) :
    f.filterHash = env.stdHash header.transactionsFilter := by
  unfold checkFoliageTransactionBlock at h
  simp only [if_true, bind_eq_ok, require_ok, decide_eq_true_eq] at h
  obtain ⟨_, -, _, -, _, hfilter, -⟩ := h
  exact hfilter

lemma headerOf_foliageTransactionBlock (h : headerOf env block npc = .ok header) :
    header.foliageTransactionBlock = block.foliageTransactionBlock := by
  unfold headerOf getBlockHeader at h
  simp only [bind_eq_ok] at h
  obtain ⟨_, -, _, -, h⟩ := h
  cases h
  rfl

lemma validateHeader_filter (hfilter : FilterOk env block npc) :
    validateHeader env blocks block npc true diff ssi = validateHeader env blocks block npc false diff ssi := by
  obtain ⟨header, hheader, hfilter⟩ := hfilter
  unfold validateHeader
  rw [hheader]
  change validateFinishedHeaderBlock env blocks header true diff ssi =
    validateFinishedHeaderBlock env blocks header false diff ssi
  apply congrArg (· >>= _)
  unfold validateUnfinishedHeaderBlock checkFoliagePresence
  rw [headerOf_foliageTransactionBlock hheader]
  cases hf : block.foliageTransactionBlock with
  | none => rfl
  | some f => simp only [checkFoliageTransactionBlock_filter (hfilter f hf)]

lemma filterOk_of_validateHeader (h : validateHeader env blocks block npc true diff ssi = .ok req) :
    FilterOk env block npc := by
  obtain ⟨header, hheader, h⟩ := bind_eq_ok.mp h
  rw [orRaise_ok] at hheader
  refine ⟨header, hheader, fun f hf => ?_⟩
  obtain ⟨_, h, -⟩ := bind_eq_ok.mp h
  unfold validateUnfinishedHeaderBlock checkFoliagePresence at h
  rw [headerOf_foliageTransactionBlock hheader, hf] at h
  simp only [bind_eq_ok] at h
  obtain ⟨_, -, _, -, _, -, _, -, _, -, _, -, _, ⟨_, -, _, -, hfoliage⟩, -⟩ := h
  exact checkFoliageTransactionBlock_filterHash hfoliage

/-- A worker with the records of the chain comes to the same end as the chain. -/
lemma validateHeader_workerBlocks (s : Node) (checkFilter : Bool) :
    validateHeader env (workerBlocks s.blockRecords) block npc checkFilter diff ssi =
      validateHeader env s.blocks block npc checkFilter diff ssi := by
  have h : (workerBlocks s.blockRecords).blockRecords = s.blocks.blockRecords := rfl
  generalize workerBlocks s.blockRecords = blocks, s.blocks = blocks' at h ⊢
  have hrecord : blocks.blockRecord = blocks'.blockRecord := by
    unfold BlockchainInterface.blockRecord
    rw [h]
  have hlast : blocks.lastTransactionBlock = blocks'.lastTransactionBlock := by
    funext fuel curr
    induction fuel generalizing curr with
    | zero => rfl
    | succ fuel ih => simp only [BlockchainInterface.lastTransactionBlock, hrecord, ih]
  have hcheck : checkIsTransactionBlock env blocks = checkIsTransactionBlock env blocks' := by
    funext header ssi prevB
    cases prevB <;> simp only [checkIsTransactionBlock, hlast, h]
  have hprev : checkPrevTransactionBlock env blocks = checkPrevTransactionBlock env blocks' := by
    funext f prevB
    cases prevB <;> simp only [checkPrevTransactionBlock, hlast]
  have htimestamp : checkTimestamp blocks = checkTimestamp blocks' := by
    funext f prevB
    cases prevB <;> simp only [checkTimestamp, hrecord]
  simp only [validateHeader, validateFinishedHeaderBlock, validateUnfinishedHeaderBlock, checkFoliagePresence,
    checkFoliageTransactionBlock, checkHeightAndWeight, BlockchainInterface.tryBlockRecord, h, hrecord, hcheck, hprev,
    htimestamp]

lemma getBlockGenerator_program {additionalBlocks : Dict Bytes32 FullBlock}
    (h : exec (getBlockGenerator block additionalBlocks) s = (.ok r, s')) :
    r.map BlockGenerator.program = block.transactionsGenerator := by
  unfold getBlockGenerator at h
  cases hprogram : block.transactionsGenerator with
  | none =>
    rw [hprogram] at h
    simp only [exec_bind_ok, exec_lift_eq] at h
    obtain ⟨_, _, -, h⟩ := h
    cases h
    rfl
  | some program =>
    rw [hprogram] at h
    dsimp only at h
    split at h
    · cases h
      rfl
    simp only [exec_get_bind, exec_bind_ok, exec_lift_eq] at h
    obtain ⟨mainChain, _, -, h⟩ := h
    split at h
    · obtain ⟨args, _, -, h⟩ := exec_bind_ok.mp h
      cases h
      rfl
    · obtain ⟨chain, _, -, h⟩ := exec_bind_ok.mp h
      obtain ⟨args, _, -, h⟩ := exec_bind_ok.mp h
      cases h
      rfl

lemma tryGetGenerator_some :
    exec (tryGetGenerator block) s = (.ok (some r), s') ↔ exec (getGenerator block) s = (.ok r, s') := by
  unfold tryGetGenerator
  rw [exec_tryCatch, map_eq_pure_bind, exec_bind]
  rcases exec (getGenerator block) s with ⟨e | r', s₁⟩
  · cases e <;> simp
  · simp

lemma getGenerator_none (hnone : block.transactionsGenerator = none) :
    exec (getGenerator block) s = (.ok r, s') ↔ block.transactionsGeneratorRefList = [] ∧ r = none ∧ s = s' := by
  unfold getGenerator getBlockGenerator
  rw [hnone]
  simp only [exec_bind_ok, exec_lift_eq, pyAssert_ok, exec_pure, Prod.mk.injEq, Except.ok.injEq,
    decide_eq_true_eq, length_eq_zero_iff]
  constructor
  · rintro ⟨_, _, ⟨hrefs, rfl⟩, rfl, rfl⟩
    exact ⟨hrefs, rfl, rfl⟩
  · rintro ⟨hrefs, rfl, rfl⟩
    exact ⟨(), s, ⟨hrefs, rfl⟩, rfl, rfl⟩

def resultOf (env : Env) (generator : BlockGenerator) (info : TransactionsInfo) (safeMode : Bool) :
    NPCResult :=
  getNamePuzzleConditions env generator (min env.constants.maxBlockCostClvm info.cost) safeMode

lemma runGeneratorOf_some
    (htx : block.isTransactionBlock = true) (hprogram : block.transactionsGenerator = some program) :
    exec (runGeneratorOf env block) s = (.ok (.ok npc), s') ↔
      ∃ gen info, exec (getGenerator block) s = (.ok (some gen), s') ∧
        block.transactionsInfo = some info ∧ npc = some (resultOf env gen info false) := by
  unfold runGeneratorOf
  rw [htx, hprogram]
  simp only [Option.isSome_some, Bool.and_self, if_true]
  rw [exec_bind_ok]
  constructor
  · rintro ⟨_ | gen, s₁, hgenerator, h⟩
    · cases h
    · simp only [exec_bind_ok, exec_lift_eq, assertSome_ok] at h
      obtain ⟨gen, _, ⟨rfl, rfl⟩, info, _, ⟨hinfo, rfl⟩, h⟩ := h
      cases h
      exact ⟨gen, info, tryGetGenerator_some.mp hgenerator, hinfo, rfl⟩
  · rintro ⟨gen, info, hgenerator, hinfo, rfl⟩
    refine ⟨some (some gen), s', tryGetGenerator_some.mpr hgenerator, ?_⟩
    rw [hinfo]
    rfl

lemma runGeneratorOf_none (hprogram : block.transactionsGenerator = none) :
    exec (runGeneratorOf env block) s = (.ok (.ok none), s) := by
  unfold runGeneratorOf
  rw [hprogram]
  simp

lemma validateDirectly_ok : exec (validateDirectly env block) s = (.ok (npc, req), s') ↔ ∃ ssi diff,
        nextSubSlotItersAndDifficulty env s.blocks block = .ok (ssi, diff) ∧
        exec (runGeneratorOf env block) s = (.ok (.ok npc), s') ∧
        validateHeader env s.blocks block npc false diff ssi = .ok req := by
  unfold validateDirectly
  rw [exec_get_bind]
  simp only [exec_lift_eq, orRaise_ok, exec_bind_ok, raising_ok]
  constructor
  · rintro ⟨⟨ssi, diff⟩, _, ⟨hnext, rfl⟩, code | npcResult', s₁, hrun, h⟩
    · cases h
    · simp only [exec_bind_ok, exec_lift_eq] at h
      obtain ⟨requiredIters', _, ⟨hheader, rfl⟩, h⟩ := h
      cases h
      exact ⟨ssi, diff, hnext, hrun, hheader⟩
  rintro ⟨ssi, diff, hnext, hrun, hheader⟩
  refine ⟨(ssi, diff), s, ⟨hnext, rfl⟩, .ok npc, s', hrun, ?_⟩
  dsimp only
  rw [hheader]
  rfl

lemma batchItem_ok : exec (batchItem env block) s = (.ok (some item), s') ↔ ∃ ssi diff gen,
        nextSubSlotItersAndDifficulty env s.blocks block = .ok (ssi, diff) ∧
        exec (getGenerator block) s = (.ok gen, s') ∧
        item = ⟨block, gen, diff, ssi⟩ := by
  unfold batchItem
  rw [exec_get_bind]
  simp only [exec_lift_eq, exec_bind_ok]
  constructor
  · rintro ⟨⟨ssi, diff⟩, _, ⟨hnext, rfl⟩, _ | gen, s₁, hgenerator, h⟩
    · cases h
    · cases h
      exact ⟨ssi, diff, gen, hnext, tryGetGenerator_some.mp hgenerator, rfl⟩
  · rintro ⟨ssi, diff, gen, hnext, hgenerator, rfl⟩
    exact ⟨(ssi, diff), s, ⟨hnext, rfl⟩, some gen, s', tryGetGenerator_some.mpr hgenerator, rfl⟩

lemma batchPreValidateBlock_ok {recent : Dict Bytes32 BlockRecord} {req : Option ℕ} :
    batchPreValidateBlock env recent .empty true item = ⟨none, req, npc⟩ ↔
      batchNpcResult env .empty item = .ok npc ∧ ∃ iters, req = some iters ∧
        validateHeader env (workerBlocks recent) item.block npc true
          item.expectedDifficulty item.expectedSubSlotIters = .ok iters := by
  unfold batchPreValidateBlock
  cases batchNpcResult env .empty item with
  | error e => simp
  | ok npcResult' =>
    dsimp only
    constructor
    · intro h
      split at h
      · rename_i iters hheader
        cases h
        exact ⟨rfl, iters, rfl, hheader⟩
      · cases h
      · cases h
    · rintro ⟨h, iters, rfl, hheader⟩
      cases h
      rw [hheader]

/-- Pre-validation and the call with its result return that the block was added. -/
def AcceptsPreValidated (env : Env) (recentBlocks : Dict Bytes32 BlockRecord) (block : FullBlock)
    (forkPoint : Option ℕ) (s : Node) : Prop :=
  ∃ result errorCode fork, (exec (preValidateAndReceive env recentBlocks block forkPoint) s).1 =
    .ok (some (result, errorCode, fork)) ∧ accepted result = true

def directNpcList (env : Env) (block : FullBlock) (s : Node) : Option (List NPC) :=
  match (exec (validateDirectly env block) s).1 with
  | .ok (npcResult, _) => npcResult.map NPCResult.npcList
  | .error _ => none

def preValidatedNpcList (env : Env) (recentBlocks : Dict Bytes32 BlockRecord) (block : FullBlock)
    (s : Node) : Option (List NPC) :=
  match (exec (batchItem env block) s).1 with
  | .ok (some item) =>
    (batchPreValidateBlock env recentBlocks .empty true item).npcResult.map NPCResult.npcList
  | _ => none

/-- Both ways accept or none does, and with the same spends. -/
def PathsAgree (env : Env) (recentBlocks : Dict Bytes32 BlockRecord) (block : FullBlock)
    (forkPoint : Option ℕ) (s : Node) : Prop :=
  (AcceptsPreValidated env recentBlocks block forkPoint s ↔ Accepts env block none forkPoint s) ∧
  (Accepts env block none forkPoint s → preValidatedNpcList env recentBlocks block s = directNpcList env block s)

/-- The output is strict, and without a generator there are no references. -/
def StrictBlock (env : Env) (block : FullBlock) (s : Node) : Prop :=
  (block.transactionsGenerator = none → block.transactionsGeneratorRefList = []) ∧
  ∀ generator info s', exec (getGenerator block) s = (.ok (some generator), s') → block.transactionsInfo = some info →
    strictGenerator env generator (min env.constants.maxBlockCostClvm info.cost) = true

variable {recent : Dict Bytes32 BlockRecord}

lemma acceptsPreValidated_iff : AcceptsPreValidated env recent block forkPoint s ↔
      ∃ item s₁ npc req, exec (batchItem env block) s = (.ok (some item), s₁) ∧
        checkConnected env s₁ block = .ok none ∧
        batchPreValidateBlock env recent .empty true item = ⟨none, some req, npc⟩ ∧
        AcceptsFrom env block forkPoint npc req s₁ := by
  have hreceive : ∀ item s₁, Accepts env block
      (batchPreValidateBlocks env recent .empty true [item]).head? forkPoint s₁ ↔
      checkConnected env s₁ block = .ok none ∧ ∃ npc req,
        batchPreValidateBlock env recent .empty true item = ⟨none, some req, npc⟩ ∧
        AcceptsFrom env block forkPoint npc req s₁ := by
    intro item s₁
    rw [accepts_iff]
    apply and_congr_right
    intro _
    unfold generatorResultOf batchPreValidateBlocks
    simp only [map_cons, map_nil, head?_cons, exec_lift_eq]
    unfold usePreValidation
    rcases batchPreValidateBlock env recent .empty true item with ⟨error, iters, npc'⟩
    simp only [bind_eq_ok, orRaise_ok, pyAssert_ok, assertSome_ok, Option.isNone_iff_eq_none,
      except_pure, Except.ok.injEq, Prod.mk.injEq, PreValidationResult.mk.injEq]
    constructor
    · rintro ⟨npc, req, _, ⟨⟨_, rfl, _, rfl, rfl, rfl⟩, rfl⟩, haccepts⟩
      exact ⟨npc', _, ⟨rfl, rfl, rfl⟩, haccepts⟩
    · rintro ⟨npc, req, ⟨rfl, rfl, rfl⟩, haccepts⟩
      exact ⟨npc', req, s₁, ⟨⟨(), rfl, req, rfl, rfl, rfl⟩, rfl⟩, haccepts⟩
  constructor
  · rintro ⟨result, errorCode, fork, hrun, haccepted⟩
    have hrun' : exec (preValidateAndReceive env recent block forkPoint) s =
        (.ok (some (result, errorCode, fork)), _) := Prod.ext hrun rfl
    obtain ⟨_ | item, s₁, hitem, h⟩ := exec_bind_ok.mp hrun'
    · cases h
    obtain ⟨r, s₂, hcall, h⟩ := exec_bind_ok.mp h
    cases h
    have haccepts : Accepts env block
        (batchPreValidateBlocks env recent .empty true [item]).head? forkPoint s₁ :=
      ⟨result, errorCode, fork, by rw [hcall], haccepted⟩
    obtain ⟨hconnected, npc, req, hpre, hfrom⟩ := (hreceive item s₁).mp haccepts
    exact ⟨item, s₁, npc, req, hitem, hconnected, hpre, hfrom⟩
  · rintro ⟨item, s₁, npc, req, hitem, hconnected, hpre, hfrom⟩
    obtain ⟨result, errorCode, fork, hcall, haccepted⟩ := (hreceive item s₁).mpr ⟨hconnected, npc, req, hpre, hfrom⟩
    refine ⟨result, errorCode, fork, ?_, haccepted⟩
    unfold preValidateAndReceive
    rw [exec_bind_of_ok hitem]
    dsimp only
    rw [map_eq_pure_bind, exec_bind_of_ok (Prod.ext hcall rfl)]
    rfl

lemma checkConnected_reads (h : Reads env s s') : checkConnected env s' block = checkConnected env s block := by
  unfold checkConnected
  rw [h.blockRecords, h.blocks]

lemma batchNpcResult_ok {gen : Option BlockGenerator}
    (hprogram : gen.map BlockGenerator.program = block.transactionsGenerator) :
    batchNpcResult env .empty ⟨block, gen, diff, ssi⟩ = .ok npc ↔ (gen = none ∧ npc = none) ∨
      ∃ g info, gen = some g ∧ block.transactionsInfo = some info ∧ npc = some (resultOf env g info true) := by
  unfold batchNpcResult
  simp only [Dict.get?_empty]
  cases gen with
  | none =>
    rw [← hprogram]
    simp [eq_comm]
  | some g =>
    rw [Option.map_some] at hprogram
    rw [← hprogram]
    cases hinfo : block.transactionsInfo with
    | none => simp [assertSome]
    | some info =>
      simp only [assertSome, ok_bind, decide_true, pyAssert_true, except_pure, Except.ok.injEq,
        Option.some.injEq, reduceCtorEq, false_and, false_or]
      constructor
      · rintro rfl
        exact ⟨g, info, rfl, rfl, rfl⟩
      · rintro ⟨_, _, rfl, rfl, rfl⟩
        rfl

def SameResults (env : Env) (recentBlocks : Dict Bytes32 BlockRecord) (block : FullBlock)
    (forkPoint : Option ℕ) (s : Node) : Prop :=
  checkConnected env s block = .ok none ∧ ∃ item npcResult requiredIters s₁,
    exec (validateDirectly env block) s = (.ok (npcResult, requiredIters), s₁) ∧
    exec (batchItem env block) s = (.ok (some item), s₁) ∧
    batchPreValidateBlock env recentBlocks .empty true item = ⟨none, some requiredIters, npcResult⟩ ∧
    AcceptsFrom env block forkPoint npcResult requiredIters s₁

lemma keeps_batchItem (env : Env) (block : FullBlock) : Keeps (Reads env) (batchItem env block) := by
  apply keeps_get_bind
  intro s
  apply keeps_lift_bind
  rintro ⟨ssi, diff⟩
  apply keeps_bind (keeps_tryGetGenerator env block)
  rintro (_ | gen)
  · exact keeps_pure _
  · exact keeps_pure _

lemma SameResults.agree (h : SameResults env recent block forkPoint s) :
    Accepts env block none forkPoint s ∧ AcceptsPreValidated env recent block forkPoint s ∧
      preValidatedNpcList env recent block s = directNpcList env block s := by
  obtain ⟨hconnected, item, npc, req, s₁, hdirect, hitem, hpre, hfrom⟩ := h
  refine ⟨accepts_iff.mpr ⟨hconnected, npc, req, s₁, hdirect, hfrom⟩,
    acceptsPreValidated_iff.mpr ⟨item, s₁, npc, req, hitem, ?_, hpre, hfrom⟩, ?_⟩
  · rw [checkConnected_reads ((keeps_batchItem env block).rel hitem), hconnected]
  · unfold preValidatedNpcList directNpcList
    rw [hitem, hdirect]
    dsimp only
    rw [hpre]

section Agreement

variable
  -- the CLVM run is one function of generator, references and cost limit
  (hrun : ∀ maxCost program args,
    env.runGenerator true maxCost program args = env.runGenerator false maxCost program args)
  (hfilter : FilterOfSet env.bip158)

include hrun in
lemma resultOf_safe (gen : BlockGenerator) (info : TransactionsInfo) :
    ((resultOf env gen info true).error = none ↔ (resultOf env gen info false).error = none ∧
        strictGenerator env gen (min env.constants.maxBlockCostClvm info.cost) = true) ∧
    ((resultOf env gen info true).error = none → resultOf env gen info true = resultOf env gen info false) :=
  getNamePuzzleConditions_safe env gen _ (hrun _ _ _)

include hrun in
lemma AcceptsPreValidated.sameResults (h : AcceptsPreValidated env s.blockRecords block forkPoint s) :
    StrictBlock env block s ∧ SameResults env s.blockRecords block forkPoint s := by
  obtain ⟨item, s₁, npc, req, hitem, hconnected, hpre, hfrom⟩ := acceptsPreValidated_iff.mp h
  rw [checkConnected_reads ((keeps_batchItem env block).rel hitem)] at hconnected
  obtain ⟨ssi, diff, gen, hnext, hgenerator, rfl⟩ := batchItem_ok.mp hitem
  obtain ⟨hnpc, _, heq, hheader⟩ := batchPreValidateBlock_ok.mp hpre
  cases heq
  rw [validateHeader_workerBlocks] at hheader
  have hheader' := hheader
  rw [validateHeader_filter (filterOk_of_validateHeader hheader)] at hheader'
  have hprogram := getBlockGenerator_program hgenerator
  have hsame : ∀ r, exec (runGeneratorOf env block) s = (.ok (.ok r), s₁) → r = npc →
      SameResults env s.blockRecords block forkPoint s := by
    rintro r hr rfl
    exact ⟨hconnected, _, r, req, s₁, validateDirectly_ok.mpr ⟨ssi, diff, hnext, hr, hheader'⟩, hitem, hpre, hfrom⟩
  rcases (batchNpcResult_ok hprogram).mp hnpc with ⟨rfl, rfl⟩ | ⟨g, info, rfl, hinfo, rfl⟩
  · have hnone : block.transactionsGenerator = none := hprogram.symm
    obtain ⟨hrefs, -, rfl⟩ := (getGenerator_none hnone).mp hgenerator
    refine ⟨⟨fun _ => hrefs, fun g info s' hg => ?_⟩, hsame none (runGeneratorOf_none hnone) rfl⟩
    rw [hgenerator] at hg
    cases hg
  have hsome : block.transactionsGenerator = some g.program := hprogram.symm
  obtain ⟨htx, -, _, heq, herror⟩ := hfrom.generator hsome
  cases heq
  have hsafe := resultOf_safe hrun g info
  refine ⟨⟨fun hnone => ?_, fun g' info' s' hg hinfo' => ?_⟩, ?_⟩
  · rw [hsome] at hnone
    cases hnone
  · rw [hgenerator] at hg
    cases hg
    rw [hinfo] at hinfo'
    cases hinfo'
    exact (hsafe.1.mp herror).2
  · apply hsame (some (resultOf env g info false))
    · exact (runGeneratorOf_some htx hsome).mpr ⟨g, info, hgenerator, hinfo, rfl⟩
    · rw [hsafe.2 herror]

include hrun hfilter in
lemma Accepts.sameResults (h : Accepts env block none forkPoint s) (hstrict : StrictBlock env block s) :
    SameResults env s.blockRecords block forkPoint s := by
  obtain ⟨hconnected, npc, req, s₁, hdirect, hfrom⟩ := accepts_iff.mp h
  obtain ⟨ssi, diff, hnext, hresult, hheader⟩ := validateDirectly_ok.mp hdirect
  have hsame : ∀ gen, exec (getGenerator block) s = (.ok gen, s₁) →
      (block.transactionsGenerator = none → npc = none) →
      batchNpcResult env .empty ⟨block, gen, diff, ssi⟩ = .ok npc →
      SameResults env s.blockRecords block forkPoint s := by
    intro gen hgenerator hnone hnpc
    refine ⟨hconnected, _, npc, req, s₁, hdirect,
      batchItem_ok.mpr ⟨ssi, diff, gen, hnext, hgenerator, rfl⟩, ?_, hfrom⟩
    refine batchPreValidateBlock_ok.mpr ⟨hnpc, req, rfl, ?_⟩
    rw [validateHeader_workerBlocks, validateHeader_filter (hfrom.filterOk hfilter hnone)]
    exact hheader
  cases hprogram : block.transactionsGenerator with
  | none =>
    rw [runGeneratorOf_none hprogram] at hresult
    cases hresult
    have hgenerator : exec (getGenerator block) s = (.ok none, s) :=
      (getGenerator_none hprogram).mpr ⟨hstrict.1 hprogram, rfl, rfl⟩
    apply hsame none hgenerator (fun _ => rfl)
    exact (batchNpcResult_ok (getBlockGenerator_program hgenerator)).mpr (.inl ⟨rfl, rfl⟩)
  | some program =>
    obtain ⟨htx, -, _, hsome, herror⟩ := hfrom.generator hprogram
    obtain ⟨g, info, hgenerator, hinfo, heq⟩ := (runGeneratorOf_some htx hprogram).mp hresult
    rw [heq] at hsome
    cases hsome
    have hsafe := resultOf_safe hrun g info
    have herror' := hsafe.1.mpr ⟨herror, hstrict.2 g info s₁ hgenerator hinfo⟩
    apply hsame (some g) hgenerator
    · intro hnone
      rw [hprogram] at hnone
      cases hnone
    · apply (batchNpcResult_ok (getBlockGenerator_program hgenerator)).mpr
      exact .inr ⟨g, info, rfl, hinfo, by rw [heq, hsafe.2 herror']⟩

end Agreement

/-- CLVM with two programs. One adds a condition with an opcode that does not exist. -/
def spendingRun (program : Bytes) (_ : SExp) : Option (ℕ × SExp) :=
  if program = [5] then some (100, .ofList [.ofList [spendOf (samplePoolCoin 0) [.ofList [.atom [7]]]]])
  else if program = [6] then some (100, .ofList [.ofList [spendOf (samplePoolCoin 0) []]])
  else none

def spendingBlock (program : Bytes) : FullBlock :=
  let prev := sampleSecond.headerHash sampleHash
  sampleBlock 2 21 two_lt_limit prev false 2 (some {
    prevTransactionBlockHash := prev
    timestamp := 1650000002
    generator := some program
    refs := []
    removals := [(samplePoolCoin 0).name sampleHash]
    rewards := [samplePoolCoin 1, sampleFarmerCoin 1 0]
    cost := 12100
    fees := (samplePoolCoin 0).amount })

end SectorChain.Proofs
