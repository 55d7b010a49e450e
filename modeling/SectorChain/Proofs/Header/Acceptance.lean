import SectorChain.Proofs.Header.SubEpochs

/-!
# What an accepted header satisfies

The validators accept exactly if each of their parts does.
-/

namespace SectorChain.Header

open Lib Check Blocks Option

variable {env : HeaderEnv} {now : ℕ} {blocks : Blocks} {checkFilter : Bool} {ssi diff req : ℕ}
  {tip record : BlockRecord} {older : List BlockRecord} {block : HeaderBlock}
variable {chain : List BlockRecord} {ipIters : ℕ} {rcb : RewardChainBlockUnfinished}
variable {hb : UnfinishedHeaderBlock} {iters : Iters} {n : ℕ} {overflow : Bool} {u : Unit}

structure UnfinishedAccepted (env : HeaderEnv) (now : ℕ) (blocks : Blocks) (hb : UnfinishedHeaderBlock) (checkFilter : Bool)
    (difficulty ssi req : ℕ) (ctx : Context) (ccSpHash : Bytes32) (iters : Iters) : Prop where
  context : Accepts (validationContext env blocks hb difficulty ssi false) ctx
  slots : Accepts (checkFinishedSubSlots env blocks ctx hb false true) ()
  numBlocks : Accepts (checkNumBlocks blocks ctx) ()
  proofOfSpace : Accepts (checkProofOfSpace env blocks ctx hb) (req, ccSpHash)
  checkedIters : Accepts (checkIters ctx hb req) iters
  signagePoint : Accepts (checkSignagePoint env blocks ctx false hb ccSpHash iters) ()
  isTransactionBlock : Accepts (checkIsTransactionBlock blocks ctx hb.foliage iters) ()
  plotSignatures : Accepts (checkPlotSignatures env hb) ()
  pool : Accepts (checkPool env ctx hb) ()
  foliageTransactionBlock : Accepts (checkFoliageTransactionBlock env now blocks ctx checkFilter hb) ()

lemma accepts_unfinished_iff :
    Accepts (validateUnfinishedHeaderBlock env now blocks hb checkFilter diff ssi false false true) req ↔
      ∃ ctx ccSpHash iters, UnfinishedAccepted env now blocks hb checkFilter diff ssi req ctx ccSpHash iters := by
  constructor
  · intro h
    obtain ⟨ctx, hctx, h⟩ := accepts_bind.mp h
    obtain ⟨⟨⟩, hslots, h⟩ := accepts_bind.mp h
    obtain ⟨⟨⟩, hnum, h⟩ := accepts_bind.mp h
    obtain ⟨⟨req', ccSpHash⟩, hpos, h⟩ := accepts_bind.mp h
    obtain ⟨iters, hiters, h⟩ := accepts_bind.mp h
    obtain ⟨⟨⟩, hsp, h⟩ := accepts_bind.mp h
    obtain ⟨⟨⟩, htx, h⟩ := accepts_bind.mp h
    obtain ⟨⟨⟩, hplot, h⟩ := accepts_bind.mp h
    obtain ⟨⟨⟩, hpool, h⟩ := accepts_bind.mp h
    obtain ⟨⟨⟩, hftb, h⟩ := accepts_bind.mp h
    obtain rfl := accepts_pure.mp h
    exact ⟨ctx, ccSpHash, iters, hctx, hslots, hnum, hpos, hiters, hsp, htx, hplot, hpool, hftb⟩
  · rintro ⟨ctx, ccSpHash, iters, h⟩
    refine accepts_bind.mpr ⟨ctx, h.context, accepts_bind.mpr ⟨(), h.slots, accepts_bind.mpr ⟨(), h.numBlocks, ?_⟩⟩⟩
    refine accepts_bind.mpr ⟨(req, ccSpHash), h.proofOfSpace, accepts_bind.mpr ⟨iters, h.checkedIters, ?_⟩⟩
    refine accepts_bind.mpr ⟨(), h.signagePoint, accepts_bind.mpr ⟨(), h.isTransactionBlock, ?_⟩⟩
    refine accepts_bind.mpr ⟨(), h.plotSignatures, accepts_bind.mpr ⟨(), h.pool, ?_⟩⟩
    exact accepts_bind.mpr ⟨(), h.foliageTransactionBlock, accepts_pure.mpr rfl⟩

lemma accepts_finished_iff :
    Accepts (validateFinishedHeaderBlock env now blocks block checkFilter diff ssi true) req ↔
      Accepts (validateUnfinishedHeaderBlock env now blocks block.unfinished checkFilter diff ssi false false true) req ∧
      Accepts (checkFinished env blocks block diff ssi req) () := by
  constructor
  · intro h
    obtain ⟨req', hunfinished, h⟩ := accepts_bind.mp h
    obtain ⟨⟨⟩, hfinished, h⟩ := accepts_bind.mp h
    obtain rfl := accepts_pure.mp h
    exact ⟨hunfinished, hfinished⟩
  · rintro ⟨hunfinished, hfinished⟩
    exact accepts_bind.mpr ⟨req, hunfinished, accepts_bind.mpr ⟨(), hfinished, accepts_pure.mpr rfl⟩⟩

def chainContext (tip : BlockRecord) (older : List BlockRecord) (overflow : Bool) (n difficulty ssi : ℕ) : Context where
  prevB := some tip
  overflow := overflow
  skipOverflowLastSsValidation := false
  finishedSubSlotsSincePrev := n
  canFinishSe := decide (0 < n) && canFinishSe tip older
  canFinishEpoch := decide (0 < n) && (canFinishSe tip older && epochAligned tip)
  height := tip.height + 1
  expectedDifficulty := difficulty
  expectedSubSlotIters := ssi

def genesisContext (overflow : Bool) (n : ℕ) : Context where
  prevB := none
  overflow := overflow
  skipOverflowLastSsValidation := false
  finishedSubSlotsSincePrev := n
  canFinishSe := false
  canFinishEpoch := false
  height := 0
  expectedDifficulty := DIFFICULTY_STARTING
  expectedSubSlotIters := SUB_SLOT_ITERS_STARTING

lemma isOverflowBlock_eq_ok {idx : ℕ} :
    isOverflowBlock idx = .ok overflow ↔ idx < 64 ∧ overflow = decide (61 ≤ idx) := by
  unfold isOverflowBlock
  by_cases hidx : idx ≥ NUM_SPS_SUB_SLOT
  · rw [if_pos hidx]
    exact ⟨fun h => (by cases h), fun h => absurd hidx (not_le.mpr h.1)⟩
  · rw [if_neg hidx, Except.ok.injEq]
    exact ⟨fun h => ⟨not_le.mp hidx, h.symm⟩, fun h => h.2.symm⟩

lemma canFinishAfter_eq (hknows : Knows blocks (tip :: older)) (hlinked : Linked (tip :: older))
    (hheight : tip.height + 1 < 2 ^ 32) (n : ℕ) : canFinishAfter blocks tip n =
      .ok (decide (0 < n) && canFinishSe tip older, decide (0 < n) && (canFinishSe tip older && epochAligned tip)) := by
  unfold canFinishAfter
  by_cases hn : n > 0
  · rw [canFinishSubAndFullEpoch_eq hknows hlinked hheight]
    simp [hn]
  · simp [Nat.eq_zero_of_not_pos hn]

lemma accepts_context_iff (hknows : Knows blocks (tip :: older)) (hlinked : Linked (tip :: older))
    (hprev : hb.prevHeaderHash = tip.headerHash) {ctx : Context} :
    Accepts (validationContext env blocks hb diff ssi false) ctx ↔
      hb.rewardChainBlock.signagePointIndex < 64 ∧ tip.height + 1 < 2 ^ 32 ∧
      ctx = chainContext tip older (61 ≤ hb.rewardChainBlock.signagePointIndex) hb.finishedSubSlots.length diff ssi := by
  have htry : blocks.tryBlockRecord hb.prevHeaderHash = some tip := by
    rw [hprev]
    exact hknows.records tip List.mem_cons_self
  unfold validationContext
  rw [htry, accepts_require_bind, accepts_lift_bind]
  simp only [isSome_some, Bool.true_or, true_and, isOverflowBlock_eq_ok]
  constructor
  · rintro ⟨overflow, ⟨hidx, rfl⟩, h⟩
    rw [accepts_lift_bind] at h
    obtain ⟨_, hslots, h⟩ := h
    cases hslots
    rw [accepts_lift_bind] at h
    obtain ⟨height, hheight, h⟩ := h
    obtain ⟨heq, hlt⟩ := uint32_eq_ok.mp hheight
    obtain rfl : height = tip.height + 1 := by exact_mod_cast heq.symm
    rw [canFinishAfter_eq hknows hlinked hlt, accepts_lift_bind] at h
    obtain ⟨_, hcan, h⟩ := h
    cases hcan
    exact ⟨hidx, hlt, (accepts_pure.mp h).symm⟩
  · rintro ⟨hidx, hlt, rfl⟩
    refine ⟨_, ⟨hidx, rfl⟩, ?_⟩
    rw [accepts_lift_bind]
    refine ⟨_, rfl, ?_⟩
    rw [accepts_lift_bind]
    refine ⟨tip.height + 1, uint32_eq_ok.mpr ⟨by push_cast; rfl, hlt⟩, ?_⟩
    rw [canFinishAfter_eq hknows hlinked hlt, accepts_lift_bind]
    exact ⟨_, rfl, accepts_pure.mpr rfl⟩

section Slots

variable {ctx : Context} {skip : Bool} {prevSlot : Option EndOfSubSlotBundle} {slot : EndOfSubSlotBundle}
  {slots : List EndOfSubSlotBundle} {ses ses' : Option Bytes32}

/-- The parts of the validation of one slot. -/
structure SlotAccepted (env : HeaderEnv) (blocks : Blocks) (ctx : Context) (skip : Bool)
    (prevSlot : Option EndOfSubSlotBundle) (slot : EndOfSubSlotBundle) (ses ses' : Option Bytes32) : Prop where
  challenge : Accepts (checkSlotChallenge env blocks ctx prevSlot slot) ()
  icc : Accepts (checkSlotIcc env blocks ctx skip prevSlot slot) ()
  summary : Accepts (checkSlotSummary env ctx prevSlot slot ses) ses'
  vdfs : Accepts (checkSlotVdfs env ctx skip prevSlot slot) ()
  deficit : Accepts (checkSlotDeficit ctx slot) ()

lemma accepts_checkSubSlot : Accepts (checkSubSlot env blocks ctx skip prevSlot slot ses) ses' ↔
      SlotAccepted env blocks ctx skip prevSlot slot ses ses' := by
  constructor
  · intro h
    obtain ⟨⟨⟩, hchallenge, h⟩ := accepts_bind.mp h
    obtain ⟨⟨⟩, hicc, h⟩ := accepts_bind.mp h
    obtain ⟨_, hsummary, h⟩ := accepts_bind.mp h
    obtain ⟨⟨⟩, hvdfs, h⟩ := accepts_bind.mp h
    obtain ⟨⟨⟩, hdeficit, h⟩ := accepts_bind.mp h
    obtain rfl := accepts_pure.mp h
    exact ⟨hchallenge, hicc, hsummary, hvdfs, hdeficit⟩
  · intro h
    refine accepts_bind.mpr ⟨(), h.challenge, accepts_bind.mpr ⟨(), h.icc, accepts_bind.mpr ⟨_, h.summary, ?_⟩⟩⟩
    exact accepts_bind.mpr ⟨(), h.vdfs, accepts_bind.mpr ⟨(), h.deficit, accepts_pure.mpr rfl⟩⟩

lemma accepts_checkSubSlots_cons : Accepts (checkSubSlots env blocks ctx skip prevSlot (slot :: slots) ses) ses' ↔
      ∃ next, SlotAccepted env blocks ctx skip prevSlot slot ses next ∧
        Accepts (checkSubSlots env blocks ctx skip (some slot) slots next) ses' := by
  rw [checkSubSlots, accepts_bind]
  simp only [accepts_checkSubSlot]

def laterSes (ses : Option Bytes32) (slot : EndOfSubSlotBundle) : Option Bytes32 :=
  if slot.challengeChain.subepochSummaryHash.isSome then slot.challengeChain.subepochSummaryHash else ses

/-- A slot has a summary only if it is the first one. -/
structure SummaryAccepted (env : HeaderEnv) (ctx : Context) (prevSlot : Option EndOfSubSlotBundle)
    (slot : EndOfSubSlotBundle) (ses : Option Bytes32) : Prop where
  unique : slot.challengeChain.subepochSummaryHash = none ∨ ses = none
  first : prevSlot = none ∨ slot.challengeChain.subepochSummaryHash = none
  newValues : Accepts (checkNewValues ctx slot.challengeChain) ()
  rewardChain : slot.challengeChain.getHash env = slot.rewardChain.challengeChainSubSlotHash

lemma accepts_checkSlotSummary : Accepts (checkSlotSummary env ctx prevSlot slot ses) ses' ↔
      SummaryAccepted env ctx prevSlot slot ses ∧ ses' = laterSes ses slot := by
  unfold checkSlotSummary
  rw [accepts_lift_bind]
  simp only [pyAssert_ok, accepts_bind, accepts_require, accepts_pure, Bool.or_eq_true, isNone_iff_eq_none,
    decide_eq_true_eq]
  constructor
  · rintro ⟨_, hunique, _, hfirst, _, hvalues, _, hreward, rfl⟩
    exact ⟨⟨hunique, hfirst, hvalues, hreward⟩, rfl⟩
  · rintro ⟨h, rfl⟩
    exact ⟨(), h.unique, (), h.first, (), h.newValues, (), h.rewardChain, rfl⟩

lemma checkSubSlots_ses (h : Accepts (checkSubSlots env blocks ctx skip prevSlot slots ses) ses') :
    ses' = slots.foldl laterSes ses := by
  induction slots generalizing prevSlot ses with
  | nil => exact (accepts_pure.mp h).symm
  | cons slot slots ih =>
    obtain ⟨next, hslot, h⟩ := accepts_checkSubSlots_cons.mp h
    obtain ⟨-, rfl⟩ := accepts_checkSlotSummary.mp hslot.summary
    exact ih h

lemma checkSubSlots_later (h : Accepts (checkSubSlots env blocks ctx skip (some slot) slots ses) ses') : ses' = ses := by
  induction slots generalizing slot ses with
  | nil => exact (accepts_pure.mp h).symm
  | cons slot' slots ih =>
    obtain ⟨next, hslot, h⟩ := accepts_checkSubSlots_cons.mp h
    obtain ⟨hsummary, rfl⟩ := accepts_checkSlotSummary.mp hslot.summary
    have hnone : slot'.challengeChain.subepochSummaryHash = none := hsummary.first.resolve_left (some_ne_none _)
    rw [ih h, laterSes, hnone]
    rfl

lemma foundSesHash_of_accepts (h : Accepts (checkSubSlots env blocks ctx skip none (slot :: slots) none) ses') :
    ses' = foundSesHash (slot :: slots) ∧ ses' = slot.challengeChain.subepochSummaryHash := by
  refine ⟨checkSubSlots_ses h, ?_⟩
  obtain ⟨next, hslot, h⟩ := accepts_checkSubSlots_cons.mp h
  obtain ⟨-, rfl⟩ := accepts_checkSlotSummary.mp hslot.summary
  rw [checkSubSlots_later h, laterSes]
  cases slot.challengeChain.subepochSummaryHash <;> rfl

lemma accepts_checkNewValues {cc : ChallengeChainSubSlot} : Accepts (checkNewValues ctx cc) u ↔
    cc.newSubSlotIters =
      (if ctx.canFinishEpoch && cc.subepochSummaryHash.isSome then some ctx.expectedSubSlotIters else none) ∧
    cc.newDifficulty =
      (if ctx.canFinishEpoch && cc.subepochSummaryHash.isSome then some ctx.expectedDifficulty else none) := by
  unfold checkNewValues
  cases ctx.canFinishEpoch && cc.subepochSummaryHash.isSome with
  | true => simp [accepts_require_bind]
  | false => simp [accepts_require_bind]

lemma iccTarget_isSome {target : Option IccTarget} (hdeficit : tip.deficit < 16)
    (hprevSlot : ∀ slot, prevSlot = some slot → slot.rewardChain.deficit < 16)
    (h : iccTarget env blocks tip prevSlot = .ok target) : target.isSome = true := by
  unfold iccTarget at h
  rw [if_pos hdeficit] at h
  cases prevSlot with
  | none =>
    obtain ⟨curr, -, h⟩ := bind_eq_ok.mp h
    obtain ⟨start, -, h⟩ := bind_eq_ok.mp h
    obtain ⟨ip, -, h⟩ := bind_eq_ok.mp h
    obtain ⟨iters, -, h⟩ := bind_eq_ok.mp h
    cases h
    rfl
  | some slot =>
    dsimp only at h
    rw [if_pos (hprevSlot slot rfl)] at h
    obtain ⟨icc, -, h⟩ := bind_eq_ok.mp h
    cases h
    rfl

lemma checkSlotIcc_target (hprev : ctx.prevB = some tip) (h : Accepts (checkSlotIcc env blocks ctx skip prevSlot slot) ()) :
    ∃ target, iccTarget env blocks tip prevSlot = .ok target ∧ slot.infusedChallengeChain.isSome = target.isSome := by
  unfold checkSlotIcc at h
  rw [hprev] at h
  obtain ⟨target, htarget, h⟩ := accepts_lift_bind.mp h
  obtain ⟨_, hassert, h⟩ := accepts_lift_bind.mp h
  refine ⟨target, htarget, ?_⟩
  have hnone : slot.infusedChallengeChain.isNone = target.isNone := of_decide_eq_true (pyAssert_ok.mp hassert)
  rw [← not_isNone, ← not_isNone, hnone]

lemma SlotAccepted.icc_isSome (h : SlotAccepted env blocks ctx skip prevSlot slot ses ses') (hprev : ctx.prevB = some tip)
    (hdeficit : tip.deficit < 16) (hprevSlot : ∀ slot, prevSlot = some slot → slot.rewardChain.deficit < 16) :
    slot.infusedChallengeChain.isSome = true := by
  obtain ⟨target, htarget, hsome⟩ := checkSlotIcc_target hprev h.icc
  rw [hsome]
  exact iccTarget_isSome hdeficit hprevSlot htarget

end Slots

lemma accepts_checkSummary {ctx : Context} {ses : Option Bytes32} (hprev : ctx.prevB = some tip) :
    Accepts (checkSummary env blocks ctx true ses) u ↔
      match ses with
      | none => (ctx.newSubSlot && (ctx.canFinishSe || ctx.canFinishEpoch)) = false
      | some hash => (ctx.newSubSlot && ctx.canFinishSe) = true ∧
          ∃ prevPrevB expected, blocks.blockRecord tip.prevHash = .ok prevPrevB ∧
            makeSubEpochSummary env blocks ctx.height prevPrevB
              (if ctx.canFinishEpoch then some ctx.expectedDifficulty else none)
              (if ctx.canFinishEpoch then some ctx.expectedSubSlotIters else none) = .ok expected ∧
            env.stdHash expected.stream = hash := by
  unfold checkSummary
  rw [hprev]
  cases ses with
  | none => simp only [accepts_require, Bool.not_eq_true']
  | some hash =>
    rw [accepts_require_bind, if_pos rfl, accepts_lift_bind]
    refine and_congr_right fun _ => exists_congr fun prevPrevB => ?_
    rw [accepts_lift_bind]
    simp only [accepts_require, decide_eq_true_eq, exists_and_left]

def slotCount : List BlockRecord → ℕ
  | [] => 0
  | r :: older => if r.firstInSubSlot then 1 else slotCount older + 1

lemma walkList_numBlocks (hfirst : ∃ r ∈ chain, r.firstInSubSlot = true) (k : ℕ) :
    walkList (fun numBlocks r => .ok (if r.firstInSubSlot then Visit.done numBlocks else .back (numBlocks + 1))) (k + 1)
      chain = .ok (slotCount chain + k) := by
  induction chain generalizing k with
  | nil =>
    obtain ⟨r, hr, -⟩ := hfirst
    cases hr
  | cons r older ih =>
    rw [walkList, ok_bind, slotCount]
    cases hr : r.firstInSubSlot with
    | true =>
      simp only [if_true, except_pure, Except.ok.injEq]
      omega
    | false =>
      have hfirst' : ∃ r ∈ older, r.firstInSubSlot = true := by
        obtain ⟨r', hmem, hr'⟩ := hfirst
        rcases List.mem_cons.mp hmem with rfl | hmem'
        · exact absurd hr' (by simp [hr])
        · exact ⟨r', hmem', hr'⟩
      simp only [Bool.false_eq_true, if_false]
      rw [ih hfirst', Except.ok.injEq]
      omega

lemma numBlocksInSlot_eq (hknows : Knows blocks (tip :: older)) (hlinked : Linked (tip :: older))
    (hfirst : ∃ r ∈ tip :: older, r.firstInSubSlot = true) :
    numBlocksInSlot blocks tip = .ok (slotCount (tip :: older) + 1) := by
  unfold numBlocksInSlot
  rw [walk_eq_walkList hknows hlinked]
  exact walkList_numBlocks hfirst 1

lemma accepts_checkNumBlocks {ctx : Context} (hknows : Knows blocks (tip :: older))
    (hlinked : Linked (tip :: older)) (hfirst : ∃ r ∈ tip :: older, r.firstInSubSlot = true)
    (hprev : ctx.prevB = some tip) :
    Accepts (checkNumBlocks blocks ctx) u ↔ (ctx.newSubSlot = false → slotCount (tip :: older) < 128) := by
  unfold checkNumBlocks
  rw [hprev]
  cases ctx.newSubSlot with
  | true => simp
  | false =>
    dsimp only
    rw [numBlocksInSlot_eq hknows hlinked hfirst, accepts_lift_bind]
    simp only [Except.ok.injEq, exists_eq_left', accepts_require, decide_eq_true_eq, forall_true_left]
    exact Nat.succ_le_iff

def slotStartAfter (tip : BlockRecord) (n ssi : ℕ) : ℕ :=
  if n = 0 then tip.slotStart else tip.slotStart + tip.subSlotIters + ssi * (n - 1)

lemma slotStartIters_eq (htip : RecordOk tip) {start : ℕ} :
    slotStartIters (chainContext tip older overflow n diff ssi) = .ok start ↔
      start = slotStartAfter tip n ssi ∧ start < 2 ^ 128 := by
  have htotal := htip.total_eq
  unfold slotStartIters slotStartAfter
  dsimp only [chainContext, Context.newSubSlot]
  rw [htip.ipIters, ok_bind]
  cases n with
  | zero =>
    simp only [gt_iff_lt, lt_irrefl, decide_false, Bool.false_eq_true, if_false, if_true, uint128_eq_ok]
    refine and_congr_left fun _ => ?_
    omega
  | succ n =>
    simp only [gt_iff_lt, Nat.zero_lt_succ, decide_true, if_true, Nat.succ_ne_zero, if_false, bind_eq_ok, uint128_eq_ok,
      Nat.add_sub_cancel]
    constructor
    · rintro ⟨first, ⟨hfirst, -⟩, hstart, hfits⟩
      refine ⟨?_, hfits⟩
      push_cast at hstart
      have hmul : ((ssi * n : ℕ) : ℤ) = ssi * ((n : ℤ) + 1 - 1) := by push_cast; ring
      omega
    · rintro ⟨rfl, hfits⟩
      refine ⟨tip.slotStart + tip.subSlotIters, ⟨by push_cast; omega, by omega⟩, ?_, hfits⟩
      push_cast
      ring

/-- The iterations of an accepted block. -/
structure ItersAccepted (tip : BlockRecord) (older : List BlockRecord) (n ssi req : ℕ) (rcb : RewardChainBlockUnfinished)
    (iters : Iters) : Prop where
  ccSp : decide (rcb.signagePointIndex = 0) = rcb.challengeChainSpVdf.isNone
  rcSp : decide (rcb.signagePointIndex = 0) = rcb.rewardChainSpVdf.isNone
  ok : ItersOk ssi rcb.signagePointIndex req
  noOverflow : 61 ≤ rcb.signagePointIndex → 0 < n → canFinishSe tip older = true → epochAligned tip = true → 2 ≤ n
  spIters : iters.spIters = spInterval ssi * rcb.signagePointIndex
  ipIters : iters.ipIters = infusionPoint ssi rcb.signagePointIndex req
  totalIters : iters.totalIters = rcb.totalIters
  total_eq : rcb.totalIters = slotStartAfter tip n ssi + infusionPoint ssi rcb.signagePointIndex req
  total_lt : rcb.totalIters < 2 ^ 128
  spTotalIters : (iters.spTotalIters : ℤ) = slotStartAfter tip n ssi + spInterval ssi * rcb.signagePointIndex -
    (if 61 ≤ rcb.signagePointIndex then ssi else 0 : ℕ)
  spTotal_lt : iters.spTotalIters < 2 ^ 128

lemma accepts_checkIters (htip : RecordOk tip) (hssi : ssi < 2 ^ 64) :
    Accepts (checkIters (chainContext tip older (61 ≤ hb.rewardChainBlock.signagePointIndex) n diff ssi) hb req) iters ↔
      ItersAccepted tip older n ssi req hb.rewardChainBlock iters := by
  unfold checkIters
  simp only [accepts_require_bind, accepts_lift_bind, accepts_pure, pyAssert_ok, uint128_eq_ok, slotStartIters_eq htip,
    decide_eq_true_eq]
  dsimp only [chainContext]
  constructor
  · rintro ⟨hcc, hrc, sp, hsp, ip, hip, -, -, hepoch, start, ⟨rfl, -⟩, total, ⟨htotal, hlt⟩, heq, spTotal,
      ⟨hspTotal, hspLt⟩, rfl⟩
    obtain ⟨hok, rfl⟩ := (calculateIpIters_eq_ok hssi).mp hip
    obtain rfl := Except.ok.inj (hsp.symm.trans (calculateSpIters_of_itersOk hok))
    subst heq
    have htotal' : hb.rewardChainBlock.totalIters =
        slotStartAfter tip n ssi + infusionPoint ssi hb.rewardChainBlock.signagePointIndex req := by
      exact_mod_cast htotal.symm
    refine ⟨hcc, hrc, hok, ?_, rfl, rfl, rfl, htotal', hlt, ?_, hspLt⟩
    · intro hoverflow hn hcan haligned
      simp only [hoverflow, hn, hcan, haligned, decide_true, Bool.and_self, Bool.true_and, Bool.not_eq_true'] at hepoch
      exact not_lt.mp (of_decide_eq_false hepoch)
    · rw [← hspTotal, htotal']
      push_cast
      simp
  · intro h
    refine ⟨h.ccSp, h.rcSp, _, calculateSpIters_of_itersOk h.ok, _, (calculateIpIters_eq_ok hssi).mpr ⟨h.ok, rfl⟩, (), ?_,
      ?_, _, ⟨rfl, ?_⟩, _, ⟨?_, h.total_lt⟩, rfl, _, ⟨?_, h.spTotal_lt⟩, ?_⟩
    · by_cases hoverflow : 61 ≤ hb.rewardChainBlock.signagePointIndex
      · have hne : hb.rewardChainBlock.signagePointIndex ≠ 0 := by omega
        have hcc := h.ccSp
        simp only [hne, decide_false] at hcc
        simp [← not_isNone, ← hcc]
      · simp [hoverflow]
    · by_cases hoverflow : 61 ≤ hb.rewardChainBlock.signagePointIndex
      · by_cases hn : 0 < n
        · cases hcan : canFinishSe tip older with
          | false => simp
          | true =>
            cases haligned : epochAligned tip with
            | false => simp
            | true =>
              have hlt : ¬n < 2 := not_lt.mpr (h.noOverflow hoverflow hn hcan haligned)
              simp only [hoverflow, hn, decide_true, Bool.and_self, Bool.true_and, Bool.not_eq_true']
              exact decide_eq_false hlt
        · simp [hn]
      · simp [hoverflow]
    · have := h.total_lt
      have := h.total_eq
      omega
    · rw [h.total_eq]
      push_cast
      rfl
    · rw [h.spTotalIters, h.total_eq]
      push_cast
      simp
    · rw [← h.spIters, ← h.ipIters, ← h.totalIters]

def lastTransactionBlock (chain : List BlockRecord) : Option BlockRecord := chain.find? BlockRecord.isTransactionBlock

lemma foundRecord_eq_ok {found : Option BlockRecord} {r : BlockRecord} : foundRecord found = .ok r ↔ found = some r := by
  cases found with
  | none => exact ⟨fun h => (by cases h), fun h => (by cases h)⟩
  | some r' => simp [foundRecord]

lemma lastTransactionBlock_mem {tx : BlockRecord} (h : lastTransactionBlock chain = some tx) :
    tx ∈ chain := List.mem_of_find?_eq_some h

lemma ItersAccepted.uint128_spTotal
    (h : ItersAccepted tip older n ssi req rcb iters) : uint128 ((iters.totalIters : ℤ) - iters.ipIters + iters.spIters -
      (if 61 ≤ rcb.signagePointIndex then ssi else 0 : ℕ)) = .ok iters.spTotalIters := by
  refine uint128_eq_ok.mpr ⟨?_, h.spTotal_lt⟩
  rw [h.spTotalIters, h.totalIters, h.total_eq, h.ipIters, h.spIters]
  push_cast
  ring

lemma accepts_checkIsTransactionBlock (hknows : Knows blocks (tip :: older)) (hlinked : Linked (tip :: older))
    {foliage : Foliage} (hiters : ItersAccepted tip older n ssi req rcb iters) :
    Accepts (checkIsTransactionBlock blocks (chainContext tip older (61 ≤ rcb.signagePointIndex) n diff ssi) foliage
      iters) u ↔
      ∃ tx, lastTransactionBlock (tip :: older) = some tx ∧
        decide (tx.totalIters < iters.spTotalIters) = foliage.foliageTransactionBlockHash.isSome ∧
        decide (tx.totalIters < iters.spTotalIters) = foliage.foliageTransactionBlockSignature.isSome := by
  unfold checkIsTransactionBlock
  dsimp only [chainContext]
  rw [accepts_lift_bind, backTo_eq_find hknows hlinked]
  simp only [foundRecord_eq_ok]
  refine exists_congr fun tx => and_congr_right fun _ => ?_
  simp only [decide_eq_true_eq]
  rw [hiters.uint128_spTotal, accepts_lift_bind]
  simp only [accepts_require_bind, accepts_require, decide_eq_true_eq, Except.ok.injEq, exists_eq_left', gt_iff_lt]

/-- The foliage of an accepted transaction block. -/
structure FoliageAccepted (env : HeaderEnv) (now : ℕ) (chain : List BlockRecord) (checkFilter : Bool)
    (hb : UnfinishedHeaderBlock) (ftb : FoliageTransactionBlock) (tx : BlockRecord) : Prop where
  hash : hb.foliage.foliageTransactionBlockHash = some (env.stdHash ftb.stream)
  last : lastTransactionBlock chain = some tx
  prev : ftb.prevTransactionBlockHash = tx.headerHash
  filter : checkFilter = true → ftb.filterHash = env.stdHash hb.transactionsFilter
  notFuture : ftb.timestamp ≤ now + 300
  later : ∃ t, tx.timestamp = some t ∧ t < ftb.timestamp

lemma accepts_checkFoliageTransactionBlock (hknows : Knows blocks (tip :: older)) (hlinked : Linked (tip :: older))
    {ctx : Context} (hprev : ctx.prevB = some tip) :
    Accepts (checkFoliageTransactionBlock env now blocks ctx checkFilter hb) u ↔
      hb.foliage.foliageTransactionBlockHash.isSome = hb.foliageTransactionBlock.isSome ∧
      hb.foliage.foliageTransactionBlockSignature.isSome = hb.foliageTransactionBlock.isSome ∧
      ∀ ftb, hb.foliageTransactionBlock = some ftb →
        ∃ tx, FoliageAccepted env now (tip :: older) checkFilter hb ftb tx := by
  unfold checkFoliageTransactionBlock
  simp only [accepts_require_bind, decide_eq_true_eq]
  refine and_congr_right fun _ => and_congr_right fun _ => ?_
  cases hb.foliageTransactionBlock with
  | none => simp
  | some ftb =>
    unfold checkPrevTransactionBlock checkTimestamp
    rw [hprev]
    simp only [accepts_bind, accepts_lift, accepts_require, exists_const, decide_eq_true_eq,
      backTo_eq_find hknows hlinked, foundRecord_eq_ok, assertSome_ok, Option.some.injEq, forall_eq', Bool.or_eq_true,
      Bool.not_eq_true']
    constructor
    · rintro ⟨hhash, ⟨tx, htx, hprevTx⟩, hfilter, hnow, tx', htx', t, ht, hlt⟩
      rw [hprevTx, hknows.blockRecord (lastTransactionBlock_mem htx)] at htx'
      cases htx'
      refine ⟨tx, hhash, htx, hprevTx, ?_, hnow, t, ht, hlt⟩
      intro hcheck
      simpa [hcheck] using hfilter
    rintro ⟨tx, h⟩
    obtain ⟨t, ht, hlt⟩ := h.later
    refine ⟨h.hash, ⟨tx, h.last, h.prev⟩, ?_, h.notFuture, tx, ?_, t, ht, hlt⟩
    · cases hcheck : checkFilter with
      | false => exact Or.inl rfl
      | true => exact Or.inr (h.filter hcheck)
    · rw [h.prev]
      exact hknows.blockRecord (lastTransactionBlock_mem h.last)

/-- The parts of the finished validation. -/
structure FinishedAccepted (env : HeaderEnv) (blocks : Blocks) (block : HeaderBlock) (tip : BlockRecord)
    (difficulty ipIters : ℕ) (start : Bytes32 × ℕ × ClassgroupElement) (ccChallenge : Bytes32) : Prop where
  height : block.height = tip.height + 1
  weight : block.weight = tip.weight + difficulty
  vdfStart : ipVdfStart env block (some tip) ipIters = .ok start
  challenge : ccIpChallenge env blocks block (some tip) = .ok ccChallenge
  ipVdfs : Accepts (checkIpVdfs env block ipIters ccChallenge start.1 start.2.1 start.2.2) ()
  icc : Accepts (checkIccIp env blocks block (some tip) start.2.1) ()
  rewardBlockHash : block.foliage.rewardBlockHash = env.stdHash block.rewardChainBlock.stream
  isTransactionBlock : block.foliage.foliageTransactionBlockHash.isSome = block.rewardChainBlock.isTransactionBlock

lemma checkFinished_first {u : Unit} (hheight : block.height = 0)
    (h : Accepts (checkFinished env blocks block diff ssi req) u) :
    block.weight = 7 ∧ block.prevHeaderHash = env.genesisChallenge := by
  unfold checkFinished finishedPrev at h
  rw [if_pos hheight] at h
  obtain ⟨_, heq, h⟩ := accepts_lift_bind.mp h
  cases heq
  obtain ⟨_, -, h⟩ := accepts_lift_bind.mp h
  obtain ⟨⟨⟩, hfirst, -⟩ := accepts_bind.mp h
  simp only [checkHeightAndWeight, accepts_require_bind, accepts_require, decide_eq_true_eq] at hfirst
  exact hfirst.2

lemma accepts_checkFinished (hknows : Knows blocks (tip :: older)) (hprev : block.prevHeaderHash = tip.headerHash)
    (hgenesis : blocks.blockRecords.get? env.genesisChallenge = none)
    (hip : calculateIpIters ssi block.rewardChainBlock.signagePointIndex req = .ok ipIters) :
    Accepts (checkFinished env blocks block diff ssi req) u ↔
      ∃ start ccChallenge, FinishedAccepted env blocks block tip diff ipIters start ccChallenge := by
  have hrecord : blocks.blockRecord block.prevHeaderHash = .ok tip := by
    rw [hprev]
    exact hknows.blockRecord List.mem_cons_self
  by_cases hheight : block.height = 0
  · -- the first block of a chain has another previous hash
    have hne : block.prevHeaderHash ≠ env.genesisChallenge := by
      intro heq
      have htip := hknows.records tip List.mem_cons_self
      rw [← hprev, heq, hgenesis] at htip
      cases htip
    refine iff_of_false (fun h => hne (checkFinished_first hheight h).2) ?_
    rintro ⟨start, ccChallenge, h⟩
    exact absurd (h.height.symm.trans hheight) (Nat.succ_ne_zero _)
  · unfold checkFinished finishedPrev
    rw [hip, if_neg hheight, hrecord]
    constructor
    · intro h
      obtain ⟨_, heq, h⟩ := accepts_lift_bind.mp h
      cases heq
      obtain ⟨_, heq, h⟩ := accepts_lift_bind.mp h
      cases heq
      obtain ⟨⟨⟩, hfirst, h⟩ := accepts_bind.mp h
      obtain ⟨⟨rc, iters, cc⟩, hstart, h⟩ := accepts_lift_bind.mp h
      obtain ⟨ccChallenge, hchallenge, h⟩ := accepts_lift_bind.mp h
      obtain ⟨⟨⟩, hvdfs, h⟩ := accepts_bind.mp h
      obtain ⟨⟨⟩, hicc, h⟩ := accepts_bind.mp h
      simp only [checkHeightAndWeight, accepts_require_bind, accepts_require, decide_eq_true_eq] at h hfirst
      exact ⟨_, ccChallenge, hfirst.1, hfirst.2, hstart, hchallenge, hvdfs, hicc, h.1, h.2⟩
    · rintro ⟨⟨rc, iters, cc⟩, ccChallenge, h⟩
      refine accepts_lift_bind.mpr ⟨some tip, rfl, accepts_lift_bind.mpr ⟨ipIters, rfl, ?_⟩⟩
      refine accepts_bind.mpr ⟨(), ?_, accepts_lift_bind.mpr ⟨_, h.vdfStart, accepts_lift_bind.mpr ⟨_, h.challenge, ?_⟩⟩⟩
      · simp only [checkHeightAndWeight, accepts_require_bind, accepts_require, decide_eq_true_eq]
        exact ⟨h.height, h.weight⟩
      · refine accepts_bind.mpr ⟨(), h.ipVdfs, accepts_bind.mpr ⟨(), h.icc, ?_⟩⟩
        simp only [accepts_require_bind, accepts_require, decide_eq_true_eq]
        exact ⟨h.rewardBlockHash, h.isTransactionBlock⟩

lemma FinishedAccepted.total_le {start : Bytes32 × ℕ × ClassgroupElement} {ccChallenge : Bytes32}
    (h : FinishedAccepted env blocks block tip diff ipIters start ccChallenge) (hslots : block.finishedSubSlots = []) :
    tip.totalIters ≤ block.totalIters := by
  have hstart := h.vdfStart
  unfold ipVdfStart at hstart
  rw [hslots] at hstart
  obtain ⟨iters, hiters, -⟩ := bind_eq_ok.mp hstart
  have := (uint64_eq_ok.mp hiters).1
  omega

lemma checkIccIp_isSome {ipVdfIters deficit : ℕ} (h : Accepts (checkIccIp env blocks block (some tip) ipVdfIters) ())
    (hoverflow : isOverflowBlock block.rewardChainBlock.signagePointIndex = .ok overflow)
    (hdeficit : calculateDeficit block.height (some tip) overflow block.finishedSubSlots.length = .ok deficit)
    (hlt : deficit < 15) : block.rewardChainBlock.infusedChallengeChainIpVdf.isSome = true := by
  unfold checkIccIp at h
  rw [hoverflow] at h
  obtain ⟨_, heq, h⟩ := accepts_lift_bind.mp h
  cases heq
  rw [hdeficit] at h
  obtain ⟨_, heq, h⟩ := accepts_lift_bind.mp h
  cases heq
  cases hvdf : block.rewardChainBlock.infusedChallengeChainIpVdf with
  | some vdf => rfl
  | none =>
    rw [hvdf] at h
    simp only [accepts_require, decide_eq_true_eq] at h
    exact absurd hlt (not_lt.mpr h)

end SectorChain.Header
