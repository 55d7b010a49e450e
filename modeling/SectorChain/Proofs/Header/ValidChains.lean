import SectorChain.Proofs.Header.Acceptance

/-!
# Valid chains

Each record extends the ones before by the rules.
-/

namespace SectorChain.Header

open Lib Check Blocks List Option

variable {env : HeaderEnv} {blocks : Blocks} {ssi difficulty req n : ℕ} {tip r record : BlockRecord}
  {chain older : List BlockRecord} {block : HeaderBlock}
variable {ccChallenge ccSpHash : Bytes32} {height spTotal : ℕ} {start : Bytes32 × ℕ × ClassgroupElement}
variable {checkFilter : Bool} {hb : UnfinishedHeaderBlock} {now : ℕ}

/-- The deficit of a block after `n` finished sub-slots. -/
def nextDeficit (deficit : ℕ) (overflow : Bool) (n : ℕ) : ℕ :=
  if deficit = 16 then if overflow = true ∧ n = 0 then 16 else 15
  else if deficit = 0 then if n = 0 then 0 else if overflow = true ∧ n = 1 then 16 else 15
  else deficit - 1

lemma nextDeficit_le {deficit : ℕ} (h : deficit ≤ 16) (overflow : Bool) (n : ℕ) : nextDeficit deficit overflow n ≤ 16 := by
  unfold nextDeficit
  split_ifs <;> omega

lemma calculateDeficit_eq (hdeficit : tip.deficit ≤ 16) (hheight : height ≠ 0) (overflow : Bool) (n : ℕ) :
    calculateDeficit height (some tip) overflow n = .ok (nextDeficit tip.deficit overflow n) := by
  unfold calculateDeficit nextDeficit
  rw [if_neg hheight]
  change (if tip.deficit = 16 then _ else _) = _
  by_cases hfull : tip.deficit = 16
  · rw [hfull]
    cases overflow with
    | false => rfl
    | true =>
      cases n with
      | zero => rfl
      | succ n => rfl
  · rw [if_neg hfull, if_neg hfull]
    by_cases hzero : tip.deficit = 0
    · rw [if_pos hzero, if_pos hzero]
      match n with
      | 0 => rfl
      | 1 => cases overflow <;> rfl
      | n + 2 => cases overflow <;> rfl
    · rw [if_neg hzero, if_neg hzero]
      exact uint8_eq_ok.mpr ⟨by push_cast [Nat.one_le_iff_ne_zero.mpr hzero]; rfl, by omega⟩

/-- A record of a block after the tip of a chain and `n` finished sub-slots. -/
structure Extends (env : HeaderEnv) (tip : BlockRecord) (older : List BlockRecord) (n : ℕ) (r : BlockRecord) : Prop where
  prev : r.prevHash = tip.headerHash
  height : r.height = tip.height + 1
  height_lt : r.height < 2 ^ 32
  ok : RecordOk r
  weight_le : tip.weight ≤ r.weight
  deficit : r.deficit = nextDeficit tip.deficit r.overflow n
  count : n = 0 → slotCount (tip :: older) < 128
  slotStart : r.slotStart = slotStartAfter tip n r.subSlotIters
  total_le : n = 0 → tip.totalIters ≤ r.totalIters
  noOverflow : r.overflow = true → 0 < n → canFinishSe tip older = true → epochAligned tip = true → 2 ≤ n
  transaction : ∃ tx, lastTransactionBlock (tip :: older) = some tx ∧
    r.isTransactionBlock = decide (tx.totalIters < r.spTotal) ∧
    ∀ t, r.timestamp = some t → ∃ t', tx.timestamp = some t' ∧ t' < t
  summary : r.subEpochSummaryIncluded.isSome = (decide (0 < n) && canFinishSe tip older)
  values : ∃ blocks, Knows blocks (tip :: older) ∧
    getNextSubSlotItersAndDifficulty (0 < n) (some tip) blocks = .ok (r.subSlotIters, r.weight - tip.weight) ∧
    ∀ ses, r.subEpochSummaryIncluded = some ses → ∃ prevPrevB, blocks.blockRecord tip.prevHash = .ok prevPrevB ∧
        makeSubEpochSummary env blocks r.height prevPrevB
          (if epochAligned tip then some (r.weight - tip.weight) else none)
          (if epochAligned tip then some r.subSlotIters else none) = .ok ses
  challengeSlots : r.finishedChallengeSlotHashes.map List.length = if n = 0 then none else some n
  rewardSlots : r.finishedRewardSlotHashes.map List.length = if n = 0 then none else some n
  infusedSlots : r.finishedInfusedChallengeSlotHashes.isSome = decide (0 < n)
  infusedSlots_ne : 0 < n → tip.deficit < 16 → r.finishedInfusedChallengeSlotHashes ≠ some []
  infusedVdf : r.deficit < 15 → r.infusedChallengeVdfOutput.isSome = true

structure IsGenesis (env : HeaderEnv) (n : ℕ) (r : BlockRecord) : Prop where
  prev : r.prevHash = env.genesisChallenge
  height : r.height = 0
  ok : RecordOk r
  weight : r.weight = 7
  subSlotIters : r.subSlotIters = 2 ^ 27
  deficit : r.deficit = 15
  slotStart : r.slotStart = 2 ^ 27 * n
  transaction : r.isTransactionBlock = true
  summary : r.subEpochSummaryIncluded = none
  challengeSlots : r.finishedChallengeSlotHashes.map List.length = some (max n 1)
  rewardSlots : r.finishedRewardSlotHashes.map List.length = some (max n 1)

/-- A valid chain, the tip first. -/
inductive ValidChain (env : HeaderEnv) : List BlockRecord → Prop where
  | genesis (n : ℕ) (r : BlockRecord) : IsGenesis env n r → ValidChain env [r]
  | block (n : ℕ) (r tip : BlockRecord) (older : List BlockRecord) :
      ValidChain env (tip :: older) → Extends env tip older n r → ValidChain env (r :: tip :: older)

@[elab_as_elim]
lemma ValidChain.tipRec {motive : ∀ tip older, ValidChain env (tip :: older) → Prop}
    (genesis : ∀ n g (hg : IsGenesis env n g), motive g [] (.genesis n g hg))
    (block : ∀ n r tip older (htail : ValidChain env (tip :: older)) (hr : Extends env tip older n r),
      motive tip older htail → motive r (tip :: older) (.block n r tip older htail hr)) :
    ∀ {tip older} (h : ValidChain env (tip :: older)), motive tip older h
  | _, _, .genesis n g hg => genesis n g hg
  | _, _, .block n r tip older htail hr => block n r tip older htail hr (tipRec genesis block htail)

lemma Extends.first (h : Extends env tip older n r) : r.firstInSubSlot = decide (0 < n) := by
  have hslots := h.challengeSlots
  unfold BlockRecord.firstInSubSlot
  cases n with
  | zero =>
    rw [if_pos rfl, map_eq_none_iff] at hslots
    simp [hslots]
  | succ n =>
    obtain ⟨l, hl, -⟩ := map_eq_some_iff.mp hslots
    simp [hl]

lemma IsGenesis.first (h : IsGenesis env n r) : r.firstInSubSlot = true := by
  obtain ⟨l, hl, -⟩ := map_eq_some_iff.mp h.challengeSlots
  simp [BlockRecord.firstInSubSlot, hl]

namespace ValidChain

lemma linked (h : ValidChain env chain) : Linked chain := by
  induction h with
  | genesis n r hr => exact hr.height
  | block n r tip older _ hr ih => exact ⟨hr.prev, hr.height, ih⟩

lemma ne_nil (h : ValidChain env chain) : chain ≠ [] := by
  cases h with
  | genesis n r hr => exact cons_ne_nil _ _
  | block n r tip older _ hr => exact cons_ne_nil _ _

lemma suffix (h : ValidChain env chain) (hsuffix : r :: older <:+ chain) : ValidChain env (r :: older) := by
  induction h with
  | genesis n r' hr =>
    rcases suffix_cons_iff.mp hsuffix with heq | hsuffix
    · rw [heq]
      exact .genesis n r' hr
    · exact absurd (suffix_nil.mp hsuffix) (cons_ne_nil _ _)
  | block n r' tip older' hchain hr ih =>
    rcases suffix_cons_iff.mp hsuffix with heq | hsuffix
    · rw [heq]
      exact .block n r' tip older' hchain hr
    · exact ih hsuffix

lemma recordOk (h : ValidChain env chain) : ∀ r ∈ chain, RecordOk r := by
  induction h with
  | genesis n r hr => exact forall_mem_singleton.mpr hr.ok
  | block n r tip older _ hr ih => exact forall_mem_cons.mpr ⟨hr.ok, ih⟩

lemma deficit_le (h : ValidChain env chain) : ∀ r ∈ chain, r.deficit ≤ 16 := by
  induction h with
  | genesis n r hr =>
    refine forall_mem_singleton.mpr ?_
    rw [hr.deficit]
    omega
  | block n r tip older _ hr ih =>
    refine forall_mem_cons.mpr ⟨?_, ih⟩
    rw [hr.deficit]
    exact nextDeficit_le (ih tip mem_cons_self) _ _

lemma exists_genesis (h : ValidChain env chain) : ∃ n r, r ∈ chain ∧ IsGenesis env n r := by
  induction h with
  | genesis n r hr => exact ⟨n, r, mem_cons_self, hr⟩
  | block n r tip older _ hr ih =>
    obtain ⟨n', g, hg, hgen⟩ := ih
    exact ⟨n', g, mem_cons_of_mem _ hg, hgen⟩

lemma exists_first (h : ValidChain env chain) : ∃ r ∈ chain, r.firstInSubSlot = true := by
  obtain ⟨n, r, hr, hgen⟩ := h.exists_genesis
  exact ⟨r, hr, hgen.first⟩

lemma genesisChallenge_unknown (h : ValidChain env chain) (hknows : Knows blocks chain) :
    blocks.blockRecords.get? env.genesisChallenge = none := by
  obtain ⟨n, r, hr, hgen⟩ := h.exists_genesis
  rw [← hgen.prev]
  exact hknows.genesis r hr hgen.height

end ValidChain

lemma adjustedSubSlotIters_lt {lastBlockPrev lastBlockCurr : BlockRecord}
    (h : adjustedSubSlotIters lastBlockPrev lastBlockCurr = .ok ssi) : ssi < 2 ^ 64 := by
  iterate 7 obtain ⟨_, -, h⟩ := bind_eq_ok.mp h
  obtain ⟨_, hssi, h⟩ := bind_eq_ok.mp h
  obtain ⟨_, -, h⟩ := bind_eq_ok.mp h
  cases h
  exact (uint64_eq_ok.mp hssi).2

lemma getNextSubSlotIters_lt {prevHash : Bytes32} {curr deficit : ℕ} {included newSlot skip : Bool}
    (hcurr : curr < 2 ^ 64)
    (h : getNextSubSlotIters blocks prevHash height curr deficit included newSlot spTotal skip = .ok ssi) :
    ssi < 2 ^ 64 := by
  obtain ⟨_, -, h⟩ := bind_eq_ok.mp h
  split at h
  · exact (uint64_eq_ok.mp h).2
  split at h
  · cases h
  obtain ⟨_, -, h⟩ := bind_eq_ok.mp h
  obtain ⟨_, -, h⟩ := bind_eq_ok.mp h
  split at h
  · cases h
    exact hcurr
  · obtain ⟨_, -, h⟩ := bind_eq_ok.mp h
    obtain ⟨_, -, h⟩ := bind_eq_ok.mp h
    exact adjustedSubSlotIters_lt h

lemma getNextSubSlotItersAndDifficulty_lt {first : Bool} (htip : tip.subSlotIters < 2 ^ 64)
    (h : getNextSubSlotItersAndDifficulty first (some tip) blocks = .ok (ssi, difficulty)) : ssi < 2 ^ 64 := by
  obtain ⟨_, -, h⟩ := bind_eq_ok.mp h
  split at h
  · cases h
    exact htip
  obtain ⟨_, -, h⟩ := bind_eq_ok.mp h
  obtain ⟨_, -, h⟩ := bind_eq_ok.mp h
  obtain ⟨_, hssi, h⟩ := bind_eq_ok.mp h
  cases h
  exact getNextSubSlotIters_lt htip hssi

lemma blockToBlockRecord_eq {prevB : Option BlockRecord} (hprev : blocks.tryBlockRecord block.prevHeaderHash = prevB)
    (hnext : getNextSubSlotItersAndDifficulty (block.finishedSubSlots.length > 0) prevB blocks = .ok (ssi, difficulty))
    (h : blockToBlockRecord env blocks req block = .ok record) :
    ∃ overflow deficit ses, isOverflowBlock block.rewardChainBlock.signagePointIndex = .ok overflow ∧
      calculateDeficit block.height prevB overflow block.finishedSubSlots.length = .ok deficit ∧
      summaryIncluded env blocks block prevB = .ok ses ∧
      record = headerBlockToSubBlockRecord env req block ssi overflow deficit ses := by
  unfold blockToBlockRecord at h
  rw [hprev] at h
  obtain ⟨_, -, h⟩ := bind_eq_ok.mp h
  rw [hnext, ok_bind] at h
  obtain ⟨overflow, hoverflow, h⟩ := bind_eq_ok.mp h
  obtain ⟨deficit, hdeficit, h⟩ := bind_eq_ok.mp h
  obtain ⟨ses, hses, h⟩ := bind_eq_ok.mp h
  cases h
  exact ⟨overflow, deficit, ses, hoverflow, hdeficit, hses, rfl⟩

structure BlockAccepted (env : HeaderEnv) (now : ℕ) (checkFilter : Bool) (blocks : Blocks) (tip : BlockRecord)
    (older : List BlockRecord) (block : HeaderBlock) (difficulty ssi req : ℕ) (iters : Iters) (ccSpHash : Bytes32)
    (start : Bytes32 × ℕ × ClassgroupElement) (ccChallenge : Bytes32) : Prop where
  parts : UnfinishedAccepted env now blocks block.unfinished checkFilter difficulty ssi req
    (chainContext tip older (61 ≤ block.rewardChainBlock.signagePointIndex) block.finishedSubSlots.length difficulty ssi)
    ccSpHash iters
  iters : ItersAccepted tip older block.finishedSubSlots.length ssi req block.rewardChainBlock.getUnfinished iters
  finished : FinishedAccepted env blocks block tip difficulty
    (infusionPoint ssi block.rewardChainBlock.signagePointIndex req) start ccChallenge

lemma accepts_block_iff (hchain : ValidChain env (tip :: older)) (hknows : Knows blocks (tip :: older))
    (hprev : block.prevHeaderHash = tip.headerHash) (hssi : ssi < 2 ^ 64) :
    Accepts (validateFinishedHeaderBlock env now blocks block checkFilter difficulty ssi true) req ↔
      ∃ iters ccSpHash start ccChallenge,
        BlockAccepted env now checkFilter blocks tip older block difficulty ssi req iters ccSpHash start ccChallenge := by
  have htip : RecordOk tip := hchain.recordOk tip mem_cons_self
  have hprev' : block.unfinished.prevHeaderHash = tip.headerHash := hprev
  have hgenesis := hchain.genesisChallenge_unknown hknows
  rw [accepts_finished_iff, accepts_unfinished_iff]
  constructor
  · rintro ⟨⟨ctx, ccSpHash, iters, hparts⟩, hfinished⟩
    obtain ⟨-, -, rfl⟩ := (accepts_context_iff hknows hchain.linked hprev').mp hparts.context
    have hiters := (accepts_checkIters htip hssi).mp hparts.checkedIters
    have hip := (calculateIpIters_eq_ok hssi).mpr ⟨hiters.ok, rfl⟩
    obtain ⟨start, ccChallenge, hfinished⟩ := (accepts_checkFinished hknows hprev hgenesis hip).mp hfinished
    exact ⟨iters, ccSpHash, start, ccChallenge, hparts, hiters, hfinished⟩
  · rintro ⟨iters, ccSpHash, start, ccChallenge, h⟩
    have hip := (calculateIpIters_eq_ok hssi).mpr ⟨h.iters.ok, rfl⟩
    exact ⟨⟨_, ccSpHash, iters, h.parts⟩,
      (accepts_checkFinished hknows hprev hgenesis hip).mpr ⟨start, ccChallenge, h.finished⟩⟩

lemma summaryIncluded_of_accepted {iters : Iters} {ses : Option SubEpochSummary}
    (h : BlockAccepted env now checkFilter blocks tip older block difficulty ssi req iters ccSpHash start ccChallenge)
    (hses : summaryIncluded env blocks block (some tip) = .ok ses) :
    ses.isSome = (decide (0 < block.finishedSubSlots.length) && canFinishSe tip older) ∧
    ∀ s, ses = some s → ∃ prevPrevB, blocks.blockRecord tip.prevHash = .ok prevPrevB ∧
      makeSubEpochSummary env blocks block.height prevPrevB (if epochAligned tip then some difficulty else none)
        (if epochAligned tip then some ssi else none) = .ok s := by
  unfold summaryIncluded at hses
  cases hslots : block.finishedSubSlots with
  | nil =>
    rw [hslots] at hses
    cases hses
    exact ⟨by simp, fun s hs => (by cases hs)⟩
  | cons slot slots =>
    have hsub := h.parts.slots
    have hslots' : block.unfinished.finishedSubSlots = slot :: slots := hslots
    unfold checkFinishedSubSlots at hsub
    rw [if_pos (by simp [chainContext, Context.newSubSlot, hslots]), hslots'] at hsub
    obtain ⟨found, hfound, hsummary⟩ := accepts_bind.mp hsub
    obtain ⟨heq, hfirst⟩ := foundSesHash_of_accepts hfound
    obtain ⟨next, hslot, -⟩ := accepts_checkSubSlots_cons.mp hfound
    have hvalues := accepts_checkNewValues.mp (accepts_checkSlotSummary.mp hslot.summary).1.newValues
    rw [accepts_checkSummary rfl] at hsummary
    rw [hslots, ← heq] at hses
    cases found with
    | none =>
      cases hses
      simp only [chainContext, Context.newSubSlot, hslots, length_cons, gt_iff_lt, Nat.zero_lt_succ, decide_true,
        Bool.true_and, Bool.or_eq_false_iff] at hsummary
      exact ⟨by simp [hsummary.1], fun s hs => (by cases hs)⟩
    | some hash =>
      obtain ⟨hcan, -⟩ := hsummary
      simp only [chainContext, Context.newSubSlot, hslots, length_cons, gt_iff_lt, Nat.zero_lt_succ, decide_true,
        Bool.true_and] at hcan
      have hsome : slot.challengeChain.subepochSummaryHash.isSome = true := by rw [← hfirst]; rfl
      simp only [chainContext, hsome, hslots, hcan, length_cons, Nat.zero_lt_succ, decide_true, Bool.true_and,
        Bool.and_true] at hvalues
      dsimp only [assertSome] at hses
      rw [ok_bind] at hses
      obtain ⟨prevPrevB, hprevPrev, hses⟩ := bind_eq_ok.mp hses
      obtain ⟨s, hmake, hses⟩ := bind_eq_ok.mp hses
      obtain ⟨_, -, hses⟩ := bind_eq_ok.mp hses
      cases hses
      refine ⟨by simp [hcan], fun s' hs' => ?_⟩
      cases hs'
      rw [hvalues.1, hvalues.2] at hmake
      exact ⟨prevPrevB, hprevPrev, hmake⟩

lemma infusedSlots_of_accepted {iters : Iters}
    (h : BlockAccepted env now checkFilter blocks tip older block difficulty ssi req iters ccSpHash start ccChallenge)
    (hpos : 0 < block.finishedSubSlots.length) (hdeficit : tip.deficit < 16) :
    block.finishedSubSlots.filterMap (fun s => s.infusedChallengeChain.map fun icc => icc.getHash env) ≠ [] := by
  cases hslots : block.finishedSubSlots with
  | nil => exact absurd hpos (by simp [hslots])
  | cons slot slots =>
    have hsub := h.parts.slots
    have hslots' : block.unfinished.finishedSubSlots = slot :: slots := hslots
    unfold checkFinishedSubSlots at hsub
    rw [if_pos (by simp [chainContext, Context.newSubSlot, hslots]), hslots'] at hsub
    obtain ⟨found, hfound, -⟩ := accepts_bind.mp hsub
    obtain ⟨next, hslot, -⟩ := accepts_checkSubSlots_cons.mp hfound
    have hicc : slot.infusedChallengeChain.isSome = true :=
      hslot.icc_isSome rfl hdeficit (fun _ hnone => (by cases hnone))
    obtain ⟨icc, hsome⟩ := isSome_iff_exists.mp hicc
    rw [filterMap_cons, hsome]
    exact cons_ne_nil _ _

section Record

variable {deficit : ℕ} {overflow : Bool} {ses : Option SubEpochSummary} {iters : Iters}

lemma record_slots :
    (headerBlockToSubBlockRecord env req block ssi overflow deficit ses).finishedChallengeSlotHashes.map List.length =
      (if block.finishedSubSlots.length = 0 then if block.height = 0 then some 1 else none
      else some block.finishedSubSlots.length) ∧
    (headerBlockToSubBlockRecord env req block ssi overflow deficit ses).finishedRewardSlotHashes.map List.length =
      if block.finishedSubSlots.length = 0 then if block.height = 0 then some 1 else none
      else some block.finishedSubSlots.length := by
  unfold headerBlockToSubBlockRecord
  by_cases hn : block.finishedSubSlots.length = 0
  · have hpos : ¬ 0 < block.finishedSubSlots.length := by omega
    simp only [if_pos hn, if_neg hpos]
    split_ifs <;> exact ⟨rfl, rfl⟩
  · simp only [if_pos (Nat.pos_of_ne_zero hn), if_neg hn]
    simp

lemma record_infusedSlots :
    (headerBlockToSubBlockRecord env req block ssi overflow deficit ses).finishedInfusedChallengeSlotHashes =
      if 0 < block.finishedSubSlots.length then some (block.finishedSubSlots.filterMap fun s =>
        s.infusedChallengeChain.map fun icc => icc.getHash env) else none := rfl

lemma record_isTransactionBlock :
    (headerBlockToSubBlockRecord env req block ssi overflow deficit ses).isTransactionBlock =
      block.foliageTransactionBlock.isSome := by
  exact isSome_map

lemma record_slotStart {start : ℕ}
    (htotal : block.totalIters = start + infusionPoint ssi block.rewardChainBlock.signagePointIndex req) :
    (headerBlockToSubBlockRecord env req block ssi overflow deficit ses).slotStart = start := by
  change block.totalIters - infusionPoint ssi block.rewardChainBlock.signagePointIndex req = _
  rw [htotal]
  exact Nat.add_sub_cancel _ _

lemma record_ok {start : ℕ} (hok : ItersOk ssi block.rewardChainBlock.signagePointIndex req)
    (htotal : block.totalIters = start + infusionPoint ssi block.rewardChainBlock.signagePointIndex req)
    (hlt : block.totalIters < 2 ^ 128)
    (hsp : (spTotal : ℤ) = start + spInterval ssi * block.rewardChainBlock.signagePointIndex -
      (if 61 ≤ block.rewardChainBlock.signagePointIndex then ssi else 0 : ℕ)) :
    RecordOk (headerBlockToSubBlockRecord env req block ssi (61 ≤ block.rewardChainBlock.signagePointIndex) deficit ses) ∧
    (headerBlockToSubBlockRecord env req block ssi (61 ≤ block.rewardChainBlock.signagePointIndex) deficit ses).spTotal =
      spTotal := by
  refine ⟨⟨hok, rfl, ?_, hlt, ?_⟩, ?_⟩
  · change infusionPoint ssi block.rewardChainBlock.signagePointIndex req ≤ block.totalIters
    rw [htotal]
    exact Nat.le_add_left _ _
  · intro ho
    rw [record_slotStart htotal]
    change ssi ≤ start + spInterval ssi * block.rewardChainBlock.signagePointIndex
    rw [if_pos (of_decide_eq_true ho)] at hsp
    omega
  unfold BlockRecord.spTotal
  rw [record_slotStart htotal]
  change start + spInterval ssi * block.rewardChainBlock.signagePointIndex -
    (if decide (61 ≤ block.rewardChainBlock.signagePointIndex) = true then ssi else 0) = _
  simp only [decide_eq_true_eq]
  omega

end Record

lemma extends_of_accepted (hchain : ValidChain env (tip :: older)) (hknows : Knows blocks (tip :: older))
    (hprev : block.prevHeaderHash = tip.headerHash) (h : AcceptedOn env blocks (some tip) block record) :
    Extends env tip older block.finishedSubSlots.length record := by
  have htip : RecordOk tip := hchain.recordOk tip mem_cons_self
  obtain ⟨now, checkFilter, ssi, difficulty, req, hnext, haccepts, hrecord⟩ := h.accepted
  have hssi : ssi < 2 ^ 64 := getNextSubSlotItersAndDifficulty_lt htip.iters.lt hnext
  obtain ⟨iters, ccSpHash, start, ccChallenge, hblock⟩ := (accepts_block_iff hchain hknows hprev hssi).mp haccepts
  obtain ⟨overflow, deficit, ses, hoverflow, hdeficit, hses, rfl⟩ := blockToBlockRecord_eq h.prev hnext hrecord
  obtain ⟨hsome, hvalue⟩ := summaryIncluded_of_accepted hblock hses
  have hheight := hblock.finished.height
  have hweight := hblock.finished.weight
  have hiters := hblock.iters
  obtain ⟨hidx, rfl⟩ := isOverflowBlock_eq_ok.mp hoverflow
  have hdeficit' : deficit = nextDeficit tip.deficit (61 ≤ block.rewardChainBlock.signagePointIndex)
      block.finishedSubSlots.length := by
    rw [calculateDeficit_eq (hchain.deficit_le tip mem_cons_self) (by omega)] at hdeficit
    exact (Except.ok.inj hdeficit).symm
  have hdiff : block.weight - tip.weight = difficulty := by omega
  obtain ⟨tx, htx, hhash, -⟩ :=
    (accepts_checkIsTransactionBlock hknows hchain.linked hiters).mp hblock.parts.isTransactionBlock
  obtain ⟨hpresent, -, hfoliage⟩ :=
    (accepts_checkFoliageTransactionBlock hknows hchain.linked rfl).mp hblock.parts.foliageTransactionBlock
  obtain ⟨hok, hspTotal⟩ := record_ok hiters.ok hiters.total_eq hiters.total_lt hiters.spTotalIters
  refine ⟨hprev, hheight, block.rewardChainBlock.height_lt, hok, (Nat.le_add_right _ _).trans_eq hweight.symm,
    hdeficit', ?count, record_slotStart hiters.total_eq, ?total_le, ?noOverflow,
    ?transaction, hsome, ?values, ?challengeSlots, ?rewardSlots, ?infusedSlots, ?infusedSlots_ne, ?infusedVdf⟩
  case count =>
    intro hn
    refine (accepts_checkNumBlocks hknows hchain.linked hchain.exists_first rfl).mp hblock.parts.numBlocks ?_
    simp [chainContext, Context.newSubSlot, hn]
  case total_le =>
    intro hn
    exact hblock.finished.total_le (eq_nil_of_length_eq_zero hn)
  case noOverflow =>
    intro ho
    exact hiters.noOverflow (of_decide_eq_true ho)
  case transaction =>
    refine ⟨tx, htx, ?_, ?_⟩
    · rw [hspTotal, hhash, hpresent, record_isTransactionBlock]
      rfl
    intro t ht
    obtain ⟨ftb, hftb, rfl⟩ := map_eq_some_iff.mp ht
    obtain ⟨tx', hfol⟩ := hfoliage ftb hftb
    obtain rfl := Option.some.inj (htx.symm.trans hfol.last)
    exact hfol.later
  case values =>
    refine ⟨blocks, hknows, ?_, ?_⟩
    · change _ = Except.ok (ssi, block.weight - tip.weight)
      rw [hdiff]
      exact hnext
    · change ∀ s, ses = some s → ∃ prevPrevB, _ ∧ makeSubEpochSummary env blocks block.height prevPrevB
        (if epochAligned tip then some (block.weight - tip.weight) else none)
          (if epochAligned tip then some ssi else none) = _
      rw [hdiff]
      exact hvalue
  case challengeSlots => rw [record_slots.1, if_neg (show block.height ≠ 0 by omega)]
  case rewardSlots => rw [record_slots.2, if_neg (show block.height ≠ 0 by omega)]
  case infusedSlots =>
    rw [record_infusedSlots]
    split_ifs with hn
    · simp [hn]
    · simp [hn]
  case infusedSlots_ne =>
    intro hn hlt heq
    rw [record_infusedSlots, if_pos hn] at heq
    exact infusedSlots_of_accepted hblock hn hlt (Option.some.inj heq)
  case infusedVdf =>
    intro hlt
    change (block.rewardChainBlock.infusedChallengeChainIpVdf.map VDFInfo.output).isSome = true
    rw [isSome_map]
    exact checkIccIp_isSome hblock.finished.icc hoverflow hdeficit hlt

lemma accepts_context_genesis {ctx : Context} (hprev : blocks.tryBlockRecord hb.prevHeaderHash = none)
    (h : Accepts (validationContext env blocks hb DIFFICULTY_STARTING SUB_SLOT_ITERS_STARTING false) ctx) :
    hb.prevHeaderHash = env.genesisChallenge ∧
      ctx = genesisContext (61 ≤ hb.rewardChainBlock.signagePointIndex) hb.finishedSubSlots.length := by
  unfold validationContext at h
  rw [hprev, accepts_require_bind, accepts_lift_bind] at h
  simp only [isSome_none, Bool.false_or, decide_eq_true_eq, isOverflowBlock_eq_ok] at h
  obtain ⟨hgenesis, overflow, ⟨-, rfl⟩, h⟩ := h
  rw [accepts_lift_bind] at h
  obtain ⟨_, hslots, h⟩ := h
  cases hslots
  exact ⟨hgenesis, (accepts_pure.mp h).symm⟩

lemma checkIters_genesis {iters : Iters}
    (h : Accepts (checkIters (genesisContext (61 ≤ hb.rewardChainBlock.signagePointIndex) n) hb req) iters) :
    ItersOk (2 ^ 27) hb.rewardChainBlock.signagePointIndex req ∧
    hb.rewardChainBlock.totalIters = 2 ^ 27 * n + infusionPoint (2 ^ 27) hb.rewardChainBlock.signagePointIndex req ∧
    hb.rewardChainBlock.totalIters < 2 ^ 128 ∧
    (iters.spTotalIters : ℤ) = (2 ^ 27 * n : ℕ) + spInterval (2 ^ 27) * hb.rewardChainBlock.signagePointIndex -
      (if 61 ≤ hb.rewardChainBlock.signagePointIndex then 2 ^ 27 else 0 : ℕ) ∧
    iters = ⟨spInterval (2 ^ 27) * hb.rewardChainBlock.signagePointIndex,
      infusionPoint (2 ^ 27) hb.rewardChainBlock.signagePointIndex req, hb.rewardChainBlock.totalIters,
        iters.spTotalIters⟩ := by
  unfold checkIters at h
  simp only [accepts_require_bind, accepts_lift_bind, accepts_pure, pyAssert_ok, uint128_eq_ok, decide_eq_true_eq] at h
  dsimp only [genesisContext, slotStartIters, SUB_SLOT_ITERS_STARTING] at h
  obtain ⟨-, -, sp, hsp, ip, hip, -, -, -, start, hstart, total, ⟨htotal, hlt⟩, heq, spTotal, ⟨hspTotal, -⟩, rfl⟩ := h
  obtain ⟨hok, rfl⟩ := (calculateIpIters_eq_ok (by decide)).mp hip
  obtain rfl := Except.ok.inj (hsp.symm.trans (calculateSpIters_of_itersOk hok))
  subst heq
  obtain ⟨hstart, -⟩ := uint128_eq_ok.mp hstart
  rw [← hstart] at htotal
  have htotal' : hb.rewardChainBlock.totalIters =
      2 ^ 27 * n + infusionPoint (2 ^ 27) hb.rewardChainBlock.signagePointIndex req := by exact_mod_cast htotal.symm
  refine ⟨hok, htotal', hlt, ?_, rfl⟩
  rw [← hspTotal, htotal']
  push_cast
  simp

lemma checkFinished_genesis {u : Unit} (hprev : blocks.tryBlockRecord block.prevHeaderHash = none)
    (h : Accepts (checkFinished env blocks block difficulty ssi req) u) : block.height = 0 ∧ block.weight = 7 := by
  have hheight : block.height = 0 := by
    by_contra hne
    unfold checkFinished finishedPrev at h
    have hunknown : blocks.blockRecord block.prevHeaderHash = .error .keyError := by
      unfold Blocks.blockRecord
      rw [show blocks.blockRecords.get? block.prevHeaderHash = none from hprev]
    rw [if_neg hne, hunknown] at h
    obtain ⟨_, heq, -⟩ := accepts_lift_bind.mp h
    cases heq
  exact ⟨hheight, (checkFinished_first hheight h).1⟩

lemma transaction_genesis {overflow : Bool} {iters : Iters}
    (htx : Accepts (checkIsTransactionBlock blocks (genesisContext overflow n) hb.foliage iters) ())
    (hfoliage : Accepts (checkFoliageTransactionBlock env now blocks (genesisContext overflow n) checkFilter hb) ()) :
    hb.foliageTransactionBlock.isSome = true := by
  unfold checkFoliageTransactionBlock at hfoliage
  simp only [accepts_require_bind, decide_eq_true_eq] at hfoliage
  simp only [checkIsTransactionBlock, genesisContext, accepts_require] at htx
  exact hfoliage.1.symm.trans htx

lemma summaryIncluded_genesis {ses : Option SubEpochSummary} (h : summaryIncluded env blocks block none = .ok ses) :
    ses = none := by
  unfold summaryIncluded at h
  cases hfound : foundSesHash block.finishedSubSlots with
  | none =>
    rw [hfound] at h
    cases h
    rfl
  | some found =>
    rw [hfound] at h
    cases h

lemma isGenesis_of_accepted (h : AcceptedOn env blocks none block record) :
    IsGenesis env block.finishedSubSlots.length record := by
  obtain ⟨now, checkFilter, ssi, difficulty, req, hnext, haccepts, hrecord⟩ := h.accepted
  cases hnext
  obtain ⟨hunfinished, hfinished⟩ := accepts_finished_iff.mp haccepts
  obtain ⟨ctx, ccSpHash, iters, hparts⟩ := accepts_unfinished_iff.mp hunfinished
  have hprev : blocks.tryBlockRecord block.unfinished.prevHeaderHash = none := h.prev
  obtain ⟨hgenesis, rfl⟩ := accepts_context_genesis hprev hparts.context
  obtain ⟨hok, htotal, hlt, hsp, -⟩ := checkIters_genesis hparts.checkedIters
  obtain ⟨overflow, deficit, ses, hoverflow, hdeficit, hses, rfl⟩ := blockToBlockRecord_eq h.prev rfl hrecord
  obtain ⟨-, rfl⟩ := isOverflowBlock_eq_ok.mp hoverflow
  obtain ⟨hheight, hweight⟩ := checkFinished_genesis h.prev hfinished
  obtain ⟨hrecordOk, -⟩ := record_ok hok htotal hlt hsp
  have hdeficit' : deficit = 15 := by
    rw [hheight] at hdeficit
    cases hdeficit
    rfl
  have hmax : (if block.finishedSubSlots.length = 0 then if block.height = 0 then some 1 else none
      else some block.finishedSubSlots.length) = some (max block.finishedSubSlots.length 1) := by
    split_ifs with hn
    · rw [hn]
      rfl
    · rw [Nat.max_eq_left (Nat.pos_of_ne_zero hn)]
  refine ⟨hgenesis, hheight, hrecordOk, hweight, rfl, hdeficit', record_slotStart htotal, ?_,
    summaryIncluded_genesis hses, record_slots.1.trans hmax, record_slots.2.trans hmax⟩
  rw [record_isTransactionBlock]
  exact transaction_genesis hparts.isTransactionBlock hparts.foliageTransactionBlock

theorem validChain_of_accepted (h : AcceptedChain env chain) : ValidChain env chain := by
  induction h with
  | genesis blocks block record hrecord => exact .genesis _ record (isGenesis_of_accepted hrecord)
  | block blocks block record tip older _ hknows hprev hrecord ih =>
    exact .block _ record tip older ih (extends_of_accepted ih hknows hprev hrecord)

end SectorChain.Header
