import SectorChain.Proofs.Header.FarmedEpoch

/-!
# Accepted chains

What holds of every chain that header validation accepts.
-/

namespace SectorChain.Header

open Lib Check List

variable {env : HeaderEnv} {blocks : Blocks} {tip r : BlockRecord} {chain older : List BlockRecord}

lemma AcceptedChain.suffix (h : AcceptedChain env chain) (hsuffix : r :: older <:+ chain) :
    AcceptedChain env (r :: older) := by
  induction h with
  | genesis blocks block record hrecord =>
    rcases suffix_cons_iff.mp hsuffix with heq | hsuffix'
    · rw [heq]
      exact .genesis blocks block record hrecord
    · exact absurd (suffix_nil.mp hsuffix') (cons_ne_nil _ _)
  | block blocks block record tip older' htail hknows hprev hrecord ih =>
    rcases suffix_cons_iff.mp hsuffix with heq | hsuffix'
    · rw [heq]
      exact .block blocks block record tip older' htail hknows hprev hrecord
    · exact ih hsuffix'

inductive Difficulties : List BlockRecord → List ℕ → Prop where
  | genesis (r : BlockRecord) : Difficulties [r] [DIFFICULTY_STARTING]
  | block (blocks : Blocks) (r tip : BlockRecord) (older : List BlockRecord) (ssi d : ℕ) (ds : List ℕ) :
      Difficulties (tip :: older) ds → Knows blocks (tip :: older) →
      getNextSubSlotItersAndDifficulty r.firstInSubSlot (some tip) blocks = .ok (ssi, d) →
      Difficulties (r :: tip :: older) (d :: ds)

/-- No proof of a VDF without iterations verifies. -/
def NoEmptyVdf (env : HeaderEnv) : Prop :=
  ∀ challenge inputEl proof witnessType, env.verifyVdf challenge inputEl proof 0 witnessType = false

/-- How a chain grows with each of its blocks. -/
structure Growing (chain : List BlockRecord) : Prop where
  height : ∀ r tip older, r :: tip :: older <:+ chain → r.height = tip.height + 1
  weight : ∀ r older, r :: older <:+ chain → ∃ ds, Difficulties (r :: older) ds ∧ r.weight = ds.sum
  totalIters : ∀ r tip older, r :: tip :: older <:+ chain → tip.totalIters < r.totalIters
  timestamp : ∀ x ∈ chain, ∀ y ∈ chain, x.height < y.height →
    ∀ t t', x.timestamp = some t → y.timestamp = some t' → t < t'
  transaction : ∀ r tip older, r :: tip :: older <:+ chain →
    ∃ tx sp, (tip :: older).find? BlockRecord.isTransactionBlock = some tx ∧ r.spTotalIters = .ok sp ∧
      (r.isTransactionBlock = true ↔ tx.totalIters < sp)

lemma isValid_iterations {proof : VDFProof} {inputEl : ClassgroupElement} {info target : VDFInfo} (hvdf : NoEmptyVdf env)
    (h : proof.isValid env inputEl info (some target) = true) : target.numberOfIterations ≠ 0 := by
  simp only [VDFProof.isValid, Option.isNone_some, Bool.false_or, Option.some.injEq, Bool.and_eq_true,
    decide_eq_true_eq] at h
  obtain ⟨⟨rfl, -⟩, hverify⟩ := h
  intro hzero
  rw [hzero, hvdf] at hverify
  cases hverify

lemma FinishedAccepted.total_lt {block : HeaderBlock} {difficulty ipIters : ℕ} {start : Bytes32 × ℕ × ClassgroupElement}
    {ccChallenge : Bytes32} (hvdf : NoEmptyVdf env)
    (h : FinishedAccepted env blocks block tip difficulty ipIters start ccChallenge)
    (hslots : block.finishedSubSlots = []) :
    tip.totalIters < block.totalIters := by
  have hstart := h.vdfStart
  unfold ipVdfStart at hstart
  rw [hslots] at hstart
  obtain ⟨iters, hiters, hstart⟩ := bind_eq_ok.mp hstart
  cases hstart
  have hvdfs := h.ipVdfs
  simp only [checkIpVdfs, accepts_require_bind, accepts_require] at hvdfs
  have hne := isValid_iterations hvdf hvdfs.2.2.2
  have := (uint64_eq_ok.mp hiters).1
  dsimp only at hne
  omega

lemma AcceptedChain.total_lt (hvdf : NoEmptyVdf env) (h : AcceptedChain env (r :: tip :: older)) :
    tip.totalIters < r.totalIters := by
  cases h with
  | block blocks block _ _ _ htail hknows hprev hrecord =>
    have hchain := validChain_of_accepted htail
    have htip : RecordOk tip := hchain.recordOk tip mem_cons_self
    by_cases hn : block.finishedSubSlots.length = 0
    · obtain ⟨now, checkFilter, ssi, difficulty, req, hnext, haccepts, hrecord'⟩ := hrecord.accepted
      have hssi : ssi < 2 ^ 64 := getNextSubSlotItersAndDifficulty_lt htip.iters.lt hnext
      obtain ⟨iters, ccSpHash, start, ccChallenge, hblock⟩ := (accepts_block_iff hchain hknows hprev hssi).mp haccepts
      obtain ⟨overflow, deficit, ses, -, -, -, rfl⟩ := blockToBlockRecord_eq hrecord.prev hnext hrecord'
      exact hblock.finished.total_lt hvdf (eq_nil_of_length_eq_zero hn)
    · exact (extends_of_accepted hchain hknows hprev hrecord).total_lt htip hn

lemma ValidChain.weight_eq (h : ValidChain env (r :: older)) : ∃ ds, Difficulties (r :: older) ds ∧ r.weight = ds.sum := by
  induction h using ValidChain.tipRec with
  | genesis n g hg =>
    exact ⟨_, .genesis g, hg.weight⟩
  | block n r' tip older' htail hr ih =>
    obtain ⟨ds, hds, hweight⟩ := ih
    obtain ⟨blocks, hknows, hvalues, -⟩ := hr.values
    refine ⟨(r'.weight - tip.weight) :: ds, .block blocks r' tip older' r'.subSlotIters _ ds hds hknows ?_, ?_⟩
    · rw [hr.first]
      exact hvalues
    · have := hr.weight_le
      rw [sum_cons]
      omega

/-- Along every accepted chain heights, weights, iterations and timestamps grow as they should. -/
theorem accepted_chain_growing (env : HeaderEnv) (hvdf : NoEmptyVdf env) (chain : List BlockRecord)
    (h : AcceptedChain env chain) : Growing chain where
  height r tip older hsuffix := ((validChain_of_accepted h).linked.suffix hsuffix).2.1
  weight r older hsuffix := ((validChain_of_accepted h).suffix hsuffix).weight_eq
  totalIters r tip older hsuffix := (h.suffix hsuffix).total_lt hvdf
  timestamp x hx y hy hlt t t' ht ht' := (validChain_of_accepted h).timestamp_lt hx hy hlt ht ht'
  transaction r tip older hsuffix := by
    have hchain := (validChain_of_accepted h).suffix hsuffix
    obtain ⟨n, -, hr⟩ := hchain.cons_inv
    obtain ⟨tx, htx, hiff, -⟩ := hr.transaction
    refine ⟨tx, r.spTotal, htx, hchain.spTotalIters mem_cons_self, ?_⟩
    rw [hiff, decide_eq_true_iff]

theorem accepted_chain_growing_epoch :
    NoEmptyVdf Sample.positiveEnv ∧ AcceptedChain Sample.positiveEnv Sample.epochChain ∧ Growing Sample.epochChain := by
  have hvdf : NoEmptyVdf Sample.positiveEnv := fun _ _ _ _ => rfl
  exact ⟨hvdf, Sample.epochChain_accepted, accepted_chain_growing _ hvdf _ Sample.epochChain_accepted⟩

/-- The block includes a summary in the interval of heights where sub-epoch `k` has to end. -/
def Closes (k : ℕ) (r : BlockRecord) : Prop :=
  r.subEpochSummaryIncluded.isSome = true ∧ SUB_EPOCH_BLOCKS * (k + 1) ≤ r.height ∧ r.height < SUB_EPOCH_BLOCKS * (k + 2)

lemma OnTime.closes (h : OnTime tip older) {k : ℕ} (hk : (summaryBlocks (tip :: older))[k]? = some r) : Closes k r := by
  have hheights := h.heights k r hk
  refine ⟨(mem_summaryBlocks.mp (mem_of_getElem? hk)).2, ?_⟩
  simp only [SUB_EPOCH_BLOCKS]
  omega

/-- The `k`-th summary of an accepted chain is included in the interval of sub-epoch `k`, and no other block there
includes one. -/
theorem sub_epochs_closed_once (env : HeaderEnv) (chain : List BlockRecord) (h : AcceptedChain env chain) (k : ℕ) :
    (∀ r, (summaryBlocks chain)[k]? = some r → Closes k r) ∧
    (∀ r ∈ chain, ∀ r' ∈ chain, Closes k r → Closes k r' → r = r') ∧
    (SUB_EPOCH_BLOCKS * (k + 2) ≤ chain.length → ∃ r ∈ chain, (summaryBlocks chain)[k]? = some r ∧ Closes k r) := by
  have hvalid := validChain_of_accepted h
  obtain ⟨tip, older, rfl⟩ := exists_cons_of_ne_nil hvalid.ne_nil
  have htime := hvalid.onTime
  refine ⟨fun r hk => htime.closes hk, ?_, ?_⟩
  · rintro r hr r' hr' ⟨hses, hlow, hhigh⟩ ⟨hses', hlow', hhigh'⟩
    simp only [SUB_EPOCH_BLOCKS] at hlow hhigh hlow' hhigh'
    exact htime.unique hr hr' hses hses' (by omega)
  intro hlength
  have hheight := hvalid.linked.length
  have hnumber : (tip.height + 1) / 384 - 1 ≤ (summaryBlocks (tip :: older)).length := by
    cases hopen : summaryFrom (subEpochStart (tip.height + 1)) (tip :: older) with
    | true =>
      rw [htime.closed hopen]
      exact Nat.sub_le _ _
    | false => exact (htime.open_ hopen).1.ge
  simp only [SUB_EPOCH_BLOCKS, length_cons] at hlength
  have hk : k < (summaryBlocks (tip :: older)).length := by omega
  have hget := getElem?_eq_getElem hk
  exact ⟨_, (mem_summaryBlocks.mp (mem_of_getElem? hget)).1, hget, htime.closes hget⟩

theorem sub_epochs_closed_once_epoch : AcceptedChain Sample.positiveEnv Sample.epochChain ∧ ∀ k ≤ 10,
    (∃ r ∈ Sample.epochChain, (summaryBlocks Sample.epochChain)[k]? = some r ∧ Closes k r) ∧
    ∀ r ∈ Sample.epochChain, ∀ r' ∈ Sample.epochChain, Closes k r → Closes k r' → r = r' := by
  refine ⟨Sample.epochChain_accepted, fun k hk => ?_⟩
  obtain ⟨-, hunique, hexists⟩ := sub_epochs_closed_once _ _ Sample.epochChain_accepted k
  refine ⟨hexists ?_, hunique⟩
  obtain ⟨tip, older, hchain, hfarmed, hheight⟩ := Sample.exists_epochChain
  rw [hchain, length_cons, length_cons, hfarmed.valid.linked.length, hheight, SUB_EPOCH_BLOCKS]
  omega

lemma getNext_of_height (hchain : ValidChain env (tip :: older)) (hknows : Knows blocks (tip :: older))
    (hheight : ¬tip.height + 1 < 2 ^ 32) (first : Bool) :
    getNextSubSlotItersAndDifficulty first (some tip) blocks = .ok (tip.subSlotIters, difficulty (tip :: older)) ∨
      getNextSubSlotItersAndDifficulty first (some tip) blocks = .error .valueError := by
  have hnext : uint32 ((tip.height : ℤ) + 1) = .error .valueError := by
    cases h : uint32 ((tip.height : ℤ) + 1) with
    | ok n =>
      have := uint32_eq_ok.mp h
      omega
    | error e => rw [(toUint_eq_error h).1]
  unfold getNextSubSlotItersAndDifficulty
  dsimp only
  rw [difficultyOf_ok hchain hknows]
  cases hses : tip.subEpochSummaryIncluded with
  | some ses => exact Or.inl rfl
  | none =>
    right
    rw [hchain.spTotalIters mem_cons_self]
    unfold getNextDifficulty nextValue
    rw [hnext]
    rfl

lemma ValidChain.significant (h : ValidChain env (tip :: older)) :
    countSignificantBits tip.subSlotIters ≤ 8 ∧ countSignificantBits (difficulty (tip :: older)) ≤ 8 := by
  induction h using ValidChain.tipRec with
  | genesis n g hg =>
    change countSignificantBits g.subSlotIters ≤ 8 ∧ countSignificantBits g.weight ≤ 8
    rw [hg.subSlotIters, hg.weight]
    decide
  | block n r tip' older' htail hr ih =>
    cases hends : endsEpoch tip' older' n with
    | false =>
      rw [(hr.same htail hends).1, (hr.same htail hends).2]
      exact ih
    | true =>
      have hnew := hr.newValues htail (htail.spTotalIters mem_cons_self) hends
      obtain ⟨q, hq⟩ := hnew.subSlotIters
      obtain ⟨q', hq'⟩ := hnew.difficulty
      rw [show r.subSlotIters = _ from hq, show difficulty (r :: tip' :: older') = _ from hq']
      exact ⟨countSignificantBits_roundDown_truncate 6 _ 8, countSignificantBits_truncate _ 8⟩

/-- The bounds on the values of the block after the tip. -/
structure ValueBounds (tip : BlockRecord) (older : List BlockRecord) (values : ℕ × ℕ) : Prop where
  subSlotIters : SubSlotItersBounds tip.subSlotIters values.1
  difficulty : DifficultyBounds (difficulty (tip :: older)) values.2

lemma ValidChain.same_bounds (h : ValidChain env (tip :: older)) :
    ValueBounds tip older (tip.subSlotIters, Header.difficulty (tip :: older)) := by
  obtain ⟨hssi, hdifficulty⟩ := h.significant
  obtain ⟨hlow, hdivides⟩ := h.sixtyFour_le
  have htruncate (x : ℕ) : truncateToSignificantBits (x / 3) 8 ≤ x :=
    (truncateToSignificantBits_le _ 8).trans (Nat.div_le_self x 3)
  refine ⟨⟨by omega, hdivides, hssi, Nat.le_mul_of_pos_left _ (by decide), ?_⟩,
    ⟨h.difficulty_pos.1, hdifficulty, Nat.le_mul_of_pos_left _ (by decide), htruncate _⟩⟩
  exact (Nat.sub_le _ _).trans (htruncate _)

/-- The next values on an accepted chain are in bounds; small numbers raise nothing. -/
theorem next_values_bounded (env : HeaderEnv) (blocks : Blocks) (tip : BlockRecord) (older : List BlockRecord)
    (h : AcceptedChain env (tip :: older)) (hknows : Knows blocks (tip :: older)) (isFirstInSubSlot : Bool) :
    ReturnsOr (SmallNumbers (tip :: older)) .valueError (ValueBounds tip older)
      (getNextSubSlotItersAndDifficulty isFirstInSubSlot (some tip) blocks) := by
  have hchain := validChain_of_accepted h
  by_cases hheight : tip.height + 1 < 2 ^ 32
  · have hfirst : isFirstInSubSlot = decide (0 < isFirstInSubSlot.toNat) := by cases isFirstInSubSlot <;> rfl
    rw [hfirst]
    cases hends : endsEpoch tip older isFirstInSubSlot.toNat with
    | false =>
      rw [getNext_of_not_ends hchain hknows hheight hends]
      exact .ok hchain.same_bounds
    | true =>
      refine (getNext_epochEnd (hchain.spTotalIters mem_cons_self) hchain hknows hheight hends).imp fun values hvalues => ?_
      obtain ⟨q, hq⟩ := hvalues.subSlotIters
      obtain ⟨q', hq'⟩ := hvalues.difficulty
      exact ⟨hq ▸ retargetSubSlotIters_bounds hchain.sixtyFour_le.1,
        hq' ▸ retargetDifficulty_bounds hchain.difficulty_pos.1⟩
  · rcases getNext_of_height hchain hknows hheight isFirstInSubSlot with hsame | herror
    · rw [hsame]
      exact .ok hchain.same_bounds
    · rw [herror]
      exact .error fun hsmall => hheight (hsmall.height tip mem_cons_self)

theorem next_values_bounded_epoch : let (tip, older) := Sample.farmedChain 4607
    let blocks := Sample.blocksOf (tip :: older)
    AcceptedChain Sample.positiveEnv (tip :: older) ∧
      getNextSubSlotItersAndDifficulty true (some tip) blocks = .ok (3 * 2 ^ 27, 2) ∧
      ReturnsOr (SmallNumbers (tip :: older)) .valueError (ValueBounds tip older)
        (getNextSubSlotItersAndDifficulty true (some tip) blocks) := by
  obtain ⟨hfarmed, hheight⟩ := Sample.farmed_farmedChain (n := 4607) le_rfl
  exact ⟨hfarmed.accepted, hfarmed.getNext_end hheight, next_values_bounded _ _ _ _ hfarmed.accepted hfarmed.knows true⟩

/-- The block after the tip may start an epoch. -/
def MayStartEpoch (blocks : Blocks) (tip : BlockRecord) : Prop :=
  canFinishSubAndFullEpoch blocks tip.height tip.prevHash tip.deficit tip.subEpochSummaryIncluded.isSome = .ok (true, true)

/-- Where a block may start an epoch, the search from two blocks before returns the reference block. -/
def FindsReferences (blocks : Blocks) (chain : List BlockRecord) : Prop :=
  ∀ tip prev older, tip :: prev :: older <:+ chain → MayStartEpoch blocks tip →
    ∃ x, epochReference (tip :: prev :: older) = some x ∧ getSecondToLastTransactionBlockInPreviousEpoch blocks prev = .ok x

lemma MayStartEpoch.height_lt (h : MayStartEpoch blocks tip) : tip.height + 1 < 2 ^ 32 := by
  unfold MayStartEpoch canFinishSubAndFullEpoch at h
  split at h
  · cases h
  split at h
  · cases h
  split at h
  · cases h
  obtain ⟨included, -, h⟩ := bind_eq_ok.mp h
  cases included with
  | true => cases h
  | false =>
    obtain ⟨next, hnext, -⟩ := bind_eq_ok.mp h
    have := uint32_eq_ok.mp hnext
    omega

/-- On an accepted chain the search raises nothing and finds the reference block of each epoch. -/
theorem epoch_references_found (env : HeaderEnv) (blocks : Blocks) (chain : List BlockRecord) (h : AcceptedChain env chain)
    (hknows : Knows blocks chain) : FindsReferences blocks chain := by
  intro tip prev older hsuffix hmay
  have hchain := validChain_of_accepted (h.suffix hsuffix)
  have hcan := canFinishSubAndFullEpoch_eq (hknows.suffix hsuffix) hchain.linked hmay.height_lt
  obtain ⟨hse, hepoch⟩ := Prod.mk.inj (Except.ok.inj (hcan.symm.trans hmay))
  obtain ⟨newer, a, rest, hlast⟩ := hchain.exists_lastEpoch hse (Bool.and_eq_true_iff.mp hepoch).2
  obtain ⟨x, -, hfound, hreference, -⟩ := hlast.secondToLast hchain (hknows.suffix hsuffix) hmay.height_lt
  exact ⟨x, hreference, hfound⟩

theorem epoch_references_found_epoch : AcceptedChain Sample.positiveEnv Sample.epochChain ∧
    (∃ tip older, tip :: older <:+ Sample.epochChain ∧ MayStartEpoch (Sample.blocksOf Sample.epochChain) tip) ∧
    FindsReferences (Sample.blocksOf Sample.epochChain) Sample.epochChain := by
  have hknows := Sample.knows_epochChain
  refine ⟨Sample.epochChain_accepted, ?_, epoch_references_found _ _ _ Sample.epochChain_accepted hknows⟩
  obtain ⟨tip, older, hchain, hfarmed, hheight⟩ := Sample.exists_epochChain
  have hsuffix : tip :: older <:+ Sample.epochChain := hchain ▸ suffix_cons _ _
  refine ⟨tip, older, hsuffix, ?_⟩
  unfold MayStartEpoch
  rw [canFinishSubAndFullEpoch_eq (hknows.suffix hsuffix) hfarmed.valid.linked (by omega), hfarmed.canFinishSe_eq,
    epochAligned,
    hheight]
  rfl

end SectorChain.Header
