import SectorChain.Proofs.Header.Farming

/-!
# A farmed epoch

One block in each slot. The slots of the second epoch are three times as long.
-/

namespace SectorChain.Header.Sample

open Lib Check List

variable {tip prev r : BlockRecord} {chain older : List BlockRecord} {ssi d : ℕ}

/-- Records of a chain that is not the main chain. -/
def blocksOf (chain : List BlockRecord) : Blocks :=
  ⟨chain.foldr (fun r d => d.set r.headerHash r) .empty, .empty⟩

lemma get?_blocksOf (chain : List BlockRecord) (h : Bytes32) :
    (blocksOf chain).blockRecords.get? h = chain.find? fun r => h = r.headerHash := by
  induction chain with
  | nil => rfl
  | cons r chain ih =>
    change (Dict.set (blocksOf chain).blockRecords r.headerHash r).get? h = _
    rw [Dict.get?_set, ih, find?_cons]
    split_ifs with heq <;> simp [heq]

lemma ofNat_inj {a b : ℕ} (ha : a < 2 ^ 256) (hb : b < 2 ^ 256) (h : SizedBytes.ofNat 32 a = SizedBytes.ofNat 32 b) :
    a = b := by
  have hnat := congrArg (fun x : Bytes32 => beNat x.toBytes) h
  simp only [SizedBytes.ofNat, beNat_beBytes] at hnat
  omega

/-- The hash of a header is one more than its height. -/
def Numbered (chain : List BlockRecord) : Prop := ∀ r ∈ chain, r.headerHash = .ofNat 32 (r.height + 1)

lemma knows_blocksOf (hchain : ValidChain positiveEnv (tip :: older)) (hhash : Numbered (tip :: older))
    (hlow : tip.height + 1 < 2 ^ 32) : Knows (blocksOf (tip :: older)) (tip :: older) where
  records r hr := by
    rw [get?_blocksOf]
    have hsome : ((tip :: older).find? fun x => r.headerHash = x.headerHash).isSome = true :=
      find?_isSome.mpr ⟨r, hr, decide_eq_true rfl⟩
    obtain ⟨x, hx⟩ := Option.isSome_iff_exists.mp hsome
    have hxmem := mem_of_find?_eq_some hx
    have heq : r.headerHash = x.headerHash := by simpa using find?_some hx
    rw [hhash r hr, hhash x hxmem] at heq
    have hrlow := hchain.linked.height_le r hr
    have hxlow := hchain.linked.height_le x hxmem
    have hheight := ofNat_inj (by omega) (by omega) heq
    rw [hx, hchain.linked.eq_of_height hr hxmem (by omega)]
  genesis r hr hzero := by
    obtain ⟨n, g, hg, hgen⟩ := hchain.exists_genesis
    rw [hchain.linked.eq_of_height hr hg (hzero.trans hgen.height.symm), hgen.prev, get?_blocksOf, find?_eq_none]
    intro x hx heq
    have hxlow := hchain.linked.height_le x hx
    have heq : SizedBytes.ofNat 32 0 = SizedBytes.ofNat 32 (x.height + 1) := (of_decide_eq_true heq).trans (hhash x hx)
    exact absurd (ofNat_inj (by decide) (by omega) heq) (by omega)
  heights r older' _ hget := by cases hget

lemma exists_lastSummary {blocks : Blocks} (hknows : Knows blocks (tip :: older)) (hlinked : Linked (tip :: older))
    (hr : r ∈ tip :: older) (hses : r.subEpochSummaryIncluded.isSome = true) : ∃ x ∈ tip :: older, ∃ ses,
      x.subEpochSummaryIncluded = some ses ∧ lastSummaryBlock blocks tip = .ok (x, ses) := by
  unfold lastSummaryBlock
  rw [walk_eq_walkList hknows hlinked]
  generalize tip :: older = chain at hr
  induction chain with
  | nil => cases hr
  | cons b chain ih =>
    rw [walkList, ok_bind]
    cases hb : b.subEpochSummaryIncluded with
    | some ses => exact ⟨b, mem_cons_self, ses, hb, rfl⟩
    | none =>
      have hr' : r ∈ chain := (mem_cons.mp hr).resolve_left fun heq => by
        rw [heq, hb] at hses
        cases hses
      obtain ⟨x, hx, hfound⟩ := ih hr'
      exact ⟨x, mem_cons_of_mem b hx, hfound⟩

def genesisHeader : HeaderBlock := genesis (.ofNat 32 1)

def genesisRecord : BlockRecord := headerBlockToSubBlockRecord positiveEnv 7 genesisHeader (2 ^ 27) false 15 none

lemma genesis_accepted : AcceptedOn positiveEnv (blocksOf []) none genesisHeader genesisRecord :=
  ⟨rfl, 0, false, _, _, 7, rfl, show _ = _ by decide +kernel, by decide +kernel⟩

/-- A block of the first epoch of a farmed chain. -/
structure Regular (r : BlockRecord) : Prop where
  hash : r.headerHash = .ofNat 32 (r.height + 1)
  slots : ∃ c c', r.finishedChallengeSlotHashes = some [c] ∧ r.finishedRewardSlotHashes = some [c']
  timestamp : r.timestamp = some (100 * r.height)
  subSlotIters : r.subSlotIters = 2 ^ 27
  overflow : r.overflow = false
  totalIters : r.totalIters = 2 ^ 27 * r.height + 2 ^ 21 * (if r.height = 0 then 3 else 62) + 7
  slotStart : r.slotStart = 2 ^ 27 * r.height
  weight : r.weight = 7 * (r.height + 1)
  deficit : r.deficit = 15 - r.height % 16
  summary : r.subEpochSummaryIncluded.isSome = decide (0 < r.height ∧ r.height % 384 = 0)

/-- The summary that a block after the tip has to include. -/
def summaryAfter (tip : BlockRecord) (older : List BlockRecord) (ssi d : ℕ) : Option SubEpochSummary :=
  let blocks := blocksOf (tip :: older)
  let summary := do
    let prevPrevB ← blocks.blockRecord tip.prevHash
    makeSubEpochSummary positiveEnv blocks (tip.height + 1) prevPrevB (if epochAligned tip then some d else none)
      (if epochAligned tip then some ssi else none)
  if canFinishSe tip older then summary.toOption else none

def farmNext (tip : BlockRecord) (older : List BlockRecord) (ssi d : ℕ) : BlockRecord :=
  farmedRecord tip (summaryAfter tip older ssi d) ssi d

/-- A chain farmed in the first epoch. -/
structure Farmed (tip : BlockRecord) (older : List BlockRecord) : Prop where
  accepted : AcceptedChain positiveEnv (tip :: older)
  regular : ∀ r ∈ tip :: older, Regular r
  low : tip.height ≤ 4607

namespace Farmed

lemma valid (h : Farmed tip older) : ValidChain positiveEnv (tip :: older) := validChain_of_accepted h.accepted

lemma regular_tip (h : Farmed tip older) : Regular tip := h.regular tip mem_cons_self

lemma knows (h : Farmed tip older) : Knows (blocksOf (tip :: older)) (tip :: older) :=
  knows_blocksOf h.valid (fun r hr => (h.regular r hr).hash) (by have := h.low; omega)

lemma canFinishSe_eq (h : Farmed tip older) : canFinishSe tip older = decide ((tip.height + 1) % 384 = 0) := by
  have hsummary := h.regular_tip.summary
  have hdeficit := h.regular_tip.deficit
  rw [Bool.eq_iff_iff, canFinishSe_eq_true, decide_eq_true_eq, ← Option.isNone_iff_eq_none, ← Option.not_isSome, hsummary,
    hdeficit]
  constructor
  · rintro ⟨hlow, hzero, hnone, holder⟩
    by_contra hne
    -- the block that closed the sub-epoch before
    have hstart : subEpochStart (tip.height + 1) = (tip.height + 1) / 384 * 384 := rfl
    obtain ⟨r, hr, hheight⟩ := h.valid.linked.exists_height (n := subEpochStart (tip.height + 1)) (by omega)
    have hses := (h.regular r hr).summary
    rw [decide_eq_true (by omega)] at hses
    rcases mem_cons.mp hr with rfl | hr
    · simp [← hsummary, hses] at hnone
    · rw [summaryFrom_eq_false.mp holder r hr hheight.ge] at hses
      cases hses
  · intro hmod
    refine ⟨by omega, by omega, ?_, summaryFrom_of_lt fun r hr => ?_⟩
    · rw [decide_eq_false (by omega)]
      rfl
    · have := h.valid.linked.height_lt r hr
      unfold subEpochStart
      omega

lemma exists_summary (h : Farmed tip older) (hmod : (tip.height + 1) % 384 = 0) (newDifficulty newSubSlotIters : Option ℕ) :
    ∃ prevPrevB s, (blocksOf (tip :: older)).blockRecord tip.prevHash = .ok prevPrevB ∧
      makeSubEpochSummary positiveEnv (blocksOf (tip :: older)) (tip.height + 1) prevPrevB newDifficulty newSubSlotIters =
        .ok s := by
  have hlinked := h.valid.linked
  cases older with
  | nil =>
    have hzero : tip.height = 0 := hlinked
    omega
  | cons prev older =>
    have hheight := hlinked.2.1
    refine ⟨prev, ?_⟩
    unfold makeSubEpochSummary
    rw [blockRecord_prev h.knows hlinked, (pyAssert_ok (u := ())).mpr (decide_eq_true (by omega)), ok_bind]
    split_ifs with hfirst
    · exact ⟨_, rfl, rfl⟩
    · have hfirst : ¬(tip.height + 1 + 128) / 384 ≤ 1 := hfirst
      obtain ⟨r, hr, hrheight⟩ := hlinked.tail.exists_height (n := 384) (by omega)
      have hses := (h.regular r (mem_cons_of_mem _ hr)).summary
      rw [hrheight] at hses
      obtain ⟨x, hx, ses, hxses, hfound⟩ := exists_lastSummary h.knows.tail hlinked.tail hr hses
      have hxregular := h.regular x (mem_cons_of_mem _ hx)
      have hxmod := hxregular.summary
      rw [hxses, Option.isSome_some, eq_comm, decide_eq_true_eq] at hxmod
      obtain ⟨c, c', -, hreward⟩ := hxregular.slots
      rw [hfound, ok_bind]
      dsimp only [SUB_EPOCH_BLOCKS]
      rw [hreward, hxmod.2]
      exact ⟨_, rfl, rfl⟩

lemma farmable (h : Farmed tip older) (hiters : ItersOk ssi 59 d) :
    Farmable (blocksOf (tip :: older)) tip older (summaryAfter tip older ssi d) ssi d := by
  have hr := h.regular_tip
  have hlow := h.low
  have hweight := hr.weight
  have hstart := hr.slotStart
  have hssi := hr.subSlotIters
  have hreq := hiters.required_lt
  have hlt := hiters.lt
  have hcan := h.canFinishSe_eq
  have hdeficit := hr.deficit
  obtain ⟨c, -, hslots, -⟩ := hr.slots
  unfold spInterval at hreq
  have hsummary : (summaryAfter tip older ssi d).isSome = canFinishSe tip older ∧
      ∀ s, summaryAfter tip older ssi d = some s →
      ∃ prevPrevB, (blocksOf (tip :: older)).blockRecord tip.prevHash = .ok prevPrevB ∧
        makeSubEpochSummary positiveEnv (blocksOf (tip :: older)) (tip.height + 1) prevPrevB
          (if epochAligned tip then some d else none) (if epochAligned tip then some ssi else none) = .ok s := by
    unfold summaryAfter
    by_cases hmod : (tip.height + 1) % 384 = 0
    · obtain ⟨prevPrevB, s, hprev, hmake⟩ := h.exists_summary hmod (if epochAligned tip then some d else none)
        (if epochAligned tip then some ssi else none)
      rw [decide_eq_true hmod] at hcan
      rw [hcan, if_pos rfl, hprev, ok_bind, hmake]
      exact ⟨rfl, fun s' hs => ⟨prevPrevB, rfl, hmake.trans (by cases hs; rfl)⟩⟩
    · rw [decide_eq_false hmod] at hcan
      rw [hcan, if_neg Bool.false_ne_true]
      exact ⟨rfl, nofun⟩
  exact ⟨h.valid, h.knows, by rw [BlockRecord.firstInSubSlot, hslots]; rfl, by omega, ⟨_, hr.timestamp, by omega⟩, hiters,
    hsummary.1, hsummary.2, by omega, by omega, by omega⟩

lemma next (h : Farmed tip older) (hlt : tip.height < 4607) : Farmed (farmNext tip older (2 ^ 27) 7) (tip :: older) := by
  have hiters : ItersOk (2 ^ 27) 59 7 := ⟨by decide, by decide, by decide, by decide, by decide⟩
  have hfarmable := h.farmable hiters
  have hr := h.regular_tip
  have hends : endsEpoch tip older 1 = false := endsEpoch_eq_false_of_lt (show tip.height + 1 < 4608 by omega)
  have hnext := getNext_of_not_ends h.valid h.knows (by omega) hends
  obtain ⟨hssi, hdifficulty⟩ := h.valid.early (by omega)
  rw [hssi, hdifficulty] at hnext
  have hheight : (farmNext tip older (2 ^ 27) 7).height = tip.height + 1 := Nat.mod_eq_of_lt (by omega)
  refine ⟨hfarmable.acceptedChain h.accepted hnext, forall_mem_cons.mpr ⟨?_, h.regular⟩, by omega⟩
  have hip : infusionPoint (2 ^ 27) 59 7 = 2 ^ 21 * 62 + 7 := by decide
  have htotal : (farmNext tip older (2 ^ 27) 7).totalIters = 2 ^ 27 * (tip.height + 1) + infusionPoint (2 ^ 27) 59 7 := by
    change tip.slotStart + tip.subSlotIters + _ = _
    rw [hr.slotStart, hr.subSlotIters]
    ring
  refine ⟨?_, ⟨_, _, rfl, rfl⟩, ?_, rfl, rfl, ?_, ?_, ?_, ?_, ?_⟩
  · rw [hheight]
    exact hash_foliage _ _ _ _
  · rw [hheight]
    rfl
  · rw [htotal, hheight, hip, if_neg (Nat.succ_ne_zero _), Nat.add_assoc]
  · change (farmNext tip older (2 ^ 27) 7).totalIters - infusionPoint (2 ^ 27) 59 7 = _
    rw [htotal, hheight, Nat.add_sub_cancel]
  · rw [hheight]
    change (tip.weight + 7) % 2 ^ 128 = _
    rw [hr.weight]
    omega
  · rw [hheight]
    change nextDeficit tip.deficit false 1 = _
    rw [hr.deficit]
    unfold nextDeficit
    simp only [Bool.false_eq_true, false_and, if_false, one_ne_zero]
    split_ifs <;> omega
  · rw [hheight]
    change (summaryAfter tip older (2 ^ 27) 7).isSome = _
    rw [hfarmable.summary_isSome, h.canFinishSe_eq, decide_eq_decide]
    omega

/-- The first epoch is measured from the first block on. -/
lemma secondToLast (h : Farmed tip (prev :: older)) (hheight : tip.height = 4607) :
    ∃ g ∈ tip :: prev :: older, g.height = 0 ∧
      getSecondToLastTransactionBlockInPreviousEpoch (blocksOf (tip :: prev :: older)) prev = .ok g := by
  have hlinked := h.valid.linked
  have hprev : prev.height = 4606 := by
    have := hlinked.2.1
    omega
  obtain ⟨g, hg, hget, hzero⟩ := blocksFrom_getElem? hlinked.tail (t := 0) (k := 1) (i := 0) (by decide) (Nat.zero_le _)
  have hlength := blocksFrom_length hlinked.tail (t := 0) (k := 1) (by omega)
  have hblocks : blocksFrom (prev :: older) 0 1 = [g] := by
    obtain ⟨x, hx⟩ := length_eq_one_iff.mp hlength
    rw [hx] at hget
    rw [hx, Option.some.inj hget]
  have hat := getBlocksAtHeight_eq h.knows.tail hlinked.tail (t := 0) (k := 1) (by omega)
  refine ⟨g, mem_cons_of_mem _ hg, hzero, ?_⟩
  unfold getSecondToLastTransactionBlockInPreviousEpoch
  dsimp only
  rw [hprev, show uint32 _ = Except.ok 4608 from rfl, ok_bind, show uint32 _ = Except.ok 0 from rfl, ok_bind]
  rw [hat, hblocks]
  rfl

/-- The epoch was six times too short, so slots become three times as long. Difficulty falls to a third. -/
lemma getNext_end (h : Farmed tip older) (hheight : tip.height = 4607) :
    getNextSubSlotItersAndDifficulty true (some tip) (blocksOf (tip :: older)) = .ok (3 * 2 ^ 27, 2) := by
  have hlinked := h.valid.linked
  have hcan := h.canFinishSe_eq
  match older, h, hlinked, hcan with
  | [], _, hlinked, _ =>
    have hzero : tip.height = 0 := hlinked
    omega
  | [prev], _, hlinked, _ =>
    have hone := hlinked.2.1
    have hzero : prev.height = 0 := hlinked.2.2
    omega
  | prev :: prevPrev :: older, h, hlinked, hcan =>
    obtain ⟨g, hg, hzero, hsecond⟩ := h.secondToLast hheight
    have hprevHeight : prev.height = 4606 := by
      have := hlinked.2.1
      omega
    have hprevPrevHeight : prevPrev.height = 4605 := by
      have := hlinked.tail.2.1
      omega
    have hrg := h.regular g hg
    have hrp := h.regular prev (by simp)
    have hrpp := h.regular prevPrev (by simp)
    have hrt := h.regular_tip
    have hends : endsEpoch tip (prev :: prevPrev :: older) 1 = true := by
      unfold endsEpoch epochAligned
      rw [hcan, hheight]
      decide
    have hlast : lastTransactionBlockBy (blocksOf (tip :: prev :: prevPrev :: older)) tip.spTotal prev = .ok prev := by
      rw [lastTransactionBlockBy_eq h.knows.tail hlinked.tail, find?_cons_of_pos]
      · rfl
      have hsp : prev.totalIters ≤ tip.spTotal := by
        unfold BlockRecord.spTotal
        rw [hrt.overflow, hrt.slotStart, hrp.totalIters, hheight, hprevHeight, if_neg (by decide), if_neg (by decide)]
        omega
      simp [hsp, BlockRecord.isTransactionBlock, hrp.timestamp]
    have hdifficulty : adjustedDifficulty (blocksOf (tip :: prev :: prevPrev :: older)) g prev prev = .ok 2 := by
      unfold adjustedDifficulty
      rw [hrg.timestamp, hrp.timestamp, hzero, hprevHeight, assertSome_ok.mpr rfl, ok_bind, assertSome_ok.mpr rfl, ok_bind,
        show uint64 _ = Except.ok 460600 from rfl, ok_bind, blockRecord_prev h.knows.tail hlinked.tail, ok_bind, hrp.weight,
        hrpp.weight, hrg.weight, hzero, hprevHeight, hprevPrevHeight]
      decide +kernel
    have hiters : adjustedSubSlotIters g prev = .ok (3 * 2 ^ 27) := by
      unfold adjustedSubSlotIters
      rw [hrg.timestamp, hrp.timestamp, hrp.totalIters, hrg.totalIters, hrp.subSlotIters, hzero, hprevHeight]
      decide +kernel
    refine (getNext_measured (n := 1) (h.valid.spTotalIters mem_cons_self) h.valid h.knows (by omega) (by omega) hends
      hsecond hlast).trans ?_
    rw [difficultyOf_ok h.valid h.knows, ok_bind, hdifficulty, ok_bind, hiters]
    rfl

end Farmed

/-- The tip of a chain of `n + 1` farmed blocks, and the blocks before. -/
def farmedChain : ℕ → BlockRecord × List BlockRecord
  | 0 => (genesisRecord, [])
  | n + 1 => (farmNext (farmedChain n).1 (farmedChain n).2 (2 ^ 27) 7, (farmedChain n).1 :: (farmedChain n).2)

lemma farmed_farmedChain {n : ℕ} (hn : n ≤ 4607) :
    Farmed (farmedChain n).1 (farmedChain n).2 ∧ (farmedChain n).1.height = n := by
  induction n with
  | zero =>
    refine ⟨⟨.genesis _ _ _ genesis_accepted, forall_mem_singleton.mpr ?_, by decide⟩, rfl⟩
    exact ⟨hash_foliage _ _ _ _, ⟨_, _, rfl, rfl⟩, rfl, rfl, rfl, rfl, by decide +kernel, rfl, rfl, rfl⟩
  | succ n ih =>
    obtain ⟨hfarmed, hheight⟩ := ih (by omega)
    refine ⟨hfarmed.next (by omega), ?_⟩
    change ((farmedChain n).1.height + 1) % 2 ^ 32 = n + 1
    rw [hheight, Nat.mod_eq_of_lt (by omega)]

/-- A chain that goes on into the second epoch. -/
def epochChain : List BlockRecord :=
  let (tip, older) := farmedChain 4607
  farmNext tip older (3 * 2 ^ 27) 2 :: tip :: older

lemma exists_epochChain : ∃ tip older, epochChain = farmNext tip older (3 * 2 ^ 27) 2 :: tip :: older ∧ Farmed tip older ∧
    tip.height = 4607 := ⟨_, _, rfl, farmed_farmedChain le_rfl⟩

lemma epochChain_accepted : AcceptedChain positiveEnv epochChain := by
  obtain ⟨tip, older, hchain, hfarmed, hheight⟩ := exists_epochChain
  rw [hchain]
  exact (hfarmed.farmable ⟨by decide, by decide, by decide, by decide, by decide⟩).acceptedChain hfarmed.accepted
    (hfarmed.getNext_end hheight)

lemma knows_epochChain : Knows (blocksOf epochChain) epochChain := by
  have hvalid := validChain_of_accepted epochChain_accepted
  obtain ⟨tip, older, hchain, hfarmed, hheight⟩ := exists_epochChain
  rw [hchain] at hvalid ⊢
  have hnext := hvalid.linked.2.1
  refine knows_blocksOf hvalid (forall_mem_cons.mpr ⟨?_, fun r hr => (hfarmed.regular r hr).hash⟩) (by omega)
  rw [hnext]
  exact hash_foliage _ _ _ _

end SectorChain.Header.Sample
