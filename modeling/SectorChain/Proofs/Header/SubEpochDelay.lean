import SectorChain.Proofs.Header.ValidChains

/-!
# How late a sub-epoch ends

Every block makes the number of blocks left smaller.
-/

namespace SectorChain.Header

open Lib List

variable {env : HeaderEnv} {n : ℕ} {tip r : BlockRecord} {chain older : List BlockRecord}

/-- How many blocks may be added at most before a slot ends with no deficit. -/
def slack (deficit count : ℕ) : ℕ :=
  if deficit = 16 then 128 - count + 143 else if deficit = 0 then 128 - count else deficit + 127

lemma slack_le {deficit count : ℕ} (hdeficit : deficit ≤ 16) (hcount : 0 < count) : slack deficit count ≤ 270 := by
  unfold slack
  split_ifs <;> omega

lemma slotCount_pos : 0 < slotCount (r :: older) := by
  rw [slotCount]
  split_ifs <;> omega

lemma Extends.slotCount_eq (h : Extends env tip older n r) :
    slotCount (r :: tip :: older) = if n = 0 then slotCount (tip :: older) + 1 else 1 := by
  rw [slotCount, h.first]
  by_cases hn : n = 0
  · simp [hn]
  · simp [hn, Nat.pos_of_ne_zero hn]

lemma ValidChain.slotCount_le (h : ValidChain env chain) : slotCount chain ≤ 128 := by
  cases h with
  | genesis n r hr => simp [slotCount, hr.first]
  | block n r tip older _ hr =>
    rw [hr.slotCount_eq]
    split_ifs with hn
    · exact hr.count hn
    · omega

lemma Extends.slack_lt (h : Extends env tip older n r) (hdeficit : tip.deficit ≤ 16) (hopen : n = 0 ∨ tip.deficit ≠ 0) :
    slack r.deficit (slotCount (r :: tip :: older)) < slack tip.deficit (slotCount (tip :: older)) := by
  rw [h.deficit, h.slotCount_eq, nextDeficit]
  by_cases hn : n = 0
  · have hcount := h.count hn
    by_cases hfull : tip.deficit = 16
    · cases r.overflow with
      | true =>
        simp only [slack, hn, hfull, if_true, and_self]
        omega
      | false =>
        simp [slack, hn, hfull]
    by_cases hzero : tip.deficit = 0
    · simp only [slack, hn, hzero, OfNat.zero_ne_ofNat, if_false, if_true]
      omega
    · simp only [slack, hn, hfull, hzero, if_false, if_true]
      split_ifs <;> omega
  · have hne : tip.deficit ≠ 0 := hopen.resolve_left hn
    by_cases hfull : tip.deficit = 16
    · simp [slack, hn, hfull]
    · simp only [slack, hn, hfull, hne, if_false]
      split_ifs <;> omega

def summaryBlocks (chain : List BlockRecord) : List BlockRecord :=
  (chain.filter fun r => r.subEpochSummaryIncluded.isSome).reverse

lemma summaryBlocks_cons_some (h : r.subEpochSummaryIncluded.isSome = true) :
    summaryBlocks (r :: older) = summaryBlocks older ++ [r] := by
  simp [summaryBlocks, h]

lemma summaryBlocks_cons_none (h : r.subEpochSummaryIncluded.isSome = false) :
    summaryBlocks (r :: older) = summaryBlocks older := by
  simp [summaryBlocks, h]

lemma mem_summaryBlocks : r ∈ summaryBlocks chain ↔ r ∈ chain ∧ r.subEpochSummaryIncluded.isSome = true := by
  simp [summaryBlocks]

/-- Each summary is at most 270 blocks late, and the next one can still be in time. -/
structure OnTime (tip : BlockRecord) (older : List BlockRecord) : Prop where
  heights : ∀ k r, (summaryBlocks (tip :: older))[k]? = some r → 384 * (k + 1) ≤ r.height ∧ r.height ≤ 384 * (k + 1) + 270
  closed : summaryFrom (subEpochStart (tip.height + 1)) (tip :: older) = true →
    (summaryBlocks (tip :: older)).length = (tip.height + 1) / 384
  open_ : summaryFrom (subEpochStart (tip.height + 1)) (tip :: older) = false →
    (summaryBlocks (tip :: older)).length = (tip.height + 1) / 384 - 1 ∧
    (0 < (tip.height + 1) / 384 →
      tip.height + slack tip.deficit (slotCount (tip :: older)) ≤ subEpochStart (tip.height + 1) + 269)

lemma OnTime.late (h : OnTime tip older) (hr : r ∈ tip :: older) (hses : r.subEpochSummaryIncluded.isSome = true) :
    384 ≤ r.height ∧ r.height % 384 ≤ 270 := by
  obtain ⟨k, hk⟩ := getElem?_of_mem (mem_summaryBlocks.mpr ⟨hr, hses⟩)
  have := h.heights k r hk
  omega

lemma OnTime.canFinishSe (h : OnTime tip older)
    (hclosed : summaryFrom (subEpochStart (tip.height + 1)) (tip :: older) = false)
    (hpos : 0 < (tip.height + 1) / 384) (hdeficit : tip.deficit = 0) : canFinishSe tip older = true := by
  have hlow : 383 ≤ tip.height := by omega
  rw [summaryFrom_cons, Bool.or_eq_false_iff] at hclosed
  have hnone : tip.subEpochSummaryIncluded.isSome = false := by
    cases hsome : tip.subEpochSummaryIncluded.isSome with
    | false => rfl
    | true =>
      have hmod := (h.late mem_cons_self hsome).2
      have hstart : ¬subEpochStart (tip.height + 1) ≤ tip.height := by simpa [hsome] using hclosed.1
      unfold subEpochStart at hstart
      omega
  simp [Header.canFinishSe, hlow, hdeficit, hclosed.2, Option.isSome_eq_false_iff.mp hnone]

lemma canFinishSe_eq_true : Header.canFinishSe tip older = true ↔ 383 ≤ tip.height ∧ tip.deficit = 0 ∧
    tip.subEpochSummaryIncluded = none ∧ summaryFrom (subEpochStart (tip.height + 1)) older = false := by
  simp [Header.canFinishSe, and_assoc]

lemma OnTime.close (h : OnTime tip older) (hr : Extends env tip older n r)
    (hses : r.subEpochSummaryIncluded.isSome = true) : OnTime r (tip :: older) := by
  have hheight := hr.height
  have hcan : Header.canFinishSe tip older = true := by
    have hsummary := hr.summary
    rw [hses] at hsummary
    exact (Bool.and_eq_true_iff.mp hsummary.symm).2
  obtain ⟨hlow, -, hnone, holder⟩ := canFinishSe_eq_true.mp hcan
  have hopen : summaryFrom (subEpochStart (tip.height + 1)) (tip :: older) = false := by
    rw [summaryFrom_cons, hnone, holder]
    simp
  obtain ⟨hlength, hslack⟩ := h.open_ hopen
  have hclosed : summaryFrom (subEpochStart (r.height + 1)) (r :: tip :: older) = true := by
    rw [summaryFrom_cons, hses]
    unfold subEpochStart at hslack ⊢
    simp only [Bool.and_true, Bool.or_eq_true, decide_eq_true_eq]
    omega
  unfold subEpochStart at hslack
  refine ⟨?_, ?_, ?_⟩
  · intro k r' hk
    rw [summaryBlocks_cons_some hses] at hk
    rcases lt_trichotomy k (summaryBlocks (tip :: older)).length with hlt | heq | hgt
    · rw [getElem?_append_left hlt] at hk
      exact h.heights k r' hk
    · rw [heq, getElem?_concat_length] at hk
      cases hk
      omega
    · rw [getElem?_eq_none (by simp; omega)] at hk
      cases hk
  · intro _
    rw [summaryBlocks_cons_some hses, length_append, length_singleton]
    omega
  · intro hfalse
    rw [hclosed] at hfalse
    cases hfalse

lemma OnTime.slack_of_keep (h : OnTime tip older) (hr : Extends env tip older n r) (hdeficit : tip.deficit ≤ 16)
    (hses : r.subEpochSummaryIncluded.isSome = false)
    (hopen : summaryFrom (subEpochStart (tip.height + 1)) (tip :: older) = false) (hpos : 0 < (tip.height + 1) / 384) :
    r.height + slack r.deficit (slotCount (r :: tip :: older)) ≤ subEpochStart (tip.height + 1) + 269 := by
  have hslack := (h.open_ hopen).2 hpos
  have hstep := hr.slack_lt hdeficit (by
    by_contra hends
    rw [not_or, not_not] at hends
    have hsummary := hr.summary
    rw [hses, h.canFinishSe hopen hpos hends.2, decide_eq_true (Nat.pos_of_ne_zero hends.1)] at hsummary
    cases hsummary)
  rw [hr.height] at *
  omega

lemma OnTime.keep (h : OnTime tip older) (hr : Extends env tip older n r) (hlinked : Linked (tip :: older))
    (hdeficit : tip.deficit ≤ 16) (hses : r.subEpochSummaryIncluded.isSome = false) : OnTime r (tip :: older) := by
  have hheight := hr.height
  have hblocks : summaryBlocks (r :: tip :: older) = summaryBlocks (tip :: older) := summaryBlocks_cons_none hses
  have hfrom : ∀ start, summaryFrom start (r :: tip :: older) = summaryFrom start (tip :: older) := by
    intro start
    rw [summaryFrom_cons, hses, Bool.and_false, Bool.false_or]
  by_cases hnext : (tip.height + 2) / 384 = (tip.height + 1) / 384
  · have hstart : subEpochStart (r.height + 1) = subEpochStart (tip.height + 1) := by
      unfold subEpochStart
      omega
    refine ⟨?_, ?_, ?_⟩
    · rw [hblocks]
      exact h.heights
    · intro hclosed
      rw [hfrom, hstart] at hclosed
      rw [hblocks, h.closed hclosed]
      omega
    intro hopen
    rw [hfrom, hstart] at hopen
    rw [hblocks, (h.open_ hopen).1, hstart]
    refine ⟨by omega, fun hpos => ?_⟩
    exact h.slack_of_keep hr hdeficit hses hopen (by omega)
  · -- the height after the block is the first of the next sub-epoch, which is open
    have hfalse : summaryFrom (subEpochStart (r.height + 1)) (tip :: older) = false := by
      refine summaryFrom_of_lt fun r' hr' => ?_
      have := hlinked.height_le r' hr'
      unfold subEpochStart
      omega
    have hlength : (summaryBlocks (tip :: older)).length = (tip.height + 1) / 384 := by
      cases hopen : summaryFrom (subEpochStart (tip.height + 1)) (tip :: older) with
      | true => exact h.closed hopen
      | false =>
        obtain ⟨hlength, hslack⟩ := h.open_ hopen
        by_cases hpos : 0 < (tip.height + 1) / 384
        · have := hslack hpos
          unfold subEpochStart at this
          omega
        · omega
    refine ⟨?_, ?_, ?_⟩
    · rw [hblocks]
      exact h.heights
    · intro hclosed
      rw [hfrom, hfalse] at hclosed
      cases hclosed
    intro _
    rw [hblocks]
    refine ⟨by omega, fun hpos => ?_⟩
    have hle : slack r.deficit (slotCount (r :: tip :: older)) ≤ 270 := by
      refine slack_le ?_ slotCount_pos
      rw [hr.deficit]
      exact nextDeficit_le hdeficit _ _
    unfold subEpochStart
    omega

lemma ValidChain.onTime (h : ValidChain env (tip :: older)) : OnTime tip older := by
  induction h using ValidChain.tipRec with
  | genesis n g hg =>
    have hblocks : summaryBlocks [g] = [] := by
      rw [summaryBlocks_cons_none (by rw [hg.summary]; rfl)]
      rfl
    refine ⟨?_, ?_, ?_⟩
    · rw [hblocks]
      intro k r hk
      cases hk
    · intro hclosed
      simp [summaryFrom, hg.summary] at hclosed
    · intro _
      rw [hblocks, hg.height]
      exact ⟨rfl, fun hpos => absurd hpos (by decide)⟩
  | block n r tip' older' htail hr ih =>
    have hdeficit := htail.deficit_le tip' mem_cons_self
    cases hses : r.subEpochSummaryIncluded.isSome with
    | true => exact ih.close hr hses
    | false => exact ih.keep hr htail.linked hdeficit hses

end SectorChain.Header
