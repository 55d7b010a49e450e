import SectorChain.Proofs.Header.Iterations

/-!
# When a sub-epoch may end

`can_finish_sub_and_full_epoch` on a chain.
-/

namespace SectorChain.Header

open Lib Blocks

variable {blocks : Blocks} {r r' tip : BlockRecord} {chain older : List BlockRecord}

def subEpochStart (height : ℕ) : ℕ := height / 384 * 384

def summaryFrom (start : ℕ) (chain : List BlockRecord) : Bool :=
  chain.any fun r => start ≤ r.height && r.subEpochSummaryIncluded.isSome

/-- Whether a new slot after the tip starts a sub-epoch. -/
def canFinishSe (tip : BlockRecord) (older : List BlockRecord) : Bool :=
  383 ≤ tip.height && tip.deficit = 0 && tip.subEpochSummaryIncluded.isNone &&
    !summaryFrom (subEpochStart (tip.height + 1)) older

/-- Whether it then starts an epoch. -/
def epochAligned (tip : BlockRecord) : Bool := (tip.height + 1) % 4608 < 384

lemma summaryFrom_eq_false {start : ℕ} : summaryFrom start chain = false ↔
    ∀ r ∈ chain, start ≤ r.height → r.subEpochSummaryIncluded = none := by
  unfold summaryFrom
  rw [List.any_eq_false]
  refine forall_congr' fun r => forall_congr' fun _ => ?_
  cases r.subEpochSummaryIncluded <;> simp

lemma summaryFrom_cons {start : ℕ} : summaryFrom start (r :: older) =
    (start ≤ r.height && r.subEpochSummaryIncluded.isSome || summaryFrom start older) := rfl

lemma summaryFrom_of_lt {start : ℕ} (h : ∀ r ∈ chain, r.height < start) : summaryFrom start chain = false :=
  summaryFrom_eq_false.mpr fun r hr hle => absurd (h r hr) (not_lt.mpr hle)

lemma summarySince_eq (hknows : Knows blocks (r :: older)) (hlinked : Linked (r :: older)) :
    summarySince blocks r = .ok (summaryFrom (subEpochStart r.height) (r :: older)) := by
  unfold summarySince
  rw [walk_eq_walkList hknows hlinked]
  induction older generalizing r with
  | nil =>
    have hzero : r.height = 0 := hlinked
    simp [walkList, hzero, summaryFrom, subEpochStart]
  | cons r' older ih =>
    have hstart : subEpochStart r.height ≤ r.height := Nat.div_mul_le_self _ _
    rw [walkList, summaryFrom_cons]
    by_cases hmod : r.height % SUB_EPOCH_BLOCKS > 0
    · rw [if_pos hmod]
      cases hses : r.subEpochSummaryIncluded.isSome with
      | true => simp [hstart]
      | false =>
        have hsame : subEpochStart r'.height = subEpochStart r.height := by
          have hheight := hlinked.2.1
          have hmod : r.height % 384 > 0 := hmod
          unfold subEpochStart
          omega
        simp only [Bool.false_eq_true, if_false, Bool.and_false, Bool.false_or]
        rw [← hsame]
        exact ih hknows.tail hlinked.tail
    · rw [if_neg hmod]
      have hsame : subEpochStart r.height = r.height := by
        have hmod : ¬r.height % 384 > 0 := hmod
        unfold subEpochStart
        omega
      rw [hsame, summaryFrom_of_lt hlinked.height_lt]
      simp

lemma heightCanBeFirstInEpoch_eq (height : ℕ) : heightCanBeFirstInEpoch height = decide (height % 4608 < 384) := by
  unfold heightCanBeFirstInEpoch
  simp only [SUB_EPOCH_BLOCKS, EPOCH_BLOCKS, decide_eq_decide]
  omega

lemma includedSince_eq (hknows : Knows blocks (tip :: older)) (hlinked : Linked (tip :: older)) (hpos : tip.height ≠ 0) :
    includedSince blocks tip.height tip.prevHash = .ok (summaryFrom (subEpochStart (tip.height + 1)) older) := by
  unfold includedSince
  cases older with
  | nil => exact absurd hlinked hpos
  | cons r' older =>
    have hheight := hlinked.2.1
    by_cases hmod : (tip.height + 1) % SUB_EPOCH_BLOCKS > 1
    · have hmod' : (tip.height + 1) % 384 > 1 := hmod
      have hsame : subEpochStart r'.height = subEpochStart (tip.height + 1) := by
        unfold subEpochStart
        omega
      rw [if_pos hmod, blockRecord_prev hknows hlinked, ok_bind, summarySince_eq hknows.tail hlinked.tail, hsame]
    have hmod' : ¬(tip.height + 1) % 384 > 1 := hmod
    rw [if_neg hmod, summaryFrom_of_lt]
    intro b hb
    have hlt := hlinked.height_lt b hb
    unfold subEpochStart
    omega

lemma canFinishSubAndFullEpoch_eq (hknows : Knows blocks (tip :: older)) (hlinked : Linked (tip :: older))
    (hheight : tip.height + 1 < 2 ^ 32) :
    canFinishSubAndFullEpoch blocks tip.height tip.prevHash tip.deficit tip.subEpochSummaryIncluded.isSome =
      .ok (canFinishSe tip older, canFinishSe tip older && epochAligned tip) := by
  unfold canFinishSubAndFullEpoch canFinishSe
  by_cases hlow : tip.height < SUB_EPOCH_BLOCKS - 1
  · have hlow' : ¬383 ≤ tip.height := not_le.mpr hlow
    simp [hlow']
  have hlow' : 383 ≤ tip.height := not_lt.mp hlow
  by_cases hdeficit : tip.deficit > 0
  · simp [hdeficit.ne']
  have hzero : tip.deficit = 0 := Nat.eq_zero_of_not_pos hdeficit
  cases hses : tip.subEpochSummaryIncluded with
  | some ses => simp
  | none =>
    rw [includedSince_eq hknows hlinked (by omega), ok_bind]
    cases summaryFrom (subEpochStart (tip.height + 1)) older with
    | true => simp
    | false =>
      rw [uint32_succ hheight, ok_bind, heightCanBeFirstInEpoch_eq]
      simp [hlow', hzero, epochAligned]

end SectorChain.Header
