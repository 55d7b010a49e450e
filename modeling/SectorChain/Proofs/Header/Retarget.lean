import SectorChain.Proofs.Header.Epochs
import SectorChain.Proofs.SignificantBits

/-!
# New difficulty and sub-slot iterations
-/

namespace SectorChain.Header

open Lib Blocks List

variable {env : HeaderEnv} {blocks : Blocks} {n ssi d old q : ℕ} {tip r a x : BlockRecord}
  {chain older newer rest : List BlockRecord}

def clamp (least old quotient : ℕ) : ℕ :=
  if quotient ≥ old then min quotient (3 * old) else max (max least quotient) (old / 3)

lemma clamp_le {least : ℕ} (hleast : least ≤ 3 * old) : clamp least old q ≤ 3 * old := by
  unfold clamp
  split_ifs <;> omega

lemma le_clamp {least : ℕ} : old / 3 ≤ clamp least old q := by
  unfold clamp
  split_ifs <;> omega

lemma least_le_clamp {least : ℕ} (hleast : least ≤ old) : least ≤ clamp least old q := by
  unfold clamp
  split_ifs <;> omega

def retargetSubSlotIters (old quotient : ℕ) : ℕ := roundDown 6 (truncateToSignificantBits (clamp 64 old quotient) 8)

def retargetDifficulty (old quotient : ℕ) : ℕ := truncateToSignificantBits (clamp 1 old quotient) 8

structure SubSlotItersBounds (old new : ℕ) : Prop where
  pos : 0 < new
  divides : new % NUM_SPS_SUB_SLOT = 0
  significant : countSignificantBits new ≤ SIGNIFICANT_BITS
  le : new ≤ DIFFICULTY_CHANGE_MAX_FACTOR * old
  ge : truncateToSignificantBits (old / DIFFICULTY_CHANGE_MAX_FACTOR) SIGNIFICANT_BITS -
    truncateToSignificantBits (old / DIFFICULTY_CHANGE_MAX_FACTOR) SIGNIFICANT_BITS % NUM_SPS_SUB_SLOT ≤ new

structure DifficultyBounds (old new : ℕ) : Prop where
  pos : 0 < new
  significant : countSignificantBits new ≤ SIGNIFICANT_BITS
  le : new ≤ DIFFICULTY_CHANGE_MAX_FACTOR * old
  ge : truncateToSignificantBits (old / DIFFICULTY_CHANGE_MAX_FACTOR) SIGNIFICANT_BITS ≤ new

lemma roundDown_six (x : ℕ) : roundDown 6 x = x - x % 64 := by
  unfold roundDown
  omega

lemma retargetSubSlotIters_bounds (hold : 64 ≤ old) : SubSlotItersBounds old (retargetSubSlotIters old q) where
  pos := by
    have hpow : 2 ^ 6 ≤ truncateToSignificantBits (clamp 64 old q) 8 := pow_le_truncate (by decide) (least_le_clamp hold)
    exact (by decide : 0 < 2 ^ 6).trans_le (le_roundDown dvd_rfl hpow)
  divides := Nat.mod_eq_zero_of_dvd (dvd_roundDown 6 _)
  significant := countSignificantBits_roundDown_truncate 6 _ 8
  le := ((roundDown_le 6 _).trans (truncateToSignificantBits_le _ 8)).trans (clamp_le (by omega))
  ge := by
    rw [← roundDown_six]
    exact roundDown_mono 6 (truncateToSignificantBits_mono (by decide) le_clamp)

lemma retargetDifficulty_bounds (hold : 0 < old) : DifficultyBounds old (retargetDifficulty old q) where
  pos := pow_le_truncate (i := 0) (by decide) (least_le_clamp hold)
  significant := countSignificantBits_truncate _ 8
  le := (truncateToSignificantBits_le _ 8).trans (clamp_le (by omega))
  ge := truncateToSignificantBits_mono (by decide) le_clamp

lemma LastEpoch.length_eq (h : LastEpoch tip older newer a rest) (hlinked : Linked (tip :: older)) :
    newer.length + a.height = tip.height := by
  have hlength := hlinked.length
  have hsuffix : a :: rest <:+ tip :: older := h.split ▸ suffix_append newer (a :: rest)
  have hlength' := (hlinked.suffix hsuffix).length
  have hsum := congrArg List.length h.split
  rw [length_append, length_cons, length_cons] at hsum
  omega

lemma LastEpoch.slots (h : LastEpoch tip older newer a rest) (hchain : ValidChain env (tip :: older)) :
    33 ≤ newer.countP BlockRecord.firstInSubSlot := by
  have hlength := h.length_eq hchain.linked
  have hvalid : ValidChain env (newer ++ a :: rest) := h.split ▸ hchain
  have hle := hvalid.length_le
  have hcount := hvalid.slotCount_le
  have := h.le_start
  have hstart : subEpochStart (tip.height + 1) = (tip.height + 1) / 384 * 384 := rfl
  omega

lemma LastEpoch.segmentTip_eq (h : LastEpoch tip older newer a rest) : segmentTip newer a = tip :=
  segmentTip_of_split h.split.symm

lemma LastEpoch.slotStart_ge (h : LastEpoch tip older newer a rest) (hchain : ValidChain env (tip :: older)) :
    33 * tip.subSlotIters ≤ tip.slotStart := by
  have hvalid : ValidChain env (newer ++ a :: rest) := h.split ▸ hchain
  obtain ⟨hssi, hstart⟩ := hvalid.same_values h.same
  have hmul := Nat.mul_le_mul_left a.subSlotIters (h.slots hchain)
  rw [h.segmentTip_eq] at hssi hstart
  omega

lemma LastEpoch.subSlotIters_eq (h : LastEpoch tip older newer a rest) (hchain : ValidChain env (tip :: older))
    (hx : x ∈ newer) : x.subSlotIters = tip.subSlotIters := by
  have hvalid : ValidChain env (newer ++ a :: rest) := h.split ▸ hchain
  obtain ⟨hssi, -⟩ := hvalid.same_values h.same
  rw [h.segmentTip_eq] at hssi
  obtain ⟨newer₂, newer₁, rfl⟩ := append_of_mem hx
  rw [append_assoc] at hvalid
  have hvalid' : ValidChain env (x :: newer₁ ++ a :: rest) := hvalid.suffix (suffix_append _ _)
  obtain ⟨hssi', -⟩ := hvalid'.same_values fun r hr => h.same r (mem_append_right _ hr)
  exact hssi'.trans hssi.symm

lemma lastTransactionBlockBy_eq (hknows : Knows blocks (r :: older)) (hlinked : Linked (r :: older)) (sp : ℕ) :
    lastTransactionBlockBy blocks sp r =
      foundRecord ((r :: older).find? fun x => decide (x.totalIters ≤ sp) && x.isTransactionBlock) :=
  backTo_eq_find hknows hlinked _

lemma LastEpoch.exists_lastTransaction (h : LastEpoch tip older newer a rest) (hchain : ValidChain env (tip :: older)) :
    ∃ x ∈ newer, older.find? (fun x => decide (x.totalIters ≤ tip.spTotal) && x.isTransactionBlock) = some x := by
  have hvalid : ValidChain env (newer ++ a :: rest) := h.split ▸ hchain
  obtain ⟨y, hy, htx, hle⟩ := hvalid.exists_transaction_before h.same ((by decide : 4 ≤ 33).trans (h.slots hchain))
  rw [h.segmentTip_eq] at hle
  have hsplit := h.split
  cases newer with
  | nil => cases hy
  | cons r newer =>
    cases hsplit
    have hy' : y ∈ newer := by
      rcases mem_cons.mp hy with rfl | hy
      · exact absurd hle (not_le.mpr (hchain.recordOk y mem_cons_self).spTotal_lt)
      · exact hy
    change ∃ x ∈ tip :: newer, (newer ++ a :: rest).find? _ = some x
    cases hfind : newer.find? fun x => decide (x.totalIters ≤ tip.spTotal) && x.isTransactionBlock with
    | none =>
      have hfalse := find?_eq_none.mp hfind y hy'
      simp [hle, htx] at hfalse
    | some x =>
      refine ⟨x, mem_cons_of_mem _ (mem_of_find?_eq_some hfind), ?_⟩
      rw [find?_append, hfind]
      rfl

lemma RecordOk.spTotalIters_eq_ok (h : RecordOk r) {sp : ℕ} :
    r.spTotalIters = .ok sp ↔ (r.overflow = true → r.subSlotIters ≤ r.slotStart) ∧ sp = r.spTotal := by
  have htotal := h.total_eq
  rw [BlockRecord.spTotalIters_eq_ok_iff h.iters h.total_lt]
  unfold BlockRecord.spTotal
  cases r.overflow with
  | true =>
    simp only [if_true, forall_const]
    omega
  | false =>
    simp only [Bool.false_eq_true, if_false, false_implies, true_and]
    omega

end SectorChain.Header
