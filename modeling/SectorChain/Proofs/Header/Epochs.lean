import SectorChain.Proofs.Header.SubEpochDelay

/-!
# Values between the ends of epochs

A slot has at most 128 blocks.
-/

namespace SectorChain.Header

open Lib Blocks List
open Header.BlockRecord (firstInSubSlot spTotal)

variable {env : HeaderEnv} {blocks : Blocks} {n ssi d : ℕ} {tip r a : BlockRecord} {chain older newer : List BlockRecord}

def difficulty : List BlockRecord → ℕ
  | [] => 0
  | [r] => r.weight
  | r :: r' :: _ => r.weight - r'.weight

/-- Whether a new slot after the tip ends the epoch. -/
def endsEpoch (tip : BlockRecord) (older : List BlockRecord) (n : ℕ) : Bool :=
  decide (0 < n) && (canFinishSe tip older && epochAligned tip)

lemma difficultyOf_eq (hknows : Knows blocks (tip :: older)) (hlinked : Linked (tip :: older))
    (h : difficultyOf blocks tip = .ok d) : d = difficulty (tip :: older) := by
  unfold difficultyOf at h
  cases older with
  | nil =>
    have hzero : tip.height = 0 := hlinked
    rw [if_neg (not_not.mpr hzero)] at h
    exact_mod_cast (uint64_eq_ok.mp h).1.symm
  | cons r' older =>
    have hne : tip.height ≠ 0 := by
      rw [hlinked.2.1]
      exact Nat.succ_ne_zero _
    rw [if_pos hne, blockRecord_prev hknows hlinked] at h
    have := (uint64_eq_ok.mp h).1
    change d = tip.weight - r'.weight
    omega

lemma epochEnds_eq (hknows : Knows blocks (tip :: older)) (hlinked : Linked (tip :: older))
    (hheight : tip.height + 1 < 2 ^ 32)
    (hses : tip.subEpochSummaryIncluded = none) :
    epochEnds blocks tip.prevHash tip.height tip.deficit false (0 < n) false = .ok (endsEpoch tip older n) := by
  have hcan := canFinishSubAndFullEpoch_eq hknows hlinked hheight
  rw [hses] at hcan
  change (canFinishSubAndFullEpoch blocks tip.height tip.prevHash tip.deficit
    (none : Option SubEpochSummary).isSome >>= _) = _
  rw [hcan]
  rfl

lemma nextValue_same {first starting current v sp : ℕ}
    {adjusted : BlockRecord → BlockRecord → BlockRecord → Except PyError ℕ}
    (hchange : epochEnds blocks tip.prevHash tip.height tip.deficit false (0 < n) false = .ok false)
    (hearly : tip.height + 1 < first → current = starting)
    (h : nextValue blocks tip.prevHash first starting current adjusted tip.height tip.deficit false (0 < n) sp false =
      .ok v) : v = current := by
  obtain ⟨next, hnext, h⟩ := bind_eq_ok.mp h
  split at h
  · rename_i hlt
    have := (uint32_eq_ok.mp hnext).1
    rw [hearly (by omega)]
    exact_mod_cast (uint64_eq_ok.mp h).1.symm
  split at h
  · cases h
  obtain ⟨_, -, h⟩ := bind_eq_ok.mp h
  rw [hchange] at h
  exact (Except.ok.inj h).symm

lemma getNext_same (hknows : Knows blocks (tip :: older)) (hlinked : Linked (tip :: older))
    (hheight : tip.height + 1 < 2 ^ 32)
    (hearly : tip.height < 4608 → tip.subSlotIters = 2 ^ 27 ∧ difficulty (tip :: older) = 7)
    (hends : endsEpoch tip older n = false)
    (h : getNextSubSlotItersAndDifficulty (0 < n) (some tip) blocks = .ok (ssi, d)) :
    ssi = tip.subSlotIters ∧ d = difficulty (tip :: older) := by
  obtain ⟨prevDifficulty, hprev, h⟩ := bind_eq_ok.mp h
  obtain rfl := difficultyOf_eq hknows hlinked hprev
  cases hses : tip.subEpochSummaryIncluded with
  | some ses =>
    rw [hses] at h
    cases h
    exact ⟨rfl, rfl⟩
  | none =>
    have hepoch := epochEnds_eq (n := n) hknows hlinked hheight hses
    rw [hends] at hepoch
    rw [hses] at h
    obtain ⟨sp, -, h⟩ := bind_eq_ok.mp h
    obtain ⟨d', hd', h⟩ := bind_eq_ok.mp h
    obtain ⟨ssi', hssi', h⟩ := bind_eq_ok.mp h
    cases h
    exact ⟨nextValue_same hepoch (fun hlt => (hearly (by simp only [EPOCH_BLOCKS] at hlt; omega)).1) hssi',
      nextValue_same hepoch (fun hlt => (hearly (by simp only [EPOCH_BLOCKS] at hlt; omega)).2) hd'⟩

lemma endsEpoch_eq_false_of_lt (hlt : tip.height + 1 < 4608) : endsEpoch tip older n = false := by
  unfold endsEpoch
  cases hcan : canFinishSe tip older with
  | false => simp
  | true =>
    have hlow := (canFinishSe_eq_true.mp hcan).1
    have haligned : epochAligned tip = false := by
      unfold epochAligned
      rw [decide_eq_false_iff_not]
      omega
    simp [haligned]

lemma ValidChain.early (h : ValidChain env (tip :: older)) (hlt : tip.height < 4608) :
    tip.subSlotIters = 2 ^ 27 ∧ difficulty (tip :: older) = 7 := by
  induction h using ValidChain.tipRec with
  | genesis n g hg =>
    exact ⟨hg.subSlotIters, hg.weight⟩
  | block n r tip' older' htail hr ih =>
    have hheight := hr.height
    have hearly := ih (by omega)
    obtain ⟨blocks, hknows, hvalues, -⟩ := hr.values
    obtain ⟨hssi, hd⟩ := getNext_same hknows htail.linked (by omega) (fun _ => hearly)
      (endsEpoch_eq_false_of_lt (by omega)) hvalues
    exact ⟨hssi.trans hearly.1, hd.trans hearly.2⟩

lemma Extends.same (h : Extends env tip older n r) (hchain : ValidChain env (tip :: older))
    (hends : endsEpoch tip older n = false) :
    r.subSlotIters = tip.subSlotIters ∧ difficulty (r :: tip :: older) = difficulty (tip :: older) := by
  obtain ⟨blocks, hknows, hvalues, -⟩ := h.values
  have hheight := h.height
  exact getNext_same hknows hchain.linked (by have := h.height_lt; omega) hchain.early hends hvalues

lemma Extends.same_of_no_slot (h : Extends env tip older 0 r) (hchain : ValidChain env (tip :: older)) :
    r.subSlotIters = tip.subSlotIters := (h.same hchain rfl).1

def changesValues (r : BlockRecord) : Bool := r.subEpochSummaryIncluded.isSome && r.height % 4608 < 384

lemma Extends.endsEpoch_eq (h : Extends env tip older n r) : endsEpoch tip older n = changesValues r := by
  unfold endsEpoch changesValues epochAligned
  rw [h.summary, h.height, Bool.and_assoc]

lemma ValidChain.cons_inv (h : ValidChain env (r :: tip :: older)) :
    ∃ n, ValidChain env (tip :: older) ∧ Extends env tip older n r := by
  cases h with
  | block n _ _ _ htail hr => exact ⟨n, htail, hr⟩

/-- Induction over the records after `a`. -/
lemma ValidChain.segment_induction {P : List BlockRecord → Prop} (hnil : P [])
    (hcons : ∀ n r newer tip rest, newer ++ a :: older = tip :: rest → ValidChain env (tip :: rest) →
      Extends env tip rest n r → P newer → P (r :: newer)) (h : ValidChain env (newer ++ a :: older)) : P newer := by
  induction newer with
  | nil => exact hnil
  | cons r newer ih =>
    cases hrest : newer ++ a :: older with
    | nil => simp at hrest
    | cons tip rest =>
      rw [cons_append, hrest] at h
      obtain ⟨n, htail, hr⟩ := h.cons_inv
      rw [hrest] at ih
      exact hcons n r newer tip rest hrest htail hr (ih htail)

lemma ValidChain.length_le (h : ValidChain env (newer ++ a :: older)) :
    newer.length + slotCount (a :: older) ≤ 128 * newer.countP firstInSubSlot + slotCount (newer ++ a :: older) := by
  refine h.segment_induction (P := fun newer => newer.length + slotCount (a :: older) ≤
    128 * newer.countP firstInSubSlot + slotCount (newer ++ a :: older)) (by simp) ?_
  intro n r newer tip rest hsplit htail hr ih
  have hle := htail.slotCount_le
  rw [hsplit] at ih
  rw [cons_append, hsplit, hr.slotCount_eq, countP_cons, hr.first, length_cons]
  by_cases hn : n = 0
  · rw [if_pos hn]
    omega
  · rw [if_neg hn, if_pos (by simpa using Nat.pos_of_ne_zero hn)]
    omega

/-- The first record of a segment that ends with `a`. -/
def segmentTip (newer : List BlockRecord) (a : BlockRecord) : BlockRecord := newer.headD a

lemma segmentTip_of_split {rest : List BlockRecord} (hsplit : newer ++ a :: older = tip :: rest) :
    segmentTip newer a = tip := by
  cases newer with
  | nil =>
    cases hsplit
    rfl
  | cons r newer =>
    cases hsplit
    rfl

lemma ValidChain.same_values (h : ValidChain env (newer ++ a :: older)) (hsame : ∀ r ∈ newer, changesValues r = false) :
    (segmentTip newer a).subSlotIters = a.subSlotIters ∧
    a.slotStart + a.subSlotIters * newer.countP firstInSubSlot ≤ (segmentTip newer a).slotStart := by
  revert hsame
  refine h.segment_induction (P := fun newer => (∀ r ∈ newer, changesValues r = false) →
    (segmentTip newer a).subSlotIters = a.subSlotIters ∧
    a.slotStart + a.subSlotIters * newer.countP firstInSubSlot ≤ (segmentTip newer a).slotStart)
    (fun _ => ⟨rfl, by simp [segmentTip]⟩) ?_
  intro n r newer tip rest hsplit htail hr ih hsame
  obtain ⟨hr', hsame⟩ := forall_mem_cons.mp hsame
  obtain ⟨hssi, hstart⟩ := ih hsame
  rw [segmentTip_of_split hsplit] at hssi hstart
  refine ⟨(hr.same htail (hr.endsEpoch_eq.trans hr')).1.trans hssi, ?_⟩
  change _ ≤ r.slotStart
  rw [hr.slotStart, slotStartAfter, countP_cons, hr.first]
  by_cases hn : n = 0
  · rw [if_pos hn, if_neg (by simp [hn])]
    exact hstart
  · rw [if_neg hn, if_pos (by simpa using Nat.pos_of_ne_zero hn), Nat.mul_add]
    omega

lemma Extends.total_lt (h : Extends env tip older n r) (htip : RecordOk tip) (hn : n ≠ 0) :
    tip.totalIters < r.totalIters := by
  have hstart := h.slotStart
  rw [slotStartAfter, if_neg hn] at hstart
  have := htip.total_eq
  have := htip.ip_lt
  have := h.ok.total_eq
  omega

lemma Extends.total_mono (h : Extends env tip older n r) (htip : RecordOk tip) : tip.totalIters ≤ r.totalIters := by
  by_cases hn : n = 0
  · exact h.total_le hn
  · exact (h.total_lt htip hn).le

lemma ValidChain.le_of_mem {f : BlockRecord → ℕ}
    (hstep : ∀ {n tip older r}, ValidChain env (tip :: older) → Extends env tip older n r → f tip ≤ f r)
    (h : ValidChain env (tip :: older)) : ∀ r ∈ tip :: older, f r ≤ f tip := by
  induction h using ValidChain.tipRec with
  | genesis n g hg =>
    exact forall_mem_singleton.mpr le_rfl
  | block n r tip' older' htail hr ih =>
    refine forall_mem_cons.mpr ⟨le_rfl, fun r' hr' => ?_⟩
    exact (ih r' hr').trans (hstep htail hr)

lemma ValidChain.total_le (h : ValidChain env (tip :: older)) : ∀ r ∈ tip :: older, r.totalIters ≤ tip.totalIters :=
  h.le_of_mem fun htail hr => hr.total_mono (htail.recordOk _ mem_cons_self)

lemma ValidChain.weight_le (h : ValidChain env (tip :: older)) : ∀ r ∈ tip :: older, r.weight ≤ tip.weight :=
  h.le_of_mem fun _ hr => hr.weight_le

lemma slotStart_le_spTotal (r : BlockRecord) : r.slotStart ≤ r.spTotal + r.subSlotIters := by
  unfold spTotal
  split_ifs <;> omega

lemma RecordOk.total_lt_slotEnd (h : RecordOk r) : r.totalIters < r.slotStart + r.subSlotIters := by
  have := h.total_eq
  have := h.ip_lt
  omega

lemma RecordOk.spTotal_lt (h : RecordOk r) : r.spTotal < r.totalIters := by
  have htotal := h.total_eq
  have hsp := h.sp_lt
  cases ho : r.overflow with
  | true =>
    have := h.signagePoint ho
    unfold spTotal
    rw [ho, if_pos rfl]
    omega
  | false =>
    have hidx : r.signagePointIndex < 61 := by
      have := h.overflow.symm.trans ho
      simpa using this
    have hip : r.ip = _ := h.iters.infusionPoint_eq hidx
    have := h.iters.required_pos
    unfold spTotal
    rw [htotal, hip, Nat.mul_add]
    unfold BlockRecord.sp
    omega

lemma ValidChain.exists_transaction (h : ValidChain env (newer ++ a :: older))
    (hsame : ∀ r ∈ newer, changesValues r = false)
    (hcount : 2 ≤ newer.countP firstInSubSlot) : ∃ x ∈ newer, x.isTransactionBlock = true := by
  by_contra hnone
  push Not at hnone
  cases newer with
  | nil => simp at hcount
  | cons r newer =>
    obtain ⟨hssi, hstart⟩ := h.same_values hsame
    have hstart' : a.slotStart + a.subSlotIters * 2 ≤ r.slotStart :=
      (Nat.add_le_add_left (Nat.mul_le_mul_left _ hcount) _).trans hstart
    have hssi' : r.subSlotIters = a.subSlotIters := hssi
    cases hrest : newer ++ a :: older with
    | nil => simp at hrest
    | cons tip rest =>
      rw [cons_append, hrest] at h
      obtain ⟨n, htail, hr⟩ := h.cons_inv
      obtain ⟨x, hx, htx, -⟩ := hr.transaction
      -- the last transaction block is not after `a`
      have hold : x ∈ a :: older := by
        have hmem := lastTransactionBlock_mem hx
        rw [← hrest] at hmem
        refine (mem_append.mp hmem).resolve_left fun hnew => ?_
        exact hnone x (mem_cons_of_mem _ hnew) (find?_some hx)
      have hsuffix : a :: older <:+ tip :: rest := hrest ▸ suffix_append newer (a :: older)
      have hvalid := htail.suffix hsuffix
      have hle := hvalid.total_le x hold
      have hlt := (hvalid.recordOk a mem_cons_self).total_lt_slotEnd
      have hsp := slotStart_le_spTotal r
      have hmono : x.totalIters < r.spTotal := by omega
      rw [decide_eq_true hmono] at htx
      exact hnone r mem_cons_self htx

lemma exists_suffix_countP {α : Type} (p : α → Bool) (l : List α) {k : ℕ} (hk : k ≤ l.countP p) :
    ∃ l₂ l₁, l = l₂ ++ l₁ ∧ l₁.countP p = k := by
  induction l with
  | nil =>
    rw [countP_nil] at hk
    exact ⟨[], [], rfl, by simp; omega⟩
  | cons x l ih =>
    rcases Nat.lt_or_ge (l.countP p) k with hlt | hge
    · refine ⟨[], x :: l, rfl, ?_⟩
      rw [countP_cons] at hk ⊢
      split_ifs at hk ⊢ <;> omega
    · obtain ⟨l₂, l₁, rfl, hcount⟩ := ih hge
      exact ⟨x :: l₂, l₁, rfl, hcount⟩

lemma ValidChain.exists_transaction_before (h : ValidChain env (newer ++ a :: older))
    (hsame : ∀ r ∈ newer, changesValues r = false) (hcount : 4 ≤ newer.countP firstInSubSlot) :
    ∃ x ∈ newer, x.isTransactionBlock = true ∧ x.totalIters ≤ (segmentTip newer a).spTotal := by
  obtain ⟨newer₂, newer₁, rfl, htwo⟩ := exists_suffix_countP firstInSubSlot newer (k := 2) (by omega)
  rw [countP_append] at hcount
  cases newer₁ with
  | nil => simp at htwo
  | cons b newer₁ =>
    rw [append_assoc] at h
    have hvalid : ValidChain env (b :: newer₁ ++ a :: older) := h.suffix (suffix_append _ _)
    obtain ⟨x, hx, htx⟩ := hvalid.exists_transaction (fun r hr => hsame r (mem_append_right _ hr)) htwo.ge
    obtain ⟨hssi, hstart⟩ := h.same_values (fun r hr => hsame r (mem_append_left _ hr))
    have htip : segmentTip (newer₂ ++ b :: newer₁) a = segmentTip newer₂ b := by
      cases newer₂ <;> rfl
    refine ⟨x, mem_append_right _ hx, htx, ?_⟩
    rw [htip]
    have hx' := hvalid.total_le x (mem_append_left _ hx)
    have hlt := (hvalid.recordOk b mem_cons_self).total_lt_slotEnd
    have hsp := slotStart_le_spTotal (segmentTip newer₂ b)
    have hmul : b.subSlotIters * 2 ≤ b.subSlotIters * newer₂.countP firstInSubSlot := Nat.mul_le_mul_left _ (by omega)
    omega

lemma Linked.lt_of_append (h : Linked (newer ++ a :: older)) : ∀ r ∈ newer, a.height < r.height := by
  induction newer with
  | nil => exact forall_mem_nil _
  | cons b newer ih =>
    have hmem : a ∈ newer ++ a :: older := mem_append_right _ mem_cons_self
    rw [cons_append] at h
    refine forall_mem_cons.mpr ⟨h.height_lt a hmem, ih ?_⟩
    cases hrest : newer ++ a :: older with
    | nil => simp at hrest
    | cons tip rest =>
      rw [hrest] at h
      exact h.tail

lemma Linked.split (h : Linked (tip :: older)) {height : ℕ} (hle : height ≤ tip.height) :
    ∃ newer a rest, tip :: older = newer ++ a :: rest ∧ a.height = height ∧ ∀ r ∈ newer, height < r.height := by
  obtain ⟨a, ha, hheight⟩ := h.exists_height hle
  obtain ⟨newer, rest, hsplit⟩ := append_of_mem ha
  rw [hsplit] at h
  exact ⟨newer, a, rest, hsplit, hheight, hheight ▸ h.lt_of_append⟩

/-- The last block with new values, or genesis, at most 270 blocks late, and the blocks since. -/
structure LastEpoch (tip : BlockRecord) (older newer : List BlockRecord) (a : BlockRecord) (rest : List BlockRecord) :
    Prop where
  split : tip :: older = newer ++ a :: rest
  same : ∀ r ∈ newer, changesValues r = false
  number : 4608 ≤ subEpochStart (tip.height + 1)
  aligned : subEpochStart (tip.height + 1) % 4608 = 0
  start_le : subEpochStart (tip.height + 1) ≤ a.height + 4608
  le_start : a.height + 4608 ≤ subEpochStart (tip.height + 1) + 270
  tip_le : tip.height ≤ subEpochStart (tip.height + 1) + 269
  first : a.height = 0 ∨ changesValues a = true

lemma ValidChain.exists_lastEpoch (h : ValidChain env (tip :: older)) (hcan : canFinishSe tip older = true)
    (haligned : epochAligned tip = true) : ∃ newer a rest, LastEpoch tip older newer a rest := by
  have htime := h.onTime
  obtain ⟨hlow, hdeficit, hnone, holder⟩ := canFinishSe_eq_true.mp hcan
  have hopen : summaryFrom (subEpochStart (tip.height + 1)) (tip :: older) = false := by
    rw [summaryFrom_cons, hnone, holder]
    simp
  obtain ⟨hlength, hslack⟩ := htime.open_ hopen
  have hmod : (tip.height + 1) % 4608 < 384 := of_decide_eq_true haligned
  have hstart : subEpochStart (tip.height + 1) = (tip.height + 1) / 384 * 384 := rfl
  -- the height at which the epoch began: that of the genesis block or of a summary
  obtain ⟨height, hheight, hlate, hfirst⟩ : ∃ height, height ≤ tip.height ∧
      (subEpochStart (tip.height + 1) ≤ height + 4608 ∧ height + 4608 ≤ subEpochStart (tip.height + 1) + 270) ∧
      (height = 0 ∧ subEpochStart (tip.height + 1) = 4608 ∨
        ∃ b, (summaryBlocks (tip :: older))[(tip.height + 1) / 384 - 13]? = some b ∧ b.height = height) := by
    by_cases hone : subEpochStart (tip.height + 1) = 4608
    · exact ⟨0, Nat.zero_le _, by omega, Or.inl ⟨rfl, hone⟩⟩
    have hk : (tip.height + 1) / 384 - 13 < (summaryBlocks (tip :: older)).length := by omega
    obtain ⟨b, hb⟩ : ∃ b, (summaryBlocks (tip :: older))[(tip.height + 1) / 384 - 13]? = some b :=
      ⟨_, getElem?_eq_getElem hk⟩
    have hbheight := htime.heights _ b hb
    obtain ⟨hmem, -⟩ := mem_summaryBlocks.mp (mem_of_getElem? hb)
    exact ⟨b.height, h.linked.height_le b hmem, by omega, Or.inr ⟨b, hb, rfl⟩⟩
  obtain ⟨newer, a, rest, hsplit, ha, hnewer⟩ := h.linked.split hheight
  have hmema : a ∈ tip :: older := hsplit ▸ mem_append_right _ mem_cons_self
  refine ⟨newer, a, rest, hsplit, ?_, by omega, by omega, by omega, by omega, by omega, ?_⟩
  · intro r hr
    have hmem : r ∈ tip :: older := hsplit ▸ mem_append_left _ hr
    have hgt := hnewer r hr
    cases hses : r.subEpochSummaryIncluded.isSome with
    | false => simp [changesValues, hses]
    | true =>
      obtain ⟨k, hk⟩ := getElem?_of_mem (mem_summaryBlocks.mpr ⟨hmem, hses⟩)
      have hkheight := htime.heights k r hk
      have hklt : k < (summaryBlocks (tip :: older)).length := (List.getElem?_eq_some_iff.mp hk).1
      unfold changesValues
      rw [hses, Bool.true_and, decide_eq_false_iff_not]
      intro hrmod
      rcases hfirst with ⟨hzero, hone⟩ | ⟨b, hb, hbheight⟩
      · omega
      · obtain rfl : k = (tip.height + 1) / 384 - 13 := by omega
        rw [hb] at hk
        cases hk
        omega
  · rcases hfirst with ⟨hzero, -⟩ | ⟨b, hb, hbheight⟩
    · exact Or.inl (ha.trans hzero)
    obtain ⟨hmem, hses⟩ := mem_summaryBlocks.mp (mem_of_getElem? hb)
    obtain rfl := h.linked.eq_of_height hmema hmem (ha.trans hbheight.symm)
    unfold changesValues
    rw [hses, Bool.true_and, decide_eq_true_eq]
    omega

end SectorChain.Header
