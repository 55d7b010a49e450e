import SectorChain.Proofs.Header.Retarget

/-!
# The blocks that an epoch is measured by

On a valid chain both are found, and the second one is later.
-/

namespace SectorChain.Header

open Lib Blocks List
open Header.BlockRecord (isTransactionBlock)

variable {env : HeaderEnv} {blocks : Blocks} {n ssi d old q : ℕ} {tip r a x y : BlockRecord}
  {chain older newer rest : List BlockRecord}
variable {curr lastCurr lastPrev next prev : BlockRecord} {i : ℕ}
variable {c : Prop} {k t t' : ℕ}

lemma Linked.getElem?_reverse (h : Linked (tip :: older)) (hi : i ≤ tip.height) :
    ∃ r ∈ tip :: older, (tip :: older).reverse[i]? = some r ∧ r.height = i := by
  induction older generalizing tip with
  | nil =>
    have hzero : tip.height = 0 := h
    obtain rfl : i = 0 := by omega
    exact ⟨tip, mem_cons_self, rfl, hzero⟩
  | cons prev older ih =>
    have hheight := h.2.1
    have hlength := h.length
    rw [length_cons] at hlength
    rw [reverse_cons]
    rcases Nat.eq_or_lt_of_le hi with rfl | hlt
    · refine ⟨tip, mem_cons_self, ?_, rfl⟩
      have hlen : tip.height = (prev :: older).reverse.length := by simp; omega
      rw [hlen, getElem?_concat_length]
    · obtain ⟨r, hr, hget, hrheight⟩ := ih h.tail (by omega)
      refine ⟨r, mem_cons_of_mem _ hr, ?_, hrheight⟩
      rw [getElem?_append_left (by simp; omega)]
      exact hget

/-- Up to `k` blocks from height `t` on. -/
def blocksFrom (chain : List BlockRecord) (t k : ℕ) : List BlockRecord := (chain.reverse.drop t).take k

lemma blocksFrom_getElem? (h : Linked (tip :: older)) (hi : i < k) (hle : t + i ≤ tip.height) :
    ∃ r ∈ tip :: older, (blocksFrom (tip :: older) t k)[i]? = some r ∧ r.height = t + i := by
  obtain ⟨r, hr, hget, hheight⟩ := h.getElem?_reverse hle
  refine ⟨r, hr, ?_, hheight⟩
  unfold blocksFrom
  rw [getElem?_take_of_lt hi, getElem?_drop]
  exact hget

lemma blocksFrom_length (h : Linked (tip :: older)) (hle : t + k ≤ tip.height + 1) :
    (blocksFrom (tip :: older) t k).length = k := by
  have := h.length
  simp only [blocksFrom, length_take, length_drop, length_reverse, length_cons]
  omega

lemma walkList_blocksFrom (h : Linked (tip :: older)) (t k : ℕ) (acc : List BlockRecord) :
    walkList (fun targetBlocks r => .ok (
      if r.height < t then Visit.done targetBlocks
      else
        let targetBlocks := if r.height < t + k then r :: targetBlocks else targetBlocks
        if r.height = 0 then .done targetBlocks else .back targetBlocks)) acc (tip :: older) =
      .ok (blocksFrom (tip :: older) t k ++ acc) := by
  induction older generalizing tip acc with
  | nil =>
    have hzero : tip.height = 0 := h
    rw [walkList]
    by_cases ht : tip.height < t
    · rw [if_pos ht]
      have hdrop : [tip].drop t = [] := drop_eq_nil_of_le (by simp; omega)
      simp [blocksFrom, hdrop]
    · obtain rfl : t = 0 := by omega
      cases k with
      | zero => simp [hzero, blocksFrom]
      | succ k => simp [hzero, blocksFrom]
  | cons prev older ih =>
    have hlength := h.length
    rw [length_cons] at hlength
    rw [walkList, ok_bind]
    by_cases ht : tip.height < t
    · rw [if_pos ht]
      have hdrop : (tip :: prev :: older).reverse.drop t = [] := drop_eq_nil_of_le (by simp; omega)
      rw [blocksFrom, hdrop, take_nil]
      rfl
    rw [if_neg ht]
    have hsplit : (tip :: prev :: older).reverse.drop t = (prev :: older).reverse.drop t ++ [tip] := by
      rw [reverse_cons, drop_append_of_le_length (by simp; omega)]
    simp only [if_neg (show ¬tip.height = 0 by omega)]
    rw [ih h.tail]
    unfold blocksFrom
    rw [hsplit]
    by_cases hk : tip.height < t + k
    · rw [if_pos hk, take_of_length_le (by simp; omega), take_of_length_le (by simp; omega)]
      simp
    · rw [if_neg hk, take_append_of_le_length (by simp; omega)]

lemma heightToBlockRecord_eq (hknows : Knows blocks chain) (hr : r ∈ chain)
    (hhash : blocks.heightToHash.get? r.height = some r.headerHash) : blocks.heightToBlockRecord r.height = .ok r := by
  unfold Blocks.heightToBlockRecord Blocks.hashAt
  rw [hhash]
  exact hknows.blockRecord hr

lemma getBlocksAtHeight_eq (hknows : Knows blocks (tip :: older)) (hlinked : Linked (tip :: older))
    (hle : t + k ≤ tip.height + 1) : getBlocksAtHeight blocks tip t k = .ok (blocksFrom (tip :: older) t k) := by
  unfold getBlocksAtHeight
  split_ifs with hmain
  · rw [mapM_eq_ok, forall₂_iff_get]
    refine ⟨by rw [blocksFrom_length hlinked hle]; simp, fun i hi hi' => ?_⟩
    have hik : i < k := by simpa using hi
    obtain ⟨r, hr, hget, hheight⟩ := blocksFrom_getElem? hlinked (k := k) hik (show t + i ≤ tip.height by omega)
    have hhash : blocks.heightToHash.get? r.height = some r.headerHash := by
      rcases mem_cons.mp hr with rfl | hr'
      · exact hmain
      · exact hknows.heights tip older (suffix_refl _) hmain r hr'
    have hval : (blocksFrom (tip :: older) t k).get ⟨i, hi'⟩ = r := by
      exact (List.getElem?_eq_some_iff.mp hget).2
    have hcontains : blocks.containsHeight r.height = true := Dict.contains_iff.mpr ⟨_, hhash⟩
    rw [hval, get_eq_getElem, getElem_range', Nat.one_mul, ← hheight, hcontains]
    exact heightToBlockRecord_eq hknows hr hhash
  · rw [walk_eq_walkList hknows hlinked]
    have hwalk := walkList_blocksFrom hlinked t k []
    rw [append_nil] at hwalk
    exact hwalk

lemma lastBeforeSummary_eq {later before after : List BlockRecord} (hsplit : next :: later = before ++ a :: after)
    (ha : a.subEpochSummaryIncluded.isSome = true) (hbefore : ∀ r ∈ before, r.subEpochSummaryIncluded.isSome = false) :
    lastBeforeSummary curr next later = .ok ((curr :: before).getLast (cons_ne_nil _ _)) := by
  induction before generalizing curr next later with
  | nil =>
    cases hsplit
    rw [lastBeforeSummary.eq_def]
    dsimp only
    rw [if_pos ha]
    rfl
  | cons b before ih =>
    obtain ⟨hb, hbefore'⟩ := forall_mem_cons.mp hbefore
    obtain ⟨rfl, hlater⟩ := List.cons.inj hsplit
    cases later with
    | nil => simp at hlater
    | cons c later =>
      rw [lastBeforeSummary, if_neg (by simp [hb])]
      rw [ih hlater hbefore', getLast_cons (cons_ne_nil _ _)]

lemma walkList_second (hk : k < 2) (hcount : 2 ≤ k + chain.countP isTransactionBlock) :
    ∃ x, (chain.filter isTransactionBlock)[1 - k]? = some x ∧ walkList (fun found r => .ok (
      let found := if r.isTransactionBlock then found + 1 else found
      if found < 2 then Visit.back found else .done r)) k chain = .ok x := by
  induction chain generalizing k with
  | nil =>
    rw [countP_nil] at hcount
    omega
  | cons r older ih =>
    rw [countP_cons] at hcount
    cases htx : r.isTransactionBlock with
    | false =>
      rw [htx] at hcount
      obtain ⟨x, hx, hwalk⟩ := ih hk hcount
      refine ⟨x, by rwa [filter_cons_of_neg (by simp [htx])], ?_⟩
      rw [walkList]
      simpa [htx, hk] using hwalk
    | true =>
      rw [htx, if_pos rfl] at hcount
      rw [filter_cons_of_pos htx]
      by_cases hone : k + 1 < 2
      · obtain rfl : k = 0 := by omega
        obtain ⟨x, hx, hwalk⟩ := ih hone (by omega)
        refine ⟨x, hx, ?_⟩
        rw [walkList]
        simpa [htx] using hwalk
      · obtain rfl : k = 1 := by omega
        refine ⟨r, rfl, ?_⟩
        rw [walkList]
        simp [htx]

lemma secondTransactionBlock_eq (hknows : Knows blocks (r :: older)) (hlinked : Linked (r :: older))
    (hcount : 2 ≤ (r :: older).countP isTransactionBlock) :
    ∃ x, ((r :: older).filter isTransactionBlock)[1]? = some x ∧ secondTransactionBlock blocks r = .ok x := by
  obtain ⟨x, hx, hwalk⟩ := walkList_second (k := 0) (by decide) (by simpa using hcount)
  refine ⟨x, hx, ?_⟩
  unfold secondTransactionBlock
  rw [walk_eq_walkList hknows hlinked]
  exact hwalk

lemma ValidChain.two_transactions (h : ValidChain env (tip :: older)) (hheight : 384 ≤ tip.height) :
    2 ≤ (tip :: older).countP isTransactionBlock := by
  obtain ⟨newer', b, rest', hsplit', hb, -⟩ := h.linked.split hheight
  have hvalid' : ValidChain env (b :: rest') := h.suffix (hsplit' ▸ suffix_append newer' (b :: rest'))
  obtain ⟨newer, g, rest, hsplit, hg, -⟩ := hvalid'.linked.split (Nat.zero_le _)
  have hvalid : ValidChain env (newer ++ g :: rest) := hsplit ▸ hvalid'
  have hgenesis : ValidChain env (g :: rest) := hvalid.suffix (suffix_append _ _)
  have hrest : rest = [] := eq_nil_of_length_eq_zero (hgenesis.linked.length.trans hg)
  subst hrest
  have hlength : newer.length = 384 := by
    have hlen := hvalid'.linked.length
    have hsum := congrArg List.length hsplit
    rw [length_append, length_cons, length_singleton] at hsum
    omega
  have hslots : 2 ≤ newer.countP BlockRecord.firstInSubSlot := by
    have hle := hvalid.length_le
    have hcount := hvalid.slotCount_le
    omega
  have hsame : ∀ r ∈ newer, changesValues r = false := by
    intro r hr
    have hmem : r ∈ b :: rest' := hsplit ▸ mem_append_left _ hr
    have hle := hvalid'.linked.height_le r hmem
    cases hses : r.subEpochSummaryIncluded.isSome with
    | false => simp [changesValues, hses]
    | true =>
      have := (hvalid'.onTime.late hmem hses).1
      unfold changesValues
      rw [hses, Bool.true_and, decide_eq_false_iff_not]
      omega
  obtain ⟨x, hx, htx⟩ := hvalid.exists_transaction hsame hslots
  have hgtx : g.isTransactionBlock = true := by
    cases hgenesis with
    | genesis n _ hg => exact hg.transaction
  have hcountNewer : 0 < newer.countP isTransactionBlock := countP_pos_iff.mpr ⟨x, hx, htx⟩
  rw [hsplit', hsplit, countP_append, countP_append, countP_singleton, if_pos hgtx]
  omega

lemma ValidChain.timestamp_le (h : ValidChain env chain) (hlast : lastTransactionBlock chain = some y)
    (hx : x ∈ chain) (ht : x.timestamp = some t) : ∃ t', y.timestamp = some t' ∧ t ≤ t' := by
  induction h generalizing y with
  | genesis n g hg =>
    obtain rfl := mem_singleton.mp hx
    obtain rfl := mem_singleton.mp (lastTransactionBlock_mem hlast)
    exact ⟨t, ht, le_rfl⟩
  | block n r tip older htail hr ih =>
    unfold lastTransactionBlock at hlast
    rw [find?_cons] at hlast
    rcases mem_cons.mp hx with rfl | hx
    · have htx : x.isTransactionBlock = true := by simp [isTransactionBlock, ht]
      rw [htx] at hlast
      cases hlast
      exact ⟨t, ht, le_rfl⟩
    cases htx : r.isTransactionBlock with
    | false =>
      rw [htx] at hlast
      exact ih hlast hx
    | true =>
      rw [htx] at hlast
      cases hlast
      obtain ⟨tr, htr⟩ := Option.isSome_iff_exists.mp htx
      obtain ⟨last, hlast, -, htime⟩ := hr.transaction
      obtain ⟨t', ht', hlt⟩ := htime tr htr
      obtain ⟨t'', ht'', hle⟩ := ih hlast hx
      rw [ht'] at ht''
      cases ht''
      exact ⟨tr, htr, by omega⟩

lemma Linked.mem_older (h : Linked chain) (hx : x ∈ chain) (hy : y ∈ chain) (hlt : x.height < y.height) :
    ∃ rest, y :: rest <:+ chain ∧ x ∈ rest := by
  obtain ⟨newer, rest, rfl⟩ := append_of_mem hy
  refine ⟨rest, suffix_append _ _, ?_⟩
  rcases mem_append.mp hx with hnewer | hxrest
  · exact absurd (h.lt_of_append x hnewer) (not_lt.mpr hlt.le)
  · exact (mem_cons.mp hxrest).resolve_left (by rintro rfl; exact lt_irrefl _ hlt)

lemma ValidChain.timestamp_lt (h : ValidChain env chain) (hx : x ∈ chain) (hy : y ∈ chain) (hlt : x.height < y.height)
    (ht : x.timestamp = some t) (ht' : y.timestamp = some t') : t < t' := by
  obtain ⟨rest, hsuffix, hxrest⟩ := h.linked.mem_older hx hy hlt
  cases h.suffix hsuffix with
  | genesis n _ _ => cases hxrest
  | block n _ tip older htail hr =>
    obtain ⟨last, hlast, -, htime⟩ := hr.transaction
    obtain ⟨tl, htl, hlt'⟩ := htime t' ht'
    obtain ⟨tl', htl', hle⟩ := htail.timestamp_le hlast hxrest ht
    rw [htl] at htl'
    cases htl'
    exact hle.trans_lt hlt'

lemma OnTime.unique (h : OnTime tip older) (hx : x ∈ tip :: older) (hy : y ∈ tip :: older)
    (hsesx : x.subEpochSummaryIncluded.isSome = true) (hsesy : y.subEpochSummaryIncluded.isSome = true)
    (heq : x.height / 384 = y.height / 384) : x = y := by
  obtain ⟨i, hi⟩ := getElem?_of_mem (mem_summaryBlocks.mpr ⟨hx, hsesx⟩)
  obtain ⟨j, hj⟩ := getElem?_of_mem (mem_summaryBlocks.mpr ⟨hy, hsesy⟩)
  have hiheight := h.heights i x hi
  have hjheight := h.heights j y hj
  obtain rfl : i = j := by omega
  rw [hi] at hj
  exact Option.some.inj hj

/-- The records from the given height up to `a`, and `a`. -/
lemma blocksFrom_split (h : Linked (tip :: older)) (ha : a ∈ tip :: older) (hle : t ≤ a.height) (hlt : a.height < t + k) :
    ∃ before after, blocksFrom (tip :: older) t k = before ++ a :: after ∧
      (∀ r ∈ before, r ∈ tip :: older ∧ t ≤ r.height ∧ r.height < a.height) ∧
      ∀ r ∈ before.getLast?, r.height + 1 = a.height := by
  obtain ⟨r, hr, hget, hheight⟩ := blocksFrom_getElem? h (k := k) (i := a.height - t) (by omega)
    (show t + (a.height - t) ≤ tip.height by have := h.height_le a ha; omega)
  obtain rfl := h.eq_of_height hr ha (by omega)
  obtain ⟨hi, hval⟩ := List.getElem?_eq_some_iff.mp hget
  have hbefore : ∀ {i b}, ((blocksFrom (tip :: older) t k).take (r.height - t))[i]? = some b →
      b ∈ tip :: older ∧ b.height = t + i ∧ i < r.height - t := by
    intro i b hib
    have hilt : i < r.height - t := by
      have := (List.getElem?_eq_some_iff.mp hib).1
      simp only [length_take] at this
      omega
    rw [getElem?_take_of_lt hilt] at hib
    obtain ⟨b', hb', hget', hheight'⟩ := blocksFrom_getElem? h (k := k) (i := i) (by omega)
      (show t + i ≤ tip.height by have := h.height_le r hr; omega)
    rw [hib] at hget'
    cases hget'
    exact ⟨hb', hheight', hilt⟩
  refine ⟨(blocksFrom (tip :: older) t k).take (r.height - t), (blocksFrom (tip :: older) t k).drop (r.height - t + 1),
    ?_, ?_, ?_⟩
  · have hdrop := drop_eq_getElem_cons hi
    rw [hval] at hdrop
    rw [← hdrop, take_append_drop]
  · intro b hb
    obtain ⟨i, hib⟩ := getElem?_of_mem hb
    obtain ⟨hmem, hbheight, hilt⟩ := hbefore hib
    exact ⟨hmem, by omega, by omega⟩
  · intro b hb
    rw [getLast?_eq_getElem?, length_take_of_le (by omega)] at hb
    obtain ⟨-, hbheight, hilt⟩ := hbefore hb
    omega

lemma LastEpoch.lastBeforeSummary_eq (h : LastEpoch tip older newer a rest) (hchain : ValidChain env (tip :: older))
    {start : ℕ} (hstart : start + 4608 = subEpochStart (tip.height + 1)) (hpos : 4608 ≤ start)
    (hcurr : curr ∈ tip :: older) (hcurrHeight : curr.height + 1 = start) (hnext : next ∈ tip :: older)
    (hnextHeight : next.height = start) (hk : 271 ≤ k) {lastB : BlockRecord} {olderB : List BlockRecord}
    (hsuffix : lastB :: olderB <:+ tip :: older) (ha : a ∈ lastB :: olderB) :
    ∃ b ∈ tip :: older, lastBeforeSummary curr next (blocksFrom (lastB :: olderB) start k) = .ok b ∧
      b.height + 1 = a.height := by
  have hmema : a ∈ tip :: older := hsuffix.subset ha
  have hale := h.start_le
  have hlea := h.le_start
  have hses : a.subEpochSummaryIncluded.isSome = true := by
    have hchange := h.first.resolve_left (by omega)
    exact (Bool.and_eq_true_iff.mp hchange).1
  have hnone : ∀ r ∈ tip :: older, start ≤ r.height → r.height < a.height → r.subEpochSummaryIncluded.isSome = false := by
    intro r hr hge hlt
    cases hrses : r.subEpochSummaryIncluded.isSome with
    | false => rfl
    | true =>
      have halign := h.aligned
      have heq := hchain.onTime.unique hr hmema hrses hses (by omega)
      rw [heq] at hlt
      exact absurd hlt (lt_irrefl _)
  obtain ⟨before, after, hsplit, hbefore, hlast⟩ := blocksFrom_split (hchain.linked.suffix hsuffix) ha (t := start) (k := k)
    (by omega) (by omega)
  -- the first round looks at the block at the start again
  obtain ⟨before', hsplit', hbefore', hlast'⟩ : ∃ before', next :: blocksFrom (lastB :: olderB) start k = before' ++ a :: (
      if next.height < a.height then after else blocksFrom (lastB :: olderB) start k) ∧
      (∀ r ∈ before', r ∈ tip :: older ∧ start ≤ r.height ∧ r.height < a.height) ∧
      ((curr :: before').getLast (cons_ne_nil _ _)).height + 1 = a.height := by
    by_cases hlt : next.height < a.height
    · refine ⟨next :: before, by rw [if_pos hlt, hsplit]; rfl, ?_, ?_⟩
      · refine forall_mem_cons.mpr ⟨⟨hnext, hnextHeight.ge, hlt⟩, fun r hr => ?_⟩
        obtain ⟨hr', hge, hlt'⟩ := hbefore r hr
        exact ⟨hsuffix.subset hr', hge, hlt'⟩
      -- there is a block before `a` in the list, at the latest the one at the start
      have hne : before ≠ [] := by
        rintro rfl
        have hfirst := blocksFrom_getElem? (hchain.linked.suffix hsuffix) (t := start) (k := k) (i := 0) (by omega)
          (by have := (hchain.linked.suffix hsuffix).height_le a ha; omega)
        obtain ⟨r, -, hget, hheight⟩ := hfirst
        rw [hsplit] at hget
        cases hget
        omega
      rw [getLast_cons (cons_ne_nil _ _), getLast_cons hne]
      exact hlast _ (getLast?_eq_some_getLast hne)
    · obtain rfl := hchain.linked.eq_of_height hnext hmema (by omega)
      exact ⟨[], by rw [if_neg hlt]; rfl, forall_mem_nil _, by rw [getLast_singleton]; omega⟩
  refine ⟨_, ?_, Header.lastBeforeSummary_eq hsplit' hses fun r hr => ?_, hlast'⟩
  · rcases mem_cons.mp (getLast_mem (cons_ne_nil curr before')) with heq | hmem
    · rw [heq]
      exact hcurr
    · exact (hbefore' _ hmem).1
  · obtain ⟨hr', hge, hlt⟩ := hbefore' r hr
    exact hnone r hr' hge hlt

/-- The block from which an epoch is measured: a transaction block, or genesis in the first epoch. -/
def epochReference (chain : List BlockRecord) : Option BlockRecord :=
  match chain.dropWhile fun r => !changesValues r with
  | [] => chain.getLast?
  | _ :: rest => (rest.filter isTransactionBlock)[1]?

lemma LastEpoch.epochReference_eq (h : LastEpoch tip older newer a rest) (ha : changesValues a = true) :
    epochReference (tip :: older) = (rest.filter isTransactionBlock)[1]? := by
  have hdrop : (tip :: older).dropWhile (fun r => !changesValues r) = a :: rest := by
    rw [h.split, dropWhile_append_of_pos fun r hr => by simp [h.same r hr], dropWhile_cons_of_neg (by simp [ha])]
  unfold epochReference
  rw [hdrop]

lemma LastEpoch.rest_eq (h : LastEpoch tip older newer a rest) (hchain : ValidChain env (tip :: older)) {b : BlockRecord}
    (hb : b ∈ tip :: older) (hheight : b.height + 1 = a.height) : ∃ restB, rest = b :: restB := by
  have hlinked : Linked (a :: rest) := hchain.linked.suffix (h.split ▸ suffix_append newer (a :: rest))
  cases rest with
  | nil =>
    have hzero : a.height = 0 := hlinked
    omega
  | cons c restB =>
    have hcmem : c ∈ tip :: older := h.split ▸ mem_append_right _ (mem_cons_of_mem _ mem_cons_self)
    have hcheight := hlinked.2.1
    exact ⟨restB, by rw [hchain.linked.eq_of_height hcmem hb (by omega)]⟩

lemma LastEpoch.epochReference_first (h : LastEpoch tip older newer a rest) (hchain : ValidChain env (tip :: older))
    (ha : a.height = 0) : epochReference (tip :: older) = some a := by
  have hsuffix : a :: rest <:+ tip :: older := h.split ▸ suffix_append newer (a :: rest)
  have hrest : rest = [] := eq_nil_of_length_eq_zero ((hchain.linked.suffix hsuffix).length.trans ha)
  have hnone : changesValues a = false := by
    cases hses : a.subEpochSummaryIncluded.isSome with
    | false => simp [changesValues, hses]
    | true =>
      have := (hchain.onTime.late (hsuffix.subset mem_cons_self) hses).1
      omega
  have hdrop : (tip :: older).dropWhile (fun r => !changesValues r) = [] := by
    rw [h.split, hrest, dropWhile_append_of_pos fun r hr => by simp [h.same r hr]]
    simp [hnone]
  unfold epochReference
  rw [hdrop, h.split, hrest]
  exact getLast?_concat

lemma LastEpoch.secondToLast (h : LastEpoch tip (prev :: older) newer a rest)
    (hchain : ValidChain env (tip :: prev :: older)) (hknows : Knows blocks (tip :: prev :: older))
    (hheight : tip.height + 1 < 2 ^ 32) :
    ∃ x ∈ tip :: prev :: older, getSecondToLastTransactionBlockInPreviousEpoch blocks prev = .ok x ∧
      epochReference (tip :: prev :: older) = some x ∧ x.isTransactionBlock = true ∧ x.height ≤ a.height := by
  have hlinked := hchain.linked
  have hprev := hlinked.2.1
  have halign := h.aligned
  have htip := h.tip_le
  have hale := h.start_le
  have hlea := h.le_start
  have hstartEq : subEpochStart (tip.height + 1) = (tip.height + 1) / 384 * 384 := rfl
  have hmema : a ∈ tip :: prev :: older := h.split ▸ mem_append_right _ mem_cons_self
  obtain ⟨start, hstart⟩ : ∃ start, start = subEpochStart (tip.height + 1) := ⟨_, rfl⟩
  have hsurpass : (prev.height + 2 * MAX_SUB_SLOT_BLOCKS + MIN_BLOCKS_PER_CHALLENGE_BLOCK + 5 -
      (prev.height + 2 * MAX_SUB_SLOT_BLOCKS + MIN_BLOCKS_PER_CHALLENGE_BLOCK + 5) % EPOCH_BLOCKS) = start := by
    simp only [MAX_SUB_SLOT_BLOCKS, MIN_BLOCKS_PER_CHALLENGE_BLOCK, EPOCH_BLOCKS]
    omega
  unfold getSecondToLastTransactionBlockInPreviousEpoch
  dsimp only
  rw [hsurpass, uint32_eq_ok.mpr (⟨rfl, by omega⟩ : ((start : ℕ) : ℤ) = start ∧ start < 2 ^ 32), ok_bind,
    uint32_eq_ok.mpr (⟨by simp only [EPOCH_BLOCKS]; omega, by omega⟩ :
      (start : ℤ) - (EPOCH_BLOCKS : ℕ) = (start - 4608 : ℕ) ∧ start - 4608 < 2 ^ 32), ok_bind]
  rw [(pyAssert_ok (u := ())).mpr (by simp only [EPOCH_BLOCKS, decide_eq_true_eq]; omega), ok_bind]
  rw [(pyAssert_ok (u := ())).mpr (by
    simp only [MAX_SUB_SLOT_BLOCKS, MIN_BLOCKS_PER_CHALLENGE_BLOCK, decide_eq_true_eq]
    omega), ok_bind]
  by_cases hfirst : start = 4608
  · -- the first epoch starts with the genesis block
    rw [if_pos (by omega), getBlocksAtHeight_eq hknows.tail hlinked.tail (by omega)]
    obtain ⟨g, hg, hget, hgheight⟩ := blocksFrom_getElem? hlinked.tail (t := 0) (k := 1) (i := 0) (by decide)
      (Nat.zero_le _)
    have hgenesis : g.isTransactionBlock = true := by
      obtain ⟨n, g', hg', hgen⟩ := hchain.exists_genesis
      obtain rfl := hlinked.eq_of_height hg' (mem_cons_of_mem _ hg) (hgen.height.trans hgheight.symm)
      exact hgen.transaction
    have hreference : epochReference (tip :: prev :: older) = some g := by
      have hzero : a.height = 0 := by
        refine h.first.resolve_right fun hchange => ?_
        have := (hchain.onTime.late hmema (Bool.and_eq_true_iff.mp hchange).1).1
        omega
      obtain rfl := hlinked.eq_of_height hmema (mem_cons_of_mem _ hg) (hzero.trans hgheight.symm)
      exact h.epochReference_first hchain hzero
    refine ⟨g, mem_cons_of_mem _ hg, ?_, hreference, hgenesis, by omega⟩
    cases hblocks : blocksFrom (prev :: older) 0 1 with
    | nil =>
      rw [hblocks] at hget
      cases hget
    | cons b rest' =>
      rw [hblocks] at hget
      cases hget
      rfl
  · rw [if_neg (by omega)]
    rw [uint32_eq_ok.mpr (⟨by simp only [MAX_SUB_SLOT_BLOCKS]; omega, by omega⟩ :
      ((start - 4608 : ℕ) : ℤ) - (MAX_SUB_SLOT_BLOCKS : ℕ) - 1 = (start - 4737 : ℕ) ∧ start - 4737 < 2 ^ 32), ok_bind]
    have hfetched : getBlocksAtHeight blocks prev (start - 4737)
        (3 * MAX_SUB_SLOT_BLOCKS + MIN_BLOCKS_PER_CHALLENGE_BLOCK + 3) =
          .ok (blocksFrom (prev :: older) (start - 4737) 403) :=
      getBlocksAtHeight_eq hknows.tail hlinked.tail (show start - 4737 + 403 ≤ prev.height + 1 by omega)
    rw [hfetched, ok_bind]
    obtain ⟨curr, hcurr, hgetCurr, hcurrHeight⟩ := blocksFrom_getElem? hlinked.tail (t := start - 4737) (k := 403)
      (i := 128)
      (by decide) (by omega)
    obtain ⟨next, hnext, hgetNext, hnextHeight⟩ := blocksFrom_getElem? hlinked.tail (t := start - 4737) (k := 403)
      (i := 129)
      (by decide) (by omega)
    have hgetCurr' : (blocksFrom (prev :: older) (start - 4737) 403)[MAX_SUB_SLOT_BLOCKS]? = some curr := hgetCurr
    have hgetNext' : (blocksFrom (prev :: older) (start - 4737) 403)[MAX_SUB_SLOT_BLOCKS + 1]? = some next := hgetNext
    have hdrop : (blocksFrom (prev :: older) (start - 4737) 403).drop (MAX_SUB_SLOT_BLOCKS + 1) =
        blocksFrom (prev :: older) (start - 4608) 274 := by
      have hindex : start - 4737 + (MAX_SUB_SLOT_BLOCKS + 1) = start - 4608 := by
        simp only [MAX_SUB_SLOT_BLOCKS]
        omega
      have hcount : 403 - (MAX_SUB_SLOT_BLOCKS + 1) = 274 := rfl
      unfold blocksFrom
      rw [drop_take, drop_drop, hindex, hcount]
    have hmema' : a ∈ prev :: older := by
      refine (mem_cons.mp hmema).resolve_left fun heq => ?_
      rw [heq] at hlea
      omega
    obtain ⟨b, hb, hbefore, hbheight⟩ := h.lastBeforeSummary_eq hchain (show start - 4608 + 4608 = _ by omega) (by omega)
      (mem_cons_of_mem _ hcurr) (by omega) (mem_cons_of_mem _ hnext) (by omega) (k := 274) (by decide)
      (suffix_cons tip (prev :: older)) hmema'
    rw [hgetCurr']
    dsimp only
    rw [(pyAssert_ok (u := ())).mpr (decide_eq_true (by omega)), hgetNext']
    dsimp only
    rw [(pyAssert_ok (u := ())).mpr (decide_eq_true (by omega)), hdrop, hbefore]
    obtain ⟨restB, rfl⟩ := h.rest_eq hchain hb hbheight
    have hsuffix : b :: restB <:+ tip :: prev :: older := by
      rw [h.split]
      exact (suffix_cons a (b :: restB)).trans (suffix_append newer (a :: b :: restB))
    have hvalidB := hchain.suffix hsuffix
    obtain ⟨x, hx, hsecond⟩ := secondTransactionBlock_eq (hknows.suffix hsuffix) hvalidB.linked
      (hvalidB.two_transactions (by omega))
    obtain ⟨hxmem, hxtx⟩ := mem_filter.mp (mem_of_getElem? hx)
    have hreference : epochReference (tip :: prev :: older) = some x := by
      rw [h.epochReference_eq (h.first.resolve_left (by omega)), hx]
    refine ⟨x, hsuffix.subset hxmem, hsecond, hreference, hxtx, ?_⟩
    have := hvalidB.linked.height_le x hxmem
    omega

/-- The numbers of a chain are small enough for everything an adjustment computes from them. -/
structure SmallNumbers (chain : List BlockRecord) : Prop where
  height : ∀ r ∈ chain, r.height + 1 < 2 ^ 32
  totalIters : ∀ r ∈ chain, SUB_SLOT_TIME_TARGET * r.totalIters < 2 ^ 64
  weight : ∀ r ∈ chain, SUB_SLOT_TIME_TARGET * r.weight < 2 ^ 64
  timestamp : ∀ r ∈ chain, ∀ t, r.timestamp = some t → t < 2 ^ 64

lemma toUint_returnsOr (bits : ℕ) (x : ℤ) (hfits : c → 0 ≤ x ∧ x < 2 ^ bits) :
    ReturnsOr c .valueError (fun n : ℕ => x = n ∧ n < 2 ^ bits) (toUint bits x) := by
  cases h : toUint bits x with
  | ok n => exact .ok (toUint_eq_ok.mp h)
  | error e =>
    obtain ⟨rfl, hnot⟩ := toUint_eq_error h
    exact .error fun hc => hnot (hfits hc)

lemma floorDiv_eq {x y : ℤ} (h : y ≠ 0) : floorDiv x y = .ok (x.fdiv y) := by
  unfold floorDiv
  rw [if_neg h]

lemma fdiv_bounds {x y m : ℤ} (hx : 0 ≤ x) (hy : 0 < y) (hlt : x < m) : 0 ≤ x.fdiv y ∧ x.fdiv y < m := by
  rw [Int.fdiv_eq_ediv_of_nonneg x hy.le]
  exact ⟨Int.ediv_nonneg hx hy.le, (Int.ediv_le_self y hx).trans_lt hlt⟩

lemma uint64_returnsOr (m : ℕ) (hfits : c → m < 2 ^ 64) :
    ReturnsOr c .valueError (fun k => k = m ∧ k < 2 ^ 64) (toUint 64 (m : ℤ)) :=
  (toUint_returnsOr 64 _ fun hc => ⟨Int.natCast_nonneg m, by exact_mod_cast hfits hc⟩).imp
    fun _ hk => ⟨(Int.ofNat.inj hk.1).symm, hk.2⟩

lemma clamp_lt {least old q : ℕ} (hleast : least < 2 ^ 64) (hold : old / 3 < 2 ^ 64) (hq : q < 2 ^ 64) :
    clamp least old q < 2 ^ 64 := by
  unfold clamp
  split_ifs <;> omega

/-- The checked bounds around a new value, and the value between them. -/
lemma clamped_returnsOr {β : Type} {P : β → Prop} {rest : ℕ → Except PyError β} {least : ℕ} (hleast : least < 2 ^ 64)
    (hq : q < 2 ^ 64) (hold : c → 3 * old < 2 ^ 64)
    (hrest : clamp least old q < 2 ^ 64 → ReturnsOr c .valueError P (rest (clamp least old q))) :
    ReturnsOr c .valueError P (do
      let greatest ← uint64 (DIFFICULTY_CHANGE_MAX_FACTOR * old : ℕ)
      let smallest ← uint64 (old / DIFFICULTY_CHANGE_MAX_FACTOR : ℕ)
      let value ← uint64 (if q ≥ old then min q greatest else max (max least q) smallest : ℕ)
      rest value) := by
  refine (uint64_returnsOr _ hold).bind fun greatest ⟨hgreatest, _⟩ => ?_
  refine (uint64_returnsOr _ fun hc => ?_).bind fun smallest ⟨hsmallest, hlt⟩ => ?_
  · have := hold hc
    simp only [DIFFICULTY_CHANGE_MAX_FACTOR]
    omega
  subst hgreatest hsmallest
  have hclampLt : clamp least old q < 2 ^ 64 := clamp_lt hleast hlt hq
  refine (uint64_returnsOr (clamp least old q) fun _ => hclampLt).bind fun value ⟨hvalue, _⟩ => ?_
  exact hvalue ▸ hrest hclampLt

lemma adjustedSubSlotIters_returnsOr (hprev : lastPrev.timestamp = some t) (hcurr : lastCurr.timestamp = some t')
    (hlt : t < t') (hle : lastPrev.totalIters ≤ lastCurr.totalIters)
    (hiters : c → SUB_SLOT_TIME_TARGET * lastCurr.totalIters < 2 ^ 64) (hssi : c → 3 * lastCurr.subSlotIters < 2 ^ 64) :
    ReturnsOr c .valueError (fun ssi => ∃ q, ssi = retargetSubSlotIters lastCurr.subSlotIters q)
      (adjustedSubSlotIters lastPrev lastCurr) := by
  unfold adjustedSubSlotIters
  rw [assertSome_ok.mpr hprev, assertSome_ok.mpr hcurr, ok_bind, ok_bind, floorDiv_eq (by omega)]
  refine (toUint_returnsOr 64 _ fun hc => ?_).bind fun q ⟨_, hq⟩ => ?_
  · have := hiters hc
    simp only [SUB_SLOT_TIME_TARGET] at this ⊢
    exact fdiv_bounds (by omega) (by omega) (by omega)
  refine clamped_returnsOr (by decide) hq hssi fun hclampLt => ?_
  refine (uint64_returnsOr _ fun _ => ?_).bind fun rounded ⟨hrounded, _⟩ => ?_
  · exact (Nat.sub_le _ _).trans_lt ((truncateToSignificantBits_le _ 8).trans_lt hclampLt)
  subst hrounded
  have hround := roundDown_six (truncateToSignificantBits (clamp 64 lastCurr.subSlotIters q) 8)
  have hcount := countSignificantBits_roundDown_truncate 6 (clamp 64 lastCurr.subSlotIters q) 8
  rw [hround] at hcount
  rw [(pyAssert_ok (u := ())).mpr (decide_eq_true hcount)]
  exact .ok ⟨q, hround.symm⟩

lemma adjustedDifficulty_returnsOr {prevB prevPrevB : BlockRecord}
    (hprev : lastPrev.timestamp = some t) (hcurr : lastCurr.timestamp = some t') (hlt : t < t') (htime : c → t' < 2 ^ 64)
    (hle : lastPrev.weight ≤ lastCurr.weight) (hweight : c → SUB_SLOT_TIME_TARGET * lastCurr.weight < 2 ^ 64)
    (hprevPrev : blocks.blockRecord prevB.prevHash = .ok prevPrevB) (hle' : prevPrevB.weight ≤ prevB.weight)
    (hdiff : c → 3 * (prevB.weight - prevPrevB.weight) < 2 ^ 64) :
    ReturnsOr c .valueError (fun d => (∃ q, d = retargetDifficulty (prevB.weight - prevPrevB.weight) q) ∧ d < 2 ^ 64)
      (adjustedDifficulty blocks lastPrev lastCurr prevB) := by
  unfold adjustedDifficulty
  rw [assertSome_ok.mpr hprev, assertSome_ok.mpr hcurr]
  refine (toUint_returnsOr 64 _ fun hc => ?_).bind fun time ⟨hdt, _⟩ => ?_
  · have := htime hc
    omega
  rw [hprevPrev]
  refine (toUint_returnsOr 64 _ fun hc => ?_).bind fun old ⟨hold, _⟩ => ?_
  · have := hdiff hc
    omega
  obtain rfl : old = prevB.weight - prevPrevB.weight := by omega
  rw [floorDiv_eq (by simp only [SLOT_BLOCKS_TARGET]; omega)]
  refine (toUint_returnsOr 64 _ fun hc => ?_).bind fun q ⟨_, hq⟩ => ?_
  · have := hweight hc
    simp only [SUB_SLOT_TIME_TARGET, SLOT_BLOCKS_TARGET] at this ⊢
    exact fdiv_bounds (by omega) (by omega) (by omega)
  refine clamped_returnsOr (by decide) hq hdiff fun hclampLt => ?_
  change ReturnsOr c .valueError _
    (pyAssert (countSignificantBits (retargetDifficulty (prevB.weight - prevPrevB.weight) q) ≤ 8)
    >>= fun _ => toUint 64 (retargetDifficulty (prevB.weight - prevPrevB.weight) q : ℕ))
  have hcount : countSignificantBits (retargetDifficulty (prevB.weight - prevPrevB.weight) q) ≤ 8 :=
    countSignificantBits_truncate _ 8
  rw [(pyAssert_ok (u := ())).mpr (decide_eq_true hcount), ok_bind]
  refine (uint64_returnsOr _ fun _ => (truncateToSignificantBits_le _ 8).trans_lt hclampLt).imp fun d hd => ?_
  exact ⟨⟨q, hd.1⟩, hd.2⟩

structure NewValues (old oldDifficulty : ℕ) (values : ℕ × ℕ) : Prop where
  subSlotIters : ∃ q, values.1 = retargetSubSlotIters old q
  difficulty : ∃ q, values.2 = retargetDifficulty oldDifficulty q
  difficulty_lt : values.2 < 2 ^ 64

/-- The blocks by which an epoch is measured. -/
structure Measured (blocks : Blocks) (tip prev lastPrev lastCurr : BlockRecord) : Prop where
  secondToLast : getSecondToLastTransactionBlockInPreviousEpoch blocks prev = .ok lastPrev
  last : lastTransactionBlockBy blocks tip.spTotal prev = .ok lastCurr
  subSlotIters : lastCurr.subSlotIters = tip.subSlotIters
  totalIters : lastPrev.totalIters ≤ lastCurr.totalIters
  weight : lastPrev.weight ≤ lastCurr.weight
  later : ∃ t t', lastPrev.timestamp = some t ∧ lastCurr.timestamp = some t' ∧ t < t'

lemma LastEpoch.measured (h : LastEpoch tip (prev :: older) newer a rest)
    (hchain : ValidChain env (tip :: prev :: older)) (hknows : Knows blocks (tip :: prev :: older))
    (hheight : tip.height + 1 < 2 ^ 32) :
    ∃ lastPrev lastCurr, lastCurr ∈ tip :: prev :: older ∧ Measured blocks tip prev lastPrev lastCurr := by
  obtain ⟨x, hx, hsecond, -, htx, hxheight⟩ := h.secondToLast hchain hknows hheight
  obtain ⟨y, hy, hfind⟩ := h.exists_lastTransaction hchain
  have hymem : y ∈ tip :: prev :: older := h.split ▸ mem_append_left _ hy
  obtain ⟨t, ht⟩ := Option.isSome_iff_exists.mp htx
  have hfound := find?_some hfind
  obtain ⟨t', ht'⟩ := Option.isSome_iff_exists.mp (Bool.and_eq_true_iff.mp hfound).2
  have hlt : x.height < y.height := by
    have hlinked := hchain.linked
    rw [h.split] at hlinked
    exact hxheight.trans_lt (hlinked.lt_of_append y hy)
  obtain ⟨rest, hsuffix, hxrest⟩ := hchain.linked.mem_older hx hymem hlt
  have hvalid := hchain.suffix hsuffix
  have hxmem := mem_cons_of_mem y hxrest
  refine ⟨x, y, hymem, hsecond, ?_, h.subSlotIters_eq hchain hy, hvalid.total_le x hxmem, hvalid.weight_le x hxmem,
    t, t', ht, ht', hchain.timestamp_lt hx hymem hlt ht ht'⟩
  rw [lastTransactionBlockBy_eq hknows.tail hchain.linked.tail, hfind]
  rfl

lemma containsBlock_prev (hknows : Knows blocks (tip :: prev :: older)) (hlinked : Linked (tip :: prev :: older)) :
    blocks.containsBlock tip.prevHash = true := by
  rw [hlinked.1]
  exact Dict.contains_iff.mpr ⟨_, hknows.records prev (mem_cons_of_mem _ mem_cons_self)⟩

/-- At the end of an epoch the values are computed from the two blocks by which it is measured. -/
lemma getNext_measured (hsp : tip.spTotalIters = .ok tip.spTotal) (hchain : ValidChain env (tip :: prev :: older))
    (hknows : Knows blocks (tip :: prev :: older))
    (hheight : tip.height + 1 < 2 ^ 32) (hlow : 4608 ≤ tip.height + 1) (hends : endsEpoch tip (prev :: older) n = true)
    (hsecond : getSecondToLastTransactionBlockInPreviousEpoch blocks prev = .ok lastPrev)
    (hlast : lastTransactionBlockBy blocks tip.spTotal prev = .ok lastCurr) :
    getNextSubSlotItersAndDifficulty (0 < n) (some tip) blocks = do
      let _ ← difficultyOf blocks tip
      let d ← adjustedDifficulty blocks lastPrev lastCurr prev
      let ssi ← adjustedSubSlotIters lastPrev lastCurr
      return (ssi, d) := by
  obtain ⟨-, hends'⟩ := Bool.and_eq_true_iff.mp hends
  obtain ⟨-, -, hnone, -⟩ := canFinishSe_eq_true.mp (Bool.and_eq_true_iff.mp hends').1
  have hchange := epochEnds_eq (n := n) hknows hchain.linked hheight hnone
  rw [hends] at hchange
  have hvalue {first starting current : ℕ} {adjusted : BlockRecord → BlockRecord → BlockRecord → Except PyError ℕ}
      (hfirst : first ≤ 4608) : nextValue blocks tip.prevHash first starting current adjusted tip.height tip.deficit false
        (0 < n) tip.spTotal false = adjusted lastPrev lastCurr prev := by
    unfold nextValue
    rw [uint32_succ hheight, ok_bind, if_neg (by omega), containsBlock_prev hknows hchain.linked, if_neg (by decide),
      blockRecord_prev hknows hchain.linked, ok_bind, hchange, ok_bind, if_neg (by decide), hsecond, ok_bind, hlast,
      ok_bind]
  unfold getNextSubSlotItersAndDifficulty
  dsimp only
  refine bind_congr fun d => ?_
  rw [hnone, if_neg (by decide), hsp, ok_bind, getNextDifficulty, hvalue (by decide), getNextSubSlotIters,
    hvalue (by decide)]

lemma getNext_epochEnd (hsp : tip.spTotalIters = .ok tip.spTotal) (hchain : ValidChain env (tip :: older))
    (hknows : Knows blocks (tip :: older))
    (hheight : tip.height + 1 < 2 ^ 32) (hends : endsEpoch tip older n = true) :
    ReturnsOr (SmallNumbers (tip :: older)) .valueError (NewValues tip.subSlotIters (difficulty (tip :: older)))
      (getNextSubSlotItersAndDifficulty (0 < n) (some tip) blocks) := by
  obtain ⟨-, hends'⟩ := Bool.and_eq_true_iff.mp hends
  obtain ⟨hcan, haligned⟩ := Bool.and_eq_true_iff.mp hends'
  obtain ⟨-, -, hnone, -⟩ := canFinishSe_eq_true.mp hcan
  obtain ⟨newer, a, rest, hepoch⟩ := hchain.exists_lastEpoch hcan haligned
  have hlow : 4608 ≤ tip.height + 1 := by
    have := hepoch.number
    have hstart : subEpochStart (tip.height + 1) = (tip.height + 1) / 384 * 384 := rfl
    omega
  match older, hchain, hknows, hends, hepoch with
  | [], hchain, _, _, _ =>
    have hzero : tip.height = 0 := hchain.linked
    omega
  | [prev], hchain, _, _, _ =>
    have hone := hchain.linked.2.1
    have hzero : prev.height = 0 := hchain.linked.2.2
    omega
  | prev :: prevPrev :: older, hchain, hknows, hends, hepoch =>
    obtain ⟨x, y, hymem, hmeasured⟩ := hepoch.measured hchain hknows hheight
    obtain ⟨t, t', ht, ht', hlt⟩ := hmeasured.later
    have hprev := blockRecord_prev hknows hchain.linked
    have hprevPrev := blockRecord_prev hknows.tail hchain.linked.tail
    obtain ⟨m, htail, hext⟩ := hchain.cons_inv
    obtain ⟨m', htail', hext'⟩ := htail.cons_inv
    have hsame : prev.weight - prevPrev.weight = difficulty (tip :: prev :: prevPrev :: older) :=
      (hext.same htail (hext.endsEpoch_eq.trans (by simp [changesValues, hnone]))).2.symm
    have hweight (hsmall : SmallNumbers (tip :: prev :: prevPrev :: older)) : 600 * tip.weight < 2 ^ 64 :=
      hsmall.weight tip mem_cons_self
    rw [getNext_measured hsp hchain hknows hheight hlow hends hmeasured.secondToLast hmeasured.last]
    refine ReturnsOr.bind (P := fun _ => True) ?_ fun prevDifficulty _ =>
      ReturnsOr.bind (P := fun d => (∃ q, d = retargetDifficulty (prev.weight - prevPrev.weight) q) ∧ d < 2 ^ 64) ?_
      fun d hd => ReturnsOr.bind (P := fun ssi => ∃ q, ssi = retargetSubSlotIters tip.subSlotIters q) ?_ fun ssi hssi => ?_
    · unfold difficultyOf
      rw [if_pos (by omega), hprev]
      refine (toUint_returnsOr 64 _ fun hsmall => ?_).imp fun _ _ => trivial
      have := hext.weight_le
      have := hweight hsmall
      omega
    · refine adjustedDifficulty_returnsOr ht ht' hlt (fun hsmall => hsmall.timestamp y hymem t' ht') hmeasured.weight
        (fun hsmall => hsmall.weight y hymem) hprevPrev hext'.weight_le fun hsmall => ?_
      have := hext.weight_le
      have := hweight hsmall
      omega
    · rw [← hmeasured.subSlotIters]
      refine adjustedSubSlotIters_returnsOr ht ht' hlt hmeasured.totalIters (fun hsmall => hsmall.totalIters y hymem)
        fun hsmall => ?_
      have htotal : 600 * tip.totalIters < 2 ^ 64 := hsmall.totalIters tip mem_cons_self
      have hstart := hepoch.slotStart_ge hchain
      have := (hchain.recordOk tip mem_cons_self).total_eq
      rw [hmeasured.subSlotIters]
      omega
    · exact .ok ⟨hssi, hsame ▸ hd.1, hd.2⟩

lemma Extends.newValues (hr : Extends env tip older n r) (hchain : ValidChain env (tip :: older))
    (hsp : tip.spTotalIters = .ok tip.spTotal) (hends : endsEpoch tip older n = true) :
    NewValues tip.subSlotIters (difficulty (tip :: older)) (r.subSlotIters, difficulty (r :: tip :: older)) := by
  have hheight := hr.height
  have hheightLt := hr.height_lt
  obtain ⟨blocks, hknows, hvalues, -⟩ := hr.values
  have hnew := getNext_epochEnd hsp hchain hknows (by omega) hends
  rw [hvalues] at hnew
  cases hnew with
  | ok hnew => exact hnew

lemma ValidChain.sixtyFour_le (h : ValidChain env (tip :: older)) : 64 ≤ tip.subSlotIters ∧ tip.subSlotIters % 64 = 0 := by
  have hok := (h.recordOk tip mem_cons_self).iters
  have := hok.divides
  have := hok.ssi_pos
  omega

lemma Extends.subSlotIters_le (hr : Extends env tip older n r) (hchain : ValidChain env (tip :: older))
    (hsp : tip.spTotalIters = .ok tip.spTotal) : r.subSlotIters ≤ 3 * tip.subSlotIters := by
  cases hends : endsEpoch tip older n with
  | false =>
    have := (hr.same hchain hends).1
    omega
  | true =>
    obtain ⟨q, hq⟩ := (hr.newValues hchain hsp hends).subSlotIters
    exact hq.trans_le (retargetSubSlotIters_bounds hchain.sixtyFour_le.1).le

lemma RecordOk.spTotalIters (h : RecordOk r) (hstart : r.slotStart = 0 ∨ r.subSlotIters ≤ r.slotStart) :
    r.spTotalIters = .ok r.spTotal := by
  refine h.spTotalIters_eq_ok.mpr ⟨fun ho => ?_, rfl⟩
  have := h.slotStart_pos ho
  omega

lemma ValidChain.slotStart_ge (h : ValidChain env chain) : ∀ r ∈ chain, r.slotStart = 0 ∨ r.subSlotIters ≤ r.slotStart := by
  induction h with
  | genesis n g hg =>
    refine forall_mem_singleton.mpr ?_
    rw [hg.slotStart, hg.subSlotIters]
    omega
  | block n r tip older htail hr ih =>
    refine forall_mem_cons.mpr ⟨?_, ih⟩
    have htip := ih tip mem_cons_self
    have hstart := hr.slotStart
    by_cases hn : n = 0
    · subst hn
      rw [hstart, hr.same_of_no_slot htail]
      exact htip
    rw [slotStartAfter, if_neg hn] at hstart
    have hle := hr.subSlotIters_le htail ((htail.recordOk tip mem_cons_self).spTotalIters htip)
    refine Or.inr ?_
    cases hends : endsEpoch tip older n with
    | false =>
      have := (hr.same htail hends).1
      omega
    | true =>
      obtain ⟨-, hends'⟩ := Bool.and_eq_true_iff.mp hends
      obtain ⟨hcan, haligned⟩ := Bool.and_eq_true_iff.mp hends'
      obtain ⟨newer, a, rest, hepoch⟩ := htail.exists_lastEpoch hcan haligned
      have := hepoch.slotStart_ge htail
      omega

lemma ValidChain.spTotalIters (h : ValidChain env chain) (hr : r ∈ chain) : r.spTotalIters = .ok r.spTotal :=
  (h.recordOk r hr).spTotalIters (h.slotStart_ge r hr)

lemma ValidChain.difficulty_pos (h : ValidChain env chain) : 0 < difficulty chain ∧ difficulty chain < 2 ^ 64 := by
  induction h with
  | genesis n g hg =>
    change 0 < g.weight ∧ g.weight < 2 ^ 64
    rw [hg.weight]
    decide
  | block n r tip older htail hr ih =>
    cases hends : endsEpoch tip older n with
    | false =>
      rw [(hr.same htail hends).2]
      exact ih
    | true =>
      have hnew := hr.newValues htail (htail.spTotalIters mem_cons_self) hends
      obtain ⟨q, hq⟩ := hnew.difficulty
      exact ⟨(retargetDifficulty_bounds ih.1).pos.trans_eq hq.symm, hnew.difficulty_lt⟩

lemma difficultyOf_ok (hchain : ValidChain env (tip :: older)) (hknows : Knows blocks (tip :: older)) :
    difficultyOf blocks tip = .ok (difficulty (tip :: older)) := by
  have hlinked := hchain.linked
  have hfits := hchain.difficulty_pos.2
  unfold difficultyOf
  cases older with
  | nil =>
    have hzero : tip.height = 0 := hlinked
    rw [if_neg (not_not.mpr hzero)]
    exact uint64_eq_ok.mpr ⟨rfl, hfits⟩
  | cons prev older =>
    obtain ⟨m, -, hext⟩ := hchain.cons_inv
    have hle := hext.weight_le
    rw [if_pos (by have := hext.height; omega), blockRecord_prev hknows hlinked]
    refine uint64_eq_ok.mpr ⟨?_, hfits⟩
    change (tip.weight : ℤ) - prev.weight = (tip.weight - prev.weight : ℕ)
    omega

lemma getNext_of_not_ends (hchain : ValidChain env (tip :: older)) (hknows : Knows blocks (tip :: older))
    (hheight : tip.height + 1 < 2 ^ 32) (hends : endsEpoch tip older n = false) :
    getNextSubSlotItersAndDifficulty (0 < n) (some tip) blocks = .ok (tip.subSlotIters, difficulty (tip :: older)) := by
  have hlinked := hchain.linked
  unfold getNextSubSlotItersAndDifficulty
  dsimp only
  rw [difficultyOf_ok hchain hknows, ok_bind]
  cases hses : tip.subEpochSummaryIncluded with
  | some ses => rfl
  | none =>
    have hchange := epochEnds_eq (n := n) hknows hlinked hheight hses
    rw [hends] at hchange
    have hvalue {first starting current : ℕ} {adjusted : BlockRecord → BlockRecord → BlockRecord → Except PyError ℕ}
        (hearly : tip.height + 1 < first → current = starting) (hstarting : starting < 2 ^ 64) (hfirst : 1 < first) :
        nextValue blocks tip.prevHash first starting current adjusted tip.height tip.deficit false (0 < n) tip.spTotal
          false = .ok current := by
      unfold nextValue
      rw [uint32_succ hheight, ok_bind]
      split_ifs with hlow hcontains
      · rw [hearly hlow]
        exact uint64_eq_ok.mpr ⟨rfl, hstarting⟩
      -- after the first epoch there is a block before the tip
      all_goals cases older with
        | nil => exact absurd (show tip.height = 0 from hlinked) (by omega)
        | cons prev older => ?_
      · simp [containsBlock_prev hknows hlinked] at hcontains
      · rw [blockRecord_prev hknows hlinked, ok_bind, hchange]
        rfl
    rw [hchain.spTotalIters mem_cons_self, ok_bind, getNextDifficulty, hvalue ?_ (by decide) (by decide), ok_bind,
      getNextSubSlotIters, hvalue ?_ (by decide) (by decide)]
    · rfl
    · exact fun hlow => (hchain.early (by simp only [EPOCH_BLOCKS] at hlow; omega)).1
    · exact fun hlow => (hchain.early (by simp only [EPOCH_BLOCKS] at hlow; omega)).2

end SectorChain.Header
