import SectorChain.Proofs.MempoolReplacement

/-!
# The items offered to a peer

The loops go through the items by rising fee per cost.
-/

namespace SectorChain.Proofs

open Lib List

variable {Q : Type} [LinearOrder Q] {env : MempoolEnv Q}

def unmatchedItems (m : Mempool Q) (isMatch : Bytes32 → Bool) : List MempoolItem :=
  (m.spends.entries.map Prod.snd).filter fun item => !isMatch item.name

/-- As many unmatched items as the limit allows, and none that is left out pays more per cost. -/
structure BestOffer (env : MempoolEnv Q) (m : Mempool Q) (isMatch : Bytes32 → Bool) (limit : ℤ)
    (items : List MempoolItem) : Prop where
  nodup : items.Nodup
  unmatched : ∀ item ∈ items, item ∈ unmatchedItems m isMatch
  atMost : (items.length : ℤ) ≤ limit
  full : (items.length : ℤ) = limit ∨ ∀ item ∈ unmatchedItems m isMatch, item ∈ items
  best : ∀ item ∈ items, ∀ other ∈ unmatchedItems m isMatch, other ∉ items → other.feePerCost env ≤ item.feePerCost env

/-- There is no choice to make: all unmatched items are offered or none is, or they all pay the same. -/
def NoChoice (env : MempoolEnv Q) (m : Mempool Q) (isMatch : Bytes32 → Bool) (limit : ℤ) : Prop :=
  0 ≤ limit ∧ (limit = 0 ∨ ((unmatchedItems m isMatch).length : ℤ) ≤ limit ∨
    ∀ item ∈ unmatchedItems m isMatch, ∀ other ∈ unmatchedItems m isMatch, item.feePerCost env = other.feePerCost env)

section Loop

variable {isMatch : Bytes32 → Bool} {limit counter : ℤ}

lemma itemsNotInFilterFrom_of_le (l : List MempoolItem) (h : counter ≤ limit) :
    itemsNotInFilterFrom isMatch limit counter l =
      (l.filter fun item => !isMatch item.name).take (limit - counter).toNat := by
  induction l generalizing counter with
  | nil => rw [filter_nil, take_nil, itemsNotInFilterFrom]
  | cons item l ih =>
    rw [filter_cons]
    change (if counter = limit then [] else if isMatch item.name then _ else _) = _
    by_cases hlimit : counter = limit
    · rw [if_pos hlimit, hlimit, sub_self, Int.toNat_zero, take_zero]
    rw [if_neg hlimit]
    cases isMatch item.name with
    | true => exact ih h
    | false =>
      have hsucc : (limit - counter).toNat = (limit - (counter + 1)).toNat + 1 := by omega
      rw [hsucc]
      exact congrArg (item :: ·) (ih (by omega))

end Loop

variable {m : Mempool Q} {isMatch : Bytes32 → Bool}

def risingItems (m : Mempool Q) (isMatch : Bytes32 → Bool) : List MempoolItem :=
  (m.inOrder.map Prod.snd).filter fun item => !isMatch item.name

lemma Indexed.nodup_items (h : Indexed env m) : (m.inOrder.map Prod.snd).Nodup := by
  have hnames : ((m.inOrder.map Prod.snd).map MempoolItem.name).Nodup := by
    rw [map_map]
    exact h.nodup_inOrder
  exact hnames.of_map

lemma Indexed.risingItems_perm (h : Indexed env m) : (risingItems m isMatch).Perm (unmatchedItems m isMatch) := by
  apply List.Perm.filter
  have hspends : (m.spends.entries.map Prod.snd).Nodup := by
    have hnames : ((m.spends.entries.map Prod.snd).map MempoolItem.name).Nodup := by
      rw [map_map]
      have hkeys : m.spends.entries.map (MempoolItem.name ∘ Prod.snd) = m.spends.entries.map Prod.fst :=
        map_congr_left fun e he => h.keyed (Dict.mem_entries.mp he)
      rw [hkeys]
      exact m.spends.nodup
    exact hnames.of_map
  rw [perm_ext_iff_of_nodup h.nodup_items hspends]
  intro item
  constructor
  · intro hitem
    obtain ⟨⟨rate, item⟩, hmem, rfl⟩ := mem_map.mp hitem
    exact mem_map.mpr ⟨(item.name, item), Dict.mem_entries.mpr (h.mem_inOrder.mp hmem).1, rfl⟩
  intro hitem
  obtain ⟨⟨name, item⟩, hmem, rfl⟩ := mem_map.mp hitem
  have hget := Dict.mem_entries.mp hmem
  rw [← h.keyed hget] at hget
  exact mem_map.mpr ⟨(item.feePerCost env, item), h.mem_inOrder.mpr ⟨hget, rfl⟩, rfl⟩

lemma Indexed.pairwise_risingItems (h : Indexed env m) :
    (risingItems m isMatch).Pairwise fun x y => x.feePerCost env ≤ y.feePerCost env := by
  apply List.Pairwise.filter
  apply pairwise_map.mpr
  apply (pairwise_inOrder m).imp_of_mem
  rintro ⟨rate, item⟩ ⟨rate', item'⟩ hx hy hle
  rw [(h.mem_inOrder.mp hx).2, (h.mem_inOrder.mp hy).2]
  exact hle

lemma bestOffer_take_iff {l : List MempoolItem} (hnodup : l.Nodup) (hperm : l.Perm (unmatchedItems m isMatch))
    (hrising : l.Pairwise fun x y => x.feePerCost env ≤ y.feePerCost env) (n : ℕ) :
    BestOffer env m isMatch n (l.take n) ↔ NoChoice env m isMatch n := by
  constructor
  · intro hbest
    refine ⟨Int.natCast_nonneg n, ?_⟩
    rcases Nat.eq_zero_or_pos n with rfl | hpos
    · exact .inl rfl
    rcases Nat.lt_or_ge n l.length with hlt | hge
    · refine .inr (.inr ?_)
      rw [← take_append_drop n l] at hrising hnodup
      have hsame : ∀ x ∈ l.take n, ∀ y ∈ l.drop n, x.feePerCost env = y.feePerCost env := by
        intro x hx y hy
        apply le_antisymm ((pairwise_append.mp hrising).2.2 x hx y hy)
        exact hbest.best x hx y (hperm.mem_iff.mp (mem_of_mem_drop hy)) fun hy' =>
          disjoint_of_nodup_append hnodup hy' hy
      obtain ⟨a, ha⟩ := exists_mem_of_length_pos (l := l.take n) (by rw [length_take]; omega)
      obtain ⟨b, hb⟩ := exists_mem_of_length_pos (l := l.drop n) (by rw [length_drop]; omega)
      have hall : ∀ x ∈ unmatchedItems m isMatch, x.feePerCost env = b.feePerCost env := by
        intro x hx
        have hx' := hperm.mem_iff.mpr hx
        rw [← take_append_drop n l] at hx'
        rcases mem_append.mp hx' with hx' | hx'
        · exact hsame x hx' b hb
        · exact (hsame a ha x hx').symm.trans (hsame a ha b hb)
      intro item hitem other hother
      rw [hall item hitem, hall other hother]
    · rw [hperm.length_eq] at hge
      exact .inr (.inl (by omega))
  · rintro ⟨-, hchoice⟩
    constructor
    · exact hnodup.sublist (take_sublist n l)
    · exact fun item hitem => hperm.mem_iff.mp (mem_of_mem_take hitem)
    · rw [length_take]
      omega
    · rcases Nat.lt_or_ge n l.length with hlt | hge
      · rw [length_take, Nat.min_eq_left hlt.le]
        exact .inl rfl
      · rw [take_of_length_le hge]
        exact .inr fun item hitem => hperm.mem_iff.mpr hitem
    intro item hitem other hother hnot
    rcases hchoice with hzero | hle | hsame
    · obtain rfl : n = 0 := by omega
      cases hitem
    · rw [take_of_length_le (by rw [hperm.length_eq]; omega)] at hnot
      exact absurd (hperm.mem_iff.mpr hother) hnot
    · exact (hsame other hother item (hperm.mem_iff.mp (mem_of_mem_take hitem))).le

/-- The best items are offered if and only if there is no choice to make. -/
theorem offered_items_best_iff (env : MempoolEnv Q) (npcOf : Bytes32 → NPCResult) (s : MempoolManager Q)
    (hs : Reached env (NamedBy npcOf) (fun _ => True) s) (isMatch : Bytes32 → Bool) (limit : ℤ) :
    BestOffer env s.mempool isMatch limit (getItemsNotInFilter s isMatch limit) ↔
      NoChoice env s.mempool isMatch limit := by
  have h : Indexed env s.mempool := (hs.safe (preserved_tracked env npcOf)).pool.indexed
  by_cases hlimit : 0 ≤ limit
  · obtain ⟨n, rfl⟩ := Int.eq_ofNat_of_zero_le hlimit
    have hitems : getItemsNotInFilter s isMatch n = (risingItems s.mempool isMatch).take n := by
      unfold getItemsNotInFilter
      rw [itemsNotInFilterFrom_of_le _ hlimit]
      rfl
    rw [hitems]
    exact bestOffer_take_iff (h.nodup_items.filter _) h.risingItems_perm h.pairwise_risingItems n
  · refine iff_of_false (fun hbest => ?_) fun hchoice => hlimit hchoice.1
    have := hbest.atMost
    omega

def namedResult (name : Bytes32) : NPCResult :=
  preValidateSpendbundle (sampleMempoolEnv 10) (if name = .ofNat 32 1 then sampleBundle else generousBundle)

lemma reached_twoItemManager : Reached (sampleMempoolEnv 10) (NamedBy namedResult) (fun _ => True) twoItemManager := by
  refine reached_submit (reached_submit (reached_atPeak trivial) trivial ?_) trivial ?_
  · exact congrArg (preValidateSpendbundle _) (if_pos rfl).symm
  · exact congrArg (preValidateSpendbundle _) (if_neg (by decide)).symm

/-- Both items are offered. -/
theorem offered_items_best_both : NoChoice (sampleMempoolEnv 10) twoItemManager.mempool (fun _ => false) 2 ∧
      (getItemsNotInFilter twoItemManager (fun _ => false) 2).length = 2 ∧
      BestOffer (sampleMempoolEnv 10) twoItemManager.mempool (fun _ => false) 2
        (getItemsNotInFilter twoItemManager (fun _ => false) 2) := by
  have hchoice : NoChoice (sampleMempoolEnv 10) twoItemManager.mempool (fun _ => false) 2 :=
    ⟨by decide, .inr (.inl (by decide +kernel))⟩
  exact ⟨hchoice, by decide +kernel, (offered_items_best_iff (sampleMempoolEnv 10) _ twoItemManager
    reached_twoItemManager (fun _ => false) 2).mpr hchoice⟩

/-- Of two items, the one with the lower fee is offered. -/
theorem lower_fee_offered : Reached (sampleMempoolEnv 10) (NamedBy namedResult) (fun _ => True) twoItemManager ∧
      ¬BestOffer (sampleMempoolEnv 10) twoItemManager.mempool (fun _ => false) 1
        (getItemsNotInFilter twoItemManager (fun _ => false) 1) := by
  refine ⟨reached_twoItemManager, fun hbest => ?_⟩
  have hworse : ∃ item ∈ getItemsNotInFilter twoItemManager (fun _ => false) 1,
      ∃ other ∈ unmatchedItems twoItemManager.mempool (fun _ => false),
        other ∉ getItemsNotInFilter twoItemManager (fun _ => false) 1 ∧
          item.feePerCost (sampleMempoolEnv 10) < other.feePerCost (sampleMempoolEnv 10) := by
    decide +kernel
  obtain ⟨item, hitem, other, hother, hnot, hlt⟩ := hworse
  exact absurd (hbest.best item hitem other hother hnot) (not_le.mpr hlt)

end SectorChain.Proofs
