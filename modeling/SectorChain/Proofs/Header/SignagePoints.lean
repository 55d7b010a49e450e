import SectorChain.Proofs.Header.AcceptedChains

/-!
# Where the VDF to a signage point starts

The code does not know the slot of some overflow blocks.
-/

namespace SectorChain.Header

open Lib Blocks Check List Nat

variable {env : HeaderEnv} {blocks : Blocks} {n T sp : ℕ} {tip r f : BlockRecord}
  {chain older cur before : List BlockRecord}
  {y : Bytes32 × Bytes32} {ys found : List (Bytes32 × Bytes32)}

/-- The start of a slot, with the hashes of the slot that ended there. -/
structure SlotStart where
  iters : ℕ
  challenge : Bytes32
  reward : Bytes32

variable {slot : SlotStart} {slots later earlier : List SlotStart} {info : SignagePointVdfInfo}

/-- Slots of one length, the last one first. -/
def slotsBack (start ssi : ℕ) : List (Bytes32 × Bytes32) → List SlotStart
  | [] => []
  | hashes :: earlier => ⟨start, hashes.1, hashes.2⟩ :: slotsBack (start - ssi) ssi earlier

def slotHashes (r : BlockRecord) : List (Bytes32 × Bytes32) :=
  ((r.finishedChallengeSlotHashes.getD []).zip (r.finishedRewardSlotHashes.getD [])).reverse

def firstSlot (env : HeaderEnv) : SlotStart := ⟨0, env.genesisChallenge, env.genesisChallenge⟩

def chainSlots (env : HeaderEnv) : List BlockRecord → List SlotStart
  | [] => [firstSlot env]
  | [r] => slotsBack r.slotStart r.subSlotIters (slotHashes r) ++ if r.slotStart = 0 then [] else [firstSlot env]
  | r :: r' :: older => slotsBack r.slotStart r.subSlotIters (slotHashes r) ++ chainSlots env (r' :: older)

/-- The last slot that has started at the signage point, and the last infusion in it before. -/
structure StartsAtLast (slots : List SlotStart) (chain : List BlockRecord) (spTotal : ℕ) (slot : SlotStart)
    (info : SignagePointVdfInfo) : Prop where
  mem : slot ∈ slots
  le : slot.iters ≤ spTotal
  last : ∀ s ∈ slots, s.iters ≤ spTotal → s.iters ≤ slot.iters
  start : (∃ b ∈ chain, slot.iters ≤ b.totalIters ∧ b.totalIters < spTotal ∧
      (∀ b' ∈ chain, b'.totalIters < spTotal → b'.totalIters ≤ b.totalIters) ∧
      info = ⟨slot.challenge, b.rewardInfusionNewChallenge, b.challengeVdfOutput, spTotal - b.totalIters⟩) ∨
    (∀ b ∈ chain, b.totalIters < spTotal → b.totalIters < slot.iters) ∧
      info = ⟨slot.challenge, slot.reward, ClassgroupElement.getDefaultElement, spTotal - slot.iters⟩

lemma slotsBack_le {start ssi : ℕ} {hashes : List (Bytes32 × Bytes32)} :
    ∀ s ∈ slotsBack start ssi hashes, s.iters ≤ start := by
  induction hashes generalizing start with
  | nil => exact forall_mem_nil _
  | cons h hashes ih =>
    refine forall_mem_cons.mpr ⟨le_rfl, fun s hs => ?_⟩
    exact (ih s hs).trans (sub_le _ _)

lemma StartsAtLast.of_first (hle : slot.iters ≤ T) (hearlier : ∀ s ∈ earlier, s.iters ≤ slot.iters)
    (hchain : ∀ b ∈ chain, b.totalIters < slot.iters) : StartsAtLast (slot :: earlier) chain T slot
      ⟨slot.challenge, slot.reward, ClassgroupElement.getDefaultElement, T - slot.iters⟩ where
  mem := mem_cons_self
  le := hle
  last s hs _ := by
    rcases mem_cons.mp hs with rfl | hs
    · exact le_rfl
    · exact hearlier s hs
  start := .inr ⟨fun b hb _ => hchain b hb, rfl⟩

lemma StartsAtLast.congr {slots' : List SlotStart} {chain' : List BlockRecord}
    (hs : ∀ s, s.iters ≤ T → (s ∈ slots ↔ s ∈ slots'))
    (hb : ∀ b, b.totalIters < T → (b ∈ chain ↔ b ∈ chain')) (h : StartsAtLast slots chain T slot info) :
    StartsAtLast slots' chain' T slot info where
  mem := (hs _ h.le).mp h.mem
  le := h.le
  last s hmem hle := h.last s ((hs s hle).mpr hmem) hle
  start := by
    rcases h.start with ⟨b, hmem, hle, hlt, hlast, hinfo⟩ | ⟨hnone, hinfo⟩
    · exact .inl ⟨b, (hb b hlt).mp hmem, hle, hlt, fun b' hmem' hlt' => hlast b' ((hb b' hlt').mpr hmem') hlt', hinfo⟩
    · exact .inr ⟨fun b hmem hlt => hnone b ((hb b hlt).mpr hmem) hlt, hinfo⟩

/-- What comes after the signage point does not matter. -/
lemma startsAtLast_append {later : List SlotStart} {newer : List BlockRecord} (hlater : ∀ s ∈ later, T < s.iters)
    (hnewer : ∀ b ∈ newer, T ≤ b.totalIters) :
    StartsAtLast (later ++ slots) (newer ++ chain) T slot info ↔ StartsAtLast slots chain T slot info := by
  have hs : ∀ s : SlotStart, s.iters ≤ T → (s ∈ later ++ slots ↔ s ∈ slots) := fun s hle => by
    rw [mem_append, or_iff_right fun h => (hlater s h).not_ge hle]
  have hb : ∀ b : BlockRecord, b.totalIters < T → (b ∈ newer ++ chain ↔ b ∈ chain) := fun b hlt => by
    rw [mem_append, or_iff_right fun h => (hnewer b h).not_gt hlt]
  exact ⟨.congr hs hb, .congr (fun s hle => (hs s hle).symm) fun b hlt => (hb b hlt).symm⟩

lemma slotHashes_of_not_first (h : r.firstInSubSlot = false) : slotHashes r = [] := by
  have hnone : r.finishedChallengeSlotHashes = none := by simpa [BlockRecord.firstInSubSlot] using h
  simp [slotHashes, hnone]

lemma chainSlots_cons (htip : chain ≠ []) : chainSlots env (r :: chain) =
    slotsBack r.slotStart r.subSlotIters (slotHashes r) ++ chainSlots env chain := by
  cases chain with
  | nil => exact absurd rfl htip
  | cons r' older => rfl

lemma ValidChain.chainSlots_le (h : ValidChain env (tip :: older)) :
    ∀ s ∈ chainSlots env (tip :: older), s.iters ≤ tip.slotStart := by
  induction h using ValidChain.tipRec with
  | genesis n g hg =>
    intro s hs
    rcases mem_append.mp hs with hs | hs
    · exact slotsBack_le s hs
    · split at hs
      · cases hs
      · obtain rfl := mem_singleton.mp hs
        exact Nat.zero_le _
  | block n r tip' older' htail hr ih =>
    intro s hs
    rcases mem_append.mp hs with hs | hs
    · exact slotsBack_le s hs
    · have hstart := hr.slotStart
      unfold slotStartAfter at hstart
      have := ih s hs
      split at hstart <;> omega

/-- The blocks of the slot of the tip: the block `f` started it. -/
structure TipSlot (tip : BlockRecord) (older cur : List BlockRecord) (f : BlockRecord) (before : List BlockRecord) :
    Prop where
  split : tip :: older = cur ++ f :: before
  later : ∀ b ∈ cur, b.firstInSubSlot = false ∧ 0 < b.height
  first : f.firstInSubSlot = true
  same : ∀ b ∈ cur ++ [f], b.slotStart = tip.slotStart ∧ b.subSlotIters = tip.subSlotIters

lemma ValidChain.exists_tipSlot (h : ValidChain env (tip :: older)) : ∃ cur f before, TipSlot tip older cur f before := by
  induction h using ValidChain.tipRec with
  | genesis n g hg =>
    exact ⟨[], g, [], rfl, forall_mem_nil _, hg.first, forall_mem_singleton.mpr ⟨rfl, rfl⟩⟩
  | block n r tip' older' htail hr ih =>
    have hfirst := hr.first
    cases n with
    | succ n => exact ⟨[], r, tip' :: older', rfl, forall_mem_nil _, hfirst, forall_mem_singleton.mpr ⟨rfl, rfl⟩⟩
    | zero =>
      obtain ⟨cur, f, before, hslot⟩ := ih
      have hheight := hr.height
      have hstart : r.slotStart = tip'.slotStart := hr.slotStart
      refine ⟨r :: cur, f, before, by rw [hslot.split]; rfl, ?_, hslot.first, ?_⟩
      · exact forall_mem_cons.mpr ⟨⟨hfirst, by omega⟩, hslot.later⟩
      · rw [hstart, hr.same_of_no_slot htail]
        exact forall_mem_cons.mpr ⟨⟨hstart, hr.same_of_no_slot htail⟩, hslot.same⟩

/-- The numbers of a block after the tip of a chain and `n` finished sub-slots fit. -/
structure Follows (tip : BlockRecord) (older : List BlockRecord) (n : ℕ) (r : BlockRecord) : Prop where
  ok : RecordOk r
  slotStart : r.slotStart = slotStartAfter tip n r.subSlotIters
  same : endsEpoch tip older n = false → r.subSlotIters = tip.subSlotIters
  noOverflow : r.overflow = true → 0 < n → canFinishSe tip older = true → epochAligned tip = true → 2 ≤ n

lemma Extends.follows (h : Extends env tip older n r) (hchain : ValidChain env (tip :: older)) : Follows tip older n r :=
  ⟨h.ok, h.slotStart, fun hends => (h.same hchain hends).1, h.noOverflow⟩

/-- The same for a block on a chain or for a first block. -/
inductive Placed (env : HeaderEnv) : List BlockRecord → ℕ → BlockRecord → Prop where
  | genesis (n : ℕ) (r : BlockRecord) : RecordOk r → r.subSlotIters = 2 ^ 27 → r.slotStart = 2 ^ 27 * n → Placed env [] n r
  | next (n : ℕ) (r tip : BlockRecord) (older : List BlockRecord) :
      ValidChain env (tip :: older) → Follows tip older n r → Placed env (tip :: older) n r

/-- The slots and blocks before the first of some slots, of which the last one starts at `start`. -/
structure SlotsAfter (start ssi n : ℕ) (earlier : List SlotStart) (before : List BlockRecord) : Prop where
  listed_le : ssi * n ≤ start
  earlier_le : ∀ s ∈ earlier, s.iters + ssi * n ≤ start
  before_lt : ∀ b ∈ before, b.totalIters + ssi * n < start

lemma Placed.slotsAfter (h : Placed env chain (n + 1) r) :
    SlotsAfter r.slotStart r.subSlotIters n (chainSlots env chain) chain := by
  cases h with
  | genesis _ _ _ hssi hslot =>
    have hstart : r.subSlotIters * n ≤ r.slotStart := by
      rw [hssi, hslot]
      exact Nat.mul_le_mul_left _ n.le_succ
    exact ⟨hstart, forall_mem_singleton.mpr ((Nat.zero_add _).trans_le hstart), forall_mem_nil _⟩
  | next _ _ tip older htail hr =>
    have hstart : r.slotStart = tip.slotStart + tip.subSlotIters + r.subSlotIters * n := hr.slotStart
    have hend := (htail.recordOk tip mem_cons_self).total_lt_slotEnd
    refine ⟨by omega, fun s hs => ?_, fun b hb => ?_⟩
    · have := htail.chainSlots_le s hs
      omega
    · have := htail.total_le b hb
      omega

structure FirstBlock (env : HeaderEnv) (f : BlockRecord) (before : List BlockRecord) (y : Bytes32 × Bytes32)
    (ys : List (Bytes32 × Bytes32)) (earlier : List SlotStart) : Prop extends
    SlotsAfter f.slotStart f.subSlotIters ys.length earlier before where
  challenge : ∃ hashes, f.finishedChallengeSlotHashes = some hashes ∧ hashes.getLast? = some y.1
  reward : ∃ hashes, f.finishedRewardSlotHashes = some hashes ∧ hashes.getLast? = some y.2
  hashes : slotHashes f = y :: ys
  slots : chainSlots env (f :: before) = slotsBack f.slotStart f.subSlotIters (y :: ys) ++ earlier
  start : ∀ p ∈ before.head?, f.slotStart = p.slotStart + p.subSlotIters + f.subSlotIters * ys.length

lemma slotHashes_eq {m : ℕ} (hc : r.finishedChallengeSlotHashes.map List.length = some (m + 1))
    (hr : r.finishedRewardSlotHashes.map List.length = some (m + 1)) :
    ∃ y ys, (∃ hashes, r.finishedChallengeSlotHashes = some hashes ∧ hashes.getLast? = some y.1) ∧
      (∃ hashes, r.finishedRewardSlotHashes = some hashes ∧ hashes.getLast? = some y.2) ∧
      slotHashes r = y :: ys ∧ ys.length = m := by
  obtain ⟨cs, hcs, hclength⟩ := Option.map_eq_some_iff.mp hc
  obtain ⟨rs, hrs, hrlength⟩ := Option.map_eq_some_iff.mp hr
  obtain rfl | ⟨cs, c, rfl⟩ := eq_nil_or_concat cs
  · cases hclength
  obtain rfl | ⟨rs, d, rfl⟩ := eq_nil_or_concat rs
  · cases hrlength
  have hlength : cs.length = rs.length := by simp at hclength hrlength; omega
  refine ⟨(c, d), (cs.zip rs).reverse, ⟨_, hcs, by simp⟩, ⟨_, hrs, by simp⟩, ?_, ?_⟩
  · simp [slotHashes, hcs, hrs, zip_append hlength]
  · simp at hclength hrlength ⊢
    omega

lemma ValidChain.exists_firstBlock (h : ValidChain env (f :: before)) (hf : f.firstInSubSlot = true) :
    ∃ y ys earlier, FirstBlock env f before y ys earlier := by
  cases h with
  | genesis n _ hg =>
    have hchallenge := hg.challengeSlots
    have hreward := hg.rewardSlots
    have hstart := hg.slotStart
    cases n with
    | zero =>
      obtain ⟨y, ys, hc, hr, hhashes, hlength⟩ := slotHashes_eq hchallenge hreward
      obtain rfl := eq_nil_of_length_eq_zero hlength
      refine ⟨y, [], [], ⟨Nat.zero_le _, forall_mem_nil _, forall_mem_nil _⟩, hc, hr, hhashes, ?_, by simp⟩
      rw [chainSlots, hhashes, if_pos (show f.slotStart = 0 from hstart)]
    | succ n =>
      rw [max_eq_left n.succ_pos] at hchallenge hreward
      obtain ⟨y, ys, hc, hr, hhashes, rfl⟩ := slotHashes_eq hchallenge hreward
      refine ⟨y, ys, _, (@Placed.genesis env _ f hg.ok hg.subSlotIters hstart).slotsAfter, hc, hr, hhashes, ?_, by simp⟩
      rw [chainSlots.eq_2, hhashes, if_neg (by rw [hstart]; positivity)]
      rfl
  | block n _ tip older htail hr =>
    have hchallenge := hr.challengeSlots
    have hreward := hr.rewardSlots
    cases n with
    | zero =>
      rw [hr.first] at hf
      cases hf
    | succ n =>
      obtain ⟨y, ys, hc, hr', hhashes, rfl⟩ := slotHashes_eq hchallenge hreward
      refine ⟨y, ys, _, (Placed.next _ f tip older htail (hr.follows htail)).slotsAfter, hc, hr', hhashes,
        hhashes ▸ rfl, ?_⟩
      rintro _ ⟨⟩
      exact hr.slotStart

def slotInfo (y : Bytes32 × Bytes32) (slotBlocks : List BlockRecord) (spTotal spIters : ℕ) : SignagePointVdfInfo :=
  match slotBlocks.find? (fun b => b.totalIters < spTotal) with
  | some b => ⟨y.1, b.rewardInfusionNewChallenge, b.challengeVdfOutput, spTotal - b.totalIters⟩
  | none => ⟨y.1, y.2, ClassgroupElement.getDefaultElement, spIters⟩

lemma TipSlot.chainSlots_eq (h : TipSlot tip older cur f before) :
    chainSlots env (tip :: older) = chainSlots env (f :: before) := by
  rw [h.split]
  have hlater := h.later
  clear h
  induction cur with
  | nil => rfl
  | cons b cur ih =>
    rw [forall_mem_cons] at hlater
    rw [cons_append, chainSlots_cons (by simp), slotHashes_of_not_first hlater.1.1, ih hlater.2]
    rfl

lemma TipSlot.valid (h : TipSlot tip older cur f before) (hchain : ValidChain env (tip :: older)) :
    ValidChain env (f :: before) :=
  hchain.suffix ⟨cur, h.split.symm⟩

lemma TipSlot.slotStart_le (h : TipSlot tip older cur f before) {b : BlockRecord} (hb : b ∈ cur ++ [f]) :
    tip.slotStart ≤ b.totalIters := (h.same b hb).1 ▸ sub_le _ _

lemma TipSlot.startsAtLast_iff (h : TipSlot tip older cur f before) (hchain : ValidChain env (tip :: older))
    (hf : FirstBlock env f before y ys earlier) (hT : tip.slotStart ≤ T) (sp : ℕ) :
    (∃ slot, StartsAtLast (chainSlots env (tip :: older)) (tip :: older) T slot (slotInfo y (cur ++ [f]) T sp)) ↔
      sp = T - tip.slotStart ∨ ∃ b ∈ tip :: older, tip.slotStart ≤ b.totalIters ∧ b.totalIters < T := by
  have hmem : ⟨tip.slotStart, y.1, y.2⟩ ∈ chainSlots env (tip :: older) := by
    rw [h.chainSlots_eq, hf.slots, ← (h.same f (by simp)).1]
    exact mem_cons_self
  have hsplit : tip :: older = (cur ++ [f]) ++ before := by simp [h.split]
  unfold slotInfo
  cases hfind : (cur ++ [f]).find? (fun b => b.totalIters < T) with
  | none =>
    have hnone : ∀ b ∈ tip :: older, b.totalIters < T → b.totalIters < tip.slotStart := by
      intro b hb hlt
      rcases mem_append.mp (hsplit ▸ hb) with hb | hb
      · exact absurd (decide_eq_true hlt) (find?_eq_none.mp hfind b hb)
      · have := hf.before_lt b hb
        have := (h.same f (by simp)).1
        omega
    constructor
    · rintro ⟨slot, hs⟩
      have hslot : slot.iters = tip.slotStart := le_antisymm (hchain.chainSlots_le _ hs.mem) (hs.last _ hmem hT)
      rcases hs.start with ⟨b, hb, hle, hlt, -⟩ | ⟨-, hinfo⟩
      · exact .inr ⟨b, hb, hslot ▸ hle, hlt⟩
      · exact .inl (hslot ▸ congrArg SignagePointVdfInfo.vdfIters hinfo)
    · rintro (rfl | ⟨b, hb, hle, hlt⟩)
      · exact ⟨_, hmem, hT, fun s hs _ => hchain.chainSlots_le s hs, .inr ⟨hnone, rfl⟩⟩
      · exact absurd (hnone b hb hlt) (not_lt.mpr hle)
  | some b =>
    obtain ⟨hlt, newer, rest, heq, hnewer⟩ := find?_eq_some_iff_append.mp hfind
    have hle := h.slotStart_le (show b ∈ cur ++ [f] by rw [heq]; simp)
    have hlt' : b.totalIters < T := of_decide_eq_true hlt
    have hwhole : tip :: older = newer ++ b :: (rest ++ before) := by rw [hsplit, heq]; simp
    have hb : b ∈ tip :: older := by rw [hwhole]; simp
    refine iff_of_true ⟨_, hmem, hT, fun s hs _ => hchain.chainSlots_le s hs, .inl ⟨b, hb, hle, hlt', ?_, rfl⟩⟩
      (.inr ⟨b, hb, hle, hlt'⟩)
    intro b' hb' hblt
    rcases mem_append.mp (hwhole ▸ hb') with hb' | hb'
    · exact absurd (decide_eq_true hblt) (by simpa using hnewer b' hb')
    · exact (hchain.suffix ⟨newer, hwhole.symm⟩).total_le b' hb'

/-- No block is infused at a signage point. -/
lemma RecordOk.total_ne (h : RecordOk r) (idx : ℕ) : r.totalIters ≠ r.slotStart + spInterval r.subSlotIters * idx := by
  intro heq
  obtain ⟨k, hip, -⟩ := h.iters.exists_infusionPoint
  have hsum : spInterval r.subSlotIters * k + r.requiredIters = spInterval r.subSlotIters * idx := by
    have := h.total_eq
    have : r.ip = _ := hip
    omega
  have hmod := congrArg (· % spInterval r.subSlotIters) hsum
  simp only [mul_add_mod, mul_mod_right, mod_eq_of_lt h.iters.required_lt] at hmod
  exact h.iters.required_pos.ne' hmod

lemma lastOf_eq {α : Type} {l : List α} {a : α} (h : l.getLast? = some a) : lastOf l = .ok a := by
  unfold lastOf
  rw [h]

lemma signagePointFromPrev_eq (h : TipSlot tip older cur f before) (hchain : ValidChain env (tip :: older))
    (hknows : Knows blocks (tip :: older)) (hf : FirstBlock env f before y ys earlier) {idx : ℕ}
    (hT : T = tip.slotStart + sp)
    (hsp : sp = spInterval tip.subSlotIters * idx) (hlt : sp < 2 ^ 64) :
    signagePointFromPrev tip blocks T sp = .ok (slotInfo y (cur ++ [f]) T sp) := by
  obtain ⟨cs, hcs, hclast⟩ := hf.challenge
  obtain ⟨rs, hrs, hrlast⟩ := hf.reward
  have hrun : ∀ {newer b tail start}, tip :: older = newer ++ b :: tail →
      (b.firstInSubSlot || decide (b.totalIters ≤ T)) = true →
      (∀ x ∈ newer, x ∈ cur ∧ ¬ x.totalIters < T) → (b :: tail).find? BlockRecord.firstInSubSlot = some f →
      signagePointStart b T sp = .ok start →
        signagePointFromPrev tip blocks T sp = .ok ⟨y.1, start.2.2, start.2.1, start.1⟩ := by
    intro newer b tail start heq hstop hnewer hfirst hstart
    have hfind : (tip :: older).find? (fun r => r.firstInSubSlot || decide (r.totalIters ≤ T)) = some b := by
      refine find?_eq_some_iff_append.mpr ⟨hstop, newer, tail, heq, fun x hx => ?_⟩
      obtain ⟨hx, hnot⟩ := hnewer x hx
      obtain ⟨hslot, hssi⟩ := h.same x (mem_append_left _ hx)
      have hne := (hchain.recordOk x (by rw [h.split]; simp [hx])).total_ne idx
      rw [hssi] at hne
      simp [(h.later x hx).1]
      omega
    unfold signagePointFromPrev
    rw [backTo_eq_find hknows hchain.linked, hfind]
    change (signagePointStart b T sp >>= _) = _
    rw [hstart]
    rw [backTo_eq_find (hknows.suffix ⟨_, heq.symm⟩) (hchain.linked.suffix ⟨_, heq.symm⟩), hfirst]
    change (assertSome f.finishedChallengeSlotHashes >>= _) = _
    rw [hcs]
    change (lastOf cs >>= _) = _
    rw [lastOf_eq hclast]
    rfl
  have hiters : ∀ b ∈ cur ++ [f], b.totalIters < T →
      signagePointStart b T sp = .ok (T - b.totalIters, b.challengeVdfOutput, b.rewardInfusionNewChallenge) := by
    intro b hb hbT
    have := h.slotStart_le hb
    unfold signagePointStart
    rw [if_pos hbT, uint64_eq_ok.mpr ⟨(cast_sub hbT.le).symm, by omega⟩]
    rfl
  have hff : (f :: before).find? BlockRecord.firstInSubSlot = some f := by rw [find?_cons, h.first]
  unfold slotInfo
  rw [find?_append]
  cases hfind : cur.find? (fun b => b.totalIters < T) with
  | some b =>
    obtain ⟨hbT, newer, rest, heq, hnewer⟩ := find?_eq_some_iff_append.mp hfind
    have hbT' : b.totalIters < T := of_decide_eq_true hbT
    have hb : b ∈ cur := by rw [heq]; simp
    have hwhole : tip :: older = newer ++ b :: (rest ++ f :: before) := by rw [h.split, heq]; simp
    refine hrun hwhole (by simp [hbT'.le]) ?_ ?_ (hiters b (mem_append_left _ hb) hbT')
    · exact fun x hx => ⟨by rw [heq]; simp [hx], by simpa using hnewer x hx⟩
    · refine find?_eq_some_iff_append.mpr ⟨h.first, b :: rest, before, rfl, fun x hx => ?_⟩
      rw [(h.later x (by rw [heq]; exact mem_append_right _ hx)).1]
      rfl
  | none =>
    have hnone : ∀ x ∈ cur, x ∈ cur ∧ ¬ x.totalIters < T := fun x hx => ⟨hx, by simpa using find?_eq_none.mp hfind x hx⟩
    by_cases hfT : f.totalIters < T
    · rw [hrun h.split (by simp [h.first]) hnone hff (hiters f (by simp) hfT), find?_cons_of_pos (by simpa using hfT)]
      rfl
    have hstart : signagePointStart f T sp = .ok (sp, ClassgroupElement.getDefaultElement, y.2) := by
      unfold signagePointStart
      rw [if_neg hfT, hrs]
      change (lastOf rs >>= _) = _
      rw [lastOf_eq hrlast]
      rfl
    rw [hrun h.split (by simp [h.first]) hnone hff hstart, find?_cons_of_neg (by simpa using hfT)]
    rfl

lemma overflowVisit_eq (hslots : foundSubSlots r = .ok ys) (pre : Option BlockRecord) :
    overflowVisit T (found, pre) r =
      if (found ++ ys).length < 2 ∧ r.height > 0
      then .ok (.back (found ++ ys, pre.or (if r.totalIters < T then some r else none)))
      else .ok (.done (found ++ ys, pre.or (if r.totalIters < T then some r else none))) := by
  have hpre : (if pre.isNone ∧ r.totalIters < T then some r else pre) =
      pre.or (if r.totalIters < T then some r else none) := by
    cases pre with
    | none => simp
    | some b => simp
  unfold overflowVisit
  rw [hslots]
  rw [hpre]
  rfl

lemma walk_slot (hlater : ∀ b ∈ cur, b.firstInSubSlot = false ∧ 0 < b.height) (hslots : foundSubSlots f = .ok ys)
    (hfound : found.length < 2) (pre : Option BlockRecord) :
    walkList (overflowVisit T) (found, pre) (cur ++ f :: before) =
      if (found ++ ys).length < 2 ∧ f.height > 0
      then walkList (overflowVisit T) (found ++ ys, pre.or ((cur ++ [f]).find? fun b => b.totalIters < T)) before
      else .ok (found ++ ys, pre.or ((cur ++ [f]).find? fun b => b.totalIters < T)) := by
  induction cur generalizing pre with
  | nil =>
    rw [nil_append, walkList, overflowVisit_eq hslots]
    by_cases hmore : (found ++ ys).length < 2 ∧ f.height > 0
    · rw [if_pos hmore, if_pos hmore]
      by_cases hT : f.totalIters < T <;> simp [hT]
    · rw [if_neg hmore, if_neg hmore]
      by_cases hT : f.totalIters < T <;> simp [hT]
  | cons b cur ih =>
    rw [forall_mem_cons] at hlater
    have hnone : foundSubSlots b = .ok [] := by
      unfold foundSubSlots
      rw [hlater.1.1]
      rfl
    rw [cons_append, walkList, overflowVisit_eq hnone, append_nil, if_pos ⟨hfound, hlater.1.2⟩, ok_bind]
    dsimp only
    rw [ih hlater.2]
    by_cases hT : b.totalIters < T <;> simp [hT]

lemma FirstBlock.foundSubSlots_eq (h : FirstBlock env f before y ys earlier) (hf : f.firstInSubSlot = true) :
    foundSubSlots f = .ok (y :: ys) := by
  obtain ⟨cs, hcs, -⟩ := h.challenge
  obtain ⟨rs, hrs, -⟩ := h.reward
  rw [← h.hashes]
  unfold foundSubSlots slotHashes
  rw [hf, hcs, hrs]
  rfl

lemma signagePointFromOverflow_eq (hchain : ValidChain env (tip :: older)) (hknows : Knows blocks (tip :: older))
    (sp : ℕ) (slotBlocks : List BlockRecord) (hwalk : walkList (overflowVisit T) ([], none) (tip :: older) = .ok (found,
      slotBlocks.find? fun b => b.totalIters < T)) (hlt : ∀ b ∈ slotBlocks, T - b.totalIters < 2 ^ 64) :
    signagePointFromOverflow tip blocks T sp =
      match found[1]? with
      | some y => .ok (slotInfo y slotBlocks T sp)
      | none => .error .indexError := by
  unfold signagePointFromOverflow slotInfo
  rw [walk_eq_walkList hknows hchain.linked, hwalk]
  cases hfind : slotBlocks.find? (fun b => b.totalIters < T) with
  | none =>
    change ((match found[1]? with | some slot => Except.ok (sp, _, slot.2) | none => .error PyError.indexError) >>= _) = _
    cases found[1]? with
    | none => rfl
    | some slot => rfl
  | some b =>
    have hb : b.totalIters < T := by simpa using find?_some hfind
    change ((uint64 ((T : ℤ) - b.totalIters) >>= _) >>= _) = _
    rw [uint64_eq_ok.mpr ⟨(cast_sub hb.le).symm, hlt b (mem_of_find?_eq_some hfind)⟩]
    cases found[1]? with
    | none => rfl
    | some slot => rfl

/-- The hashes of finished sub-slots, those of the last one first. -/
def bundleHashes (env : HeaderEnv) (slots : List EndOfSubSlotBundle) : List (Bytes32 × Bytes32) :=
  slots.reverse.map fun slot => (slot.challengeChain.getHash env, slot.rewardChain.getHash env)

/-- The slot before that of the tip is listed, or as long, or had a block before the signage point. -/
def PreviousSlotKnown (chain : List BlockRecord) (spTotal : ℕ) : Prop :=
  ∃ f before, chain.dropWhile (fun b => !b.firstInSubSlot) = f :: before ∧
    (2 ≤ (slotHashes f).length ∨ ∃ p ∈ before.head?, p.subSlotIters = f.subSlotIters ∨
      ∃ b ∈ before, p.slotStart ≤ b.totalIters ∧ b.totalIters < spTotal)

lemma TipSlot.previousSlotKnown_iff (h : TipSlot tip older cur f before) : PreviousSlotKnown (tip :: older) T ↔
    2 ≤ (slotHashes f).length ∨ ∃ p ∈ before.head?, p.subSlotIters = f.subSlotIters ∨
      ∃ b ∈ before, p.slotStart ≤ b.totalIters ∧ b.totalIters < T := by
  have hdrop : (tip :: older).dropWhile (fun b => !b.firstInSubSlot) = f :: before := by
    rw [h.split, dropWhile_append_of_pos (fun b hb => by simp [(h.later b hb).1])]
    simp [h.first]
  unfold PreviousSlotKnown
  rw [hdrop]
  constructor
  · rintro ⟨_, _, heq, h⟩
    cases heq
    exact h
  · exact fun h => ⟨f, before, rfl, h⟩

lemma SlotsAfter.startsAtLast_last {start ssi : ℕ} (h : SlotsAfter start ssi ys.length earlier before)
    (hT : T = start + sp) :
    StartsAtLast (slotsBack start ssi (y :: ys) ++ earlier) before T ⟨start, y.1, y.2⟩ (slotInfo y [] T sp) := by
  obtain rfl : sp = T - start := by omega
  refine StartsAtLast.of_first (by dsimp only; omega) (fun s hs => ?_) fun b hb => ?_
  · rcases mem_append.mp hs with hs | hs
    · exact (slotsBack_le s hs).trans (sub_le _ _)
    · exact (Nat.le_add_right _ _).trans (h.earlier_le s hs)
  · exact (Nat.le_add_right _ _).trans_lt (h.before_lt b hb)

lemma SlotsAfter.startsAtLast {start ssi : ℕ} {y' : Bytes32 × Bytes32}
    (h : SlotsAfter start ssi (ys.length + 1) earlier before)
    (hT : T + ssi = start + sp) (hsp : sp < ssi) :
    StartsAtLast (slotsBack start ssi (y :: y' :: ys) ++ earlier) before T ⟨start - ssi, y'.1, y'.2⟩
      (slotInfo y' [] T sp) := by
  obtain ⟨hlisted, hearlier, hbefore⟩ := h
  rw [mul_succ] at hlisted hearlier hbefore
  refine (startsAtLast_append (forall_mem_singleton.mpr (by dsimp only; omega)) (forall_mem_nil _)).mpr
    (SlotsAfter.startsAtLast_last ⟨by omega, fun s hs => ?_, fun b hb => ?_⟩ (by omega))
  · have := hearlier s hs
    omega
  · have := hbefore b hb
    omega

lemma RecordOk.overflow_sp (h : RecordOk r) (ho : r.overflow = true) : 61 * r.subSlotIters ≤ 64 * r.sp := by
  have hidx : 61 ≤ r.signagePointIndex := of_decide_eq_true (h.overflow.symm.trans ho)
  have hmul := Nat.mul_le_mul_left (spInterval r.subSlotIters) hidx
  have := h.iters.ssi_eq
  unfold BlockRecord.sp
  omega

lemma overflow_start_iff (hchain : ValidChain env (tip :: older)) (hknows : Knows blocks (tip :: older))
    (hr : Follows tip older 0 r) (ho : r.overflow = true) :
    (∃ info slot, signagePointFromOverflow tip blocks r.spTotal r.sp = .ok info ∧
      StartsAtLast (chainSlots env (tip :: older)) (tip :: older) r.spTotal slot info) ↔
    PreviousSlotKnown (tip :: older) r.spTotal := by
  obtain ⟨cur, f, before, h⟩ := hchain.exists_tipSlot
  have hvalid := h.valid hchain
  obtain ⟨y, ys, earlier, hf⟩ := hvalid.exists_firstBlock h.first
  have hsplit : tip :: older = (cur ++ [f]) ++ before := by simp [h.split]
  have hstart : r.slotStart = tip.slotStart := hr.slotStart
  obtain ⟨hfstart, hfssi⟩ := h.same f (by simp)
  have hssi := hr.same rfl
  have hspLt := hr.ok.sp_lt
  have hT : r.spTotal + f.subSlotIters = f.slotStart + r.sp := by
    have := hr.ok.signagePoint ho
    unfold BlockRecord.spTotal
    rw [ho, if_pos rfl]
    omega
  have hnewer : ∀ b ∈ cur ++ [f], r.spTotal ≤ b.totalIters := fun b hb => by
    have := h.slotStart_le hb
    omega
  have hnone : (cur ++ [f]).find? (fun b => b.totalIters < r.spTotal) = none :=
    find?_eq_none.mpr fun b hb => by simpa using hnewer b hb
  have hwalk : walkList (overflowVisit r.spTotal) ([], none) (cur ++ f :: before) = _ :=
    walk_slot h.later (hf.foundSubSlots_eq h.first) (by decide) none
  rw [← h.split, hnone] at hwalk
  have hstrip : ∀ {slot info}, StartsAtLast (chainSlots env (tip :: older)) (tip :: older) r.spTotal slot info ↔
      StartsAtLast (chainSlots env (f :: before)) before r.spTotal slot info := by
    intro slot info
    rw [h.chainSlots_eq, hsplit]
    exact startsAtLast_append (forall_mem_nil _) hnewer
  simp only [hstrip]
  rw [h.previousSlotKnown_iff, hf.hashes]
  cases ys with
  | cons y' ys =>
    have hrun := signagePointFromOverflow_eq hchain hknows r.sp [] hwalk (forall_mem_nil _)
    rw [hf.slots]
    exact iff_of_true ⟨_, _, hrun, hf.toSlotsAfter.startsAtLast hT (by omega)⟩ (.inl (by simp))
  | nil =>
    cases before with
    | nil =>
      have hheight : f.height = 0 := hvalid.linked
      rw [hheight] at hwalk
      have hrun := signagePointFromOverflow_eq hchain hknows r.sp [] hwalk (forall_mem_nil _)
      refine iff_of_false ?_ (by simp)
      rintro ⟨info, slot, hok, -⟩
      rw [hrun] at hok
      cases hok
    | cons p rest =>
      have hheight := hvalid.linked.2.1
      obtain ⟨n, htail, hext⟩ := hvalid.cons_inv
      obtain ⟨cur', f', before', h'⟩ := htail.exists_tipSlot
      obtain ⟨y', ys', earlier', hf'⟩ := (h'.valid htail).exists_firstBlock h'.first
      rw [if_pos ⟨by simp, by omega⟩, h'.split, walk_slot h'.later (hf'.foundSubSlots_eq h'.first) (by simp)] at hwalk
      have hprev : f.slotStart = p.slotStart + p.subSlotIters := hf.start p rfl
      have hssi' := (htail.recordOk p mem_cons_self).iters.lt
      have hpT : p.slotStart ≤ r.spTotal := by
        have := hext.subSlotIters_le htail (htail.spTotalIters mem_cons_self)
        have := hr.ok.overflow_sp ho
        omega
      rw [signagePointFromOverflow_eq hchain hknows r.sp _ hwalk fun b hb => by have := h'.slotStart_le hb; omega]
      have hsp : r.sp = r.spTotal - p.slotStart ↔ p.subSlotIters = f.subSlotIters := by omega
      have hiff := h'.startsAtLast_iff htail hf' hpT r.sp
      rw [hsp] at hiff
      have hslots : chainSlots env (f :: p :: rest) = [⟨f.slotStart, y.1, y.2⟩] ++ chainSlots env (p :: rest) := by
        rw [chainSlots_cons (cons_ne_nil _ _), hf.hashes]
        rfl
      have hlast : ∀ {slot info}, StartsAtLast (chainSlots env (f :: p :: rest)) (p :: rest) r.spTotal slot info ↔
          StartsAtLast (chainSlots env (p :: rest)) (p :: rest) r.spTotal slot info := by
        intro slot info
        rw [hslots]
        exact startsAtLast_append (forall_mem_singleton.mpr (by dsimp only; omega)) (forall_mem_nil _)
      simpa [hlast] using hiff

lemma signagePointFromPrev_start (hchain : ValidChain env (tip :: older)) (hknows : Knows blocks (tip :: older)) {idx : ℕ}
    (hT : T = tip.slotStart + sp) (hsp : sp = spInterval tip.subSlotIters * idx) (hlt : sp < 2 ^ 64) :
    ∃ info slot, signagePointFromPrev tip blocks T sp = .ok info ∧
      StartsAtLast (chainSlots env (tip :: older)) (tip :: older) T slot info := by
  obtain ⟨cur, f, before, h⟩ := hchain.exists_tipSlot
  obtain ⟨y, ys, earlier, hf⟩ := (h.valid hchain).exists_firstBlock h.first
  obtain ⟨slot, hstart⟩ := (h.startsAtLast_iff (T := T) hchain hf (by omega) sp).mpr (.inl (by omega))
  exact ⟨_, slot, signagePointFromPrev_eq h hchain hknows hf hT hsp hlt, hstart⟩

lemma Placed.ok (h : Placed env chain n r) : RecordOk r := by
  cases h with
  | genesis _ _ hok => exact hok
  | next _ _ _ _ _ hr => exact hr.ok

lemma startsAtLast_firstSlot (hsp : sp = T) : StartsAtLast [firstSlot env] [] T (firstSlot env)
    ⟨env.genesisChallenge, env.genesisChallenge, ClassgroupElement.getDefaultElement, sp⟩ := by
  subst hsp
  exact StartsAtLast.of_first (Nat.zero_le _) (forall_mem_nil _) (forall_mem_nil _)

lemma Follows.same_of_overflow (hr : Follows tip older 1 r) (ho : r.overflow = true) :
    r.subSlotIters = tip.subSlotIters := by
  refine hr.same ?_
  by_contra hends
  obtain ⟨hcan, haligned⟩ := Bool.and_eq_true_iff.mp (Bool.and_eq_true_iff.mp (Bool.of_not_eq_false hends)).2
  exact absurd (hr.noOverflow ho one_pos hcan haligned) (by decide)

lemma Placed.starts_iff {slots : List EndOfSubSlotBundle} (hnew : Placed env chain slots.length r)
    (hknows : Knows blocks chain) :
    (∃ info slot, getSignagePointVdfInfo env slots r.overflow chain.head? blocks r.spTotal r.sp = .ok info ∧
      StartsAtLast (slotsBack r.slotStart r.subSlotIters (bundleHashes env slots) ++ chainSlots env chain) chain
        r.spTotal slot
        info) ↔ (r.overflow = true → slots = [] → PreviousSlotKnown chain r.spTotal) := by
  unfold bundleHashes getSignagePointVdfInfo
  rw [← reverse_eq_nil_iff]
  rw [← length_reverse] at hnew
  generalize slots.reverse = slots at hnew ⊢
  have hok := hnew.ok
  have hspLt := hok.sp_lt
  have hssiLt := hok.iters.lt
  cases ho : r.overflow with
  | false =>
    have hT : r.spTotal = r.slotStart + r.sp := by
      unfold BlockRecord.spTotal
      rw [ho]
      rfl
    refine iff_of_true ?_ (by simp)
    cases slots with
    | cons last rest =>
      refine ⟨_, _, rfl, SlotsAfter.startsAtLast_last ?_ hT⟩
      rw [length_map]
      exact hnew.slotsAfter
    | nil =>
      cases hnew with
      | genesis _ _ _ _ hslot =>
        have hstart : r.slotStart = 0 := hslot
        exact ⟨_, _, rfl, startsAtLast_firstSlot (by omega)⟩
      | next _ _ tip older hchain hr =>
        have hstart : r.slotStart = tip.slotStart := hr.slotStart
        exact signagePointFromPrev_start hchain hknows (by omega) (congrArg (spInterval · * _) (hr.same rfl)) (by omega)
  | true =>
    have hT : r.spTotal + r.subSlotIters = r.slotStart + r.sp := by
      have := hok.signagePoint ho
      unfold BlockRecord.spTotal
      rw [ho, if_pos rfl]
      omega
    rcases slots with _ | ⟨last, _ | ⟨beforeLast, rest⟩⟩
    · cases hnew with
      | genesis _ _ _ _ hslot =>
        have hstart : r.slotStart = 0 := hslot
        omega
      | next _ _ tip older hchain hr =>
        simpa [slotsBack] using overflow_start_iff hchain hknows hr ho
    · refine iff_of_true ?_ (by simp)
      cases hnew with
      | genesis _ _ _ hssi hslot =>
        have hstart : r.slotStart = 2 ^ 27 := hslot
        refine ⟨_, _, rfl, (startsAtLast_append ?_ (forall_mem_nil _)).mpr (startsAtLast_firstSlot (by omega))⟩
        exact forall_mem_singleton.mpr (by dsimp only; omega)
      | next _ _ tip older hchain hr =>
        have hssi := hr.same_of_overflow ho
        have hstart : r.slotStart = tip.slotStart + tip.subSlotIters := hr.slotStart
        have hsp : r.sp = spInterval tip.subSlotIters * _ := congrArg (spInterval · * _) hssi
        obtain ⟨info, slot, hrun, hstarts⟩ := signagePointFromPrev_start (T := r.spTotal) hchain hknows (by omega) hsp
          (by omega)
        refine ⟨info, slot, hrun, (startsAtLast_append ?_ (forall_mem_nil _)).mpr hstarts⟩
        exact forall_mem_singleton.mpr (by dsimp only; omega)
    · refine iff_of_true ⟨_, _, rfl, SlotsAfter.startsAtLast ?_ hT hspLt⟩ (by simp)
      rw [length_map]
      exact hnew.slotsAfter

/-- What validation has checked of a block when it asks where the VDF of the signage point starts. -/
structure Reached (env : HeaderEnv) (blocks : Blocks) (block : HeaderBlock) (difficulty ssi req : ℕ) (ctx : Context)
    (ccSpHash : Bytes32) (iters : Iters) : Prop where
  context : Accepts (validationContext env blocks block.unfinished difficulty ssi false) ctx
  slots : Accepts (checkFinishedSubSlots env blocks ctx block.unfinished false true) ()
  numBlocks : Accepts (checkNumBlocks blocks ctx) ()
  proofOfSpace : Accepts (checkProofOfSpace env blocks ctx block.unfinished) (req, ccSpHash)
  checkedIters : Accepts (checkIters ctx block.unfinished req) iters

/-- A received block on a chain, or a received first block, that has come so far. -/
inductive NewBlock (env : HeaderEnv) (blocks : Blocks) (block : HeaderBlock) (ctx : Context) (iters : Iters) :
    List BlockRecord → Prop where
  | genesis (req : ℕ) (ccSpHash : Bytes32) : blocks.tryBlockRecord block.prevHeaderHash = none →
      Reached env blocks block DIFFICULTY_STARTING SUB_SLOT_ITERS_STARTING req ctx ccSpHash iters →
      NewBlock env blocks block ctx iters []
  | next (tip : BlockRecord) (older : List BlockRecord) (ssi difficulty req : ℕ) (ccSpHash : Bytes32) :
      ValidChain env (tip :: older) → Knows blocks (tip :: older) → block.prevHeaderHash = tip.headerHash →
      getNextSubSlotItersAndDifficulty (0 < block.finishedSubSlots.length) (some tip) blocks = .ok (ssi, difficulty) →
      Reached env blocks block difficulty ssi req ctx ccSpHash iters → NewBlock env blocks block ctx iters (tip :: older)

/-- The VDF of the signage point of a block starts at the last block or slot before it. -/
def StartsRight (env : HeaderEnv) (blocks : Blocks) (chain : List BlockRecord) (block : HeaderBlock) (ctx : Context)
    (iters : Iters) : Prop :=
  ∃ info slot, getSignagePointVdfInfo env block.finishedSubSlots ctx.overflow chain.head? blocks iters.spTotalIters
      iters.spIters = .ok info ∧
    StartsAtLast (slotsBack (iters.totalIters - iters.ipIters) ctx.expectedSubSlotIters
      (bundleHashes env block.finishedSubSlots) ++
      chainSlots env chain) chain iters.spTotalIters slot info

lemma NewBlock.exists_placed {block : HeaderBlock} {ctx : Context} {iters : Iters}
    (h : NewBlock env blocks block ctx iters chain) :
    Knows blocks chain ∧ ∃ r, Placed env chain block.finishedSubSlots.length r ∧ r.overflow = ctx.overflow ∧
      r.spTotal = iters.spTotalIters ∧ r.sp = iters.spIters ∧ r.slotStart = iters.totalIters - iters.ipIters ∧
      r.subSlotIters = ctx.expectedSubSlotIters := by
  cases h with
  | genesis req ccSpHash hprev hreached =>
    obtain ⟨-, rfl⟩ := accepts_context_genesis hprev hreached.context
    obtain ⟨hok, htotal, hlt, hsp, hiters⟩ := checkIters_genesis hreached.checkedIters
    let r := headerBlockToSubBlockRecord env req block (2 ^ 27) (61 ≤ block.rewardChainBlock.signagePointIndex) 0 none
    obtain ⟨hrecordOk, hspTotal⟩ : RecordOk r ∧ r.spTotal = iters.spTotalIters := record_ok hok htotal hlt hsp
    refine ⟨⟨by simp, by simp, by simp⟩, r, .genesis _ _ hrecordOk rfl (record_slotStart htotal), rfl, hspTotal, ?_, ?_,
      rfl⟩ <;>
      rw [hiters] <;> rfl
  | next tip older ssi difficulty req ccSpHash hchain hknows hprev hnext hreached =>
    have htip : RecordOk tip := hchain.recordOk tip mem_cons_self
    have hssi : ssi < 2 ^ 64 := getNextSubSlotItersAndDifficulty_lt htip.iters.lt hnext
    have hprev' : block.unfinished.prevHeaderHash = tip.headerHash := hprev
    obtain ⟨-, hheight, rfl⟩ := (accepts_context_iff hknows hchain.linked hprev').mp hreached.context
    have hiters := (accepts_checkIters htip hssi).mp hreached.checkedIters
    let r := headerBlockToSubBlockRecord env req block ssi (61 ≤ block.rewardChainBlock.signagePointIndex) 0 none
    obtain ⟨hrecordOk, hspTotal⟩ : RecordOk r ∧ r.spTotal = iters.spTotalIters :=
      record_ok hiters.ok hiters.total_eq hiters.total_lt hiters.spTotalIters
    refine ⟨hknows, r, .next _ _ _ _ hchain ⟨hrecordOk, record_slotStart hiters.total_eq, fun hends => ?_, ?_⟩, rfl,
      hspTotal,
      hiters.spIters.symm, ?_, rfl⟩
    · exact (Prod.mk.inj (Except.ok.inj (hnext.symm.trans (getNext_of_not_ends hchain hknows hheight hends)))).1
    · exact fun ho => hiters.noOverflow (of_decide_eq_true ho)
    · rw [hiters.totalIters, hiters.ipIters]
      rfl

namespace Sample

/-- An overflow block in the slot of the tip, for a signage point in the slot before, whose challenge is given. -/
def lateBlock (tip : BlockRecord) (challenge : Bytes32) (difficulty : ℕ) : HeaderBlock :=
  header tip.headerHash zero32 []
    { farmedRewardBlock tip none tip.subSlotIters difficulty with
      totalIters := tip.slotStart + infusionPoint tip.subSlotIters 61 difficulty
      signagePointIndex := 61
      posSsCcChallengeHash := challenge } none

def lateIters (tip : BlockRecord) (difficulty : ℕ) : Iters where
  spIters := spInterval tip.subSlotIters * 61
  ipIters := infusionPoint tip.subSlotIters 61 difficulty
  totalIters := tip.slotStart + infusionPoint tip.subSlotIters 61 difficulty
  spTotalIters := tip.slotStart + spInterval tip.subSlotIters * 61 - tip.subSlotIters

variable {prev : BlockRecord} {c c' : Bytes32} {d : ℕ}

lemma finishedSlotHashes_two (hknows : Knows blocks (tip :: prev :: older)) (hlinked : Linked (tip :: prev :: older))
    (htip : tip.finishedChallengeSlotHashes = some [c]) (hprev : prev.finishedChallengeSlotHashes = some [c']) :
    finishedSlotHashes blocks 2 tip = .ok [c, c'] := by
  have hheight : tip.height ≠ 0 := by
    have := hlinked.2.1
    omega
  unfold finishedSlotHashes
  rw [walk_eq_walkList hknows hlinked]
  by_cases hzero : prev.height = 0
  · simp [walkList, reversedSlotHashes, BlockRecord.firstInSubSlot, htip, hprev, hheight, hzero, assertSome, pyAssert]
  · cases older with
    | nil => exact absurd hlinked.2.2 hzero
    | cons b older =>
      simp [walkList, reversedSlotHashes, BlockRecord.firstInSubSlot, htip, hprev, hheight, hzero, assertSome]

/-- Nothing that is checked first compares the block with the tip, which comes later in the slot. -/
lemma lateBlock_new (hchain : ValidChain positiveEnv (tip :: prev :: older)) (hknows : Knows blocks (tip :: prev :: older))
    (htip : tip.finishedChallengeSlotHashes = some [c]) (hprev : prev.finishedChallengeSlotHashes = some [c'])
    (hd : difficulty (tip :: prev :: older) = d) (hiters : ItersOk tip.subSlotIters 61 d)
    (hheight : tip.height + 1 < 2 ^ 32)
    (hslot : tip.subSlotIters ≤ tip.slotStart) (hlt : tip.slotStart + tip.subSlotIters < 2 ^ 128) :
    NewBlock positiveEnv blocks (lateBlock tip c' d) (chainContext tip (prev :: older) true 0 d tip.subSlotIters)
      (lateIters tip d) (tip :: prev :: older) := by
  have hlinked := hchain.linked
  have hfirst : tip.firstInSubSlot = true := by
    rw [BlockRecord.firstInSubSlot, htip]
    rfl
  have hnext := getNext_of_not_ends (n := 0) hchain hknows hheight rfl
  rw [hd] at hnext
  have hip := hiters.infusionPoint_lt
  have hssi := hiters.ssi_eq
  have hoverflow : 61 ≤ (lateBlock tip c' d).unfinished.rewardChainBlock.signagePointIndex := show 61 ≤ 61 from le_rfl
  refine .next _ _ _ d d spHash hchain hknows rfl hnext ⟨?_, accepts_pure.mpr rfl, ?_, ?_, ?_⟩
  · exact (accepts_context_iff hknows hlinked rfl).mpr ⟨show 61 < 64 by decide, hheight, rfl⟩
  · refine (accepts_checkNumBlocks hknows hlinked ⟨tip, mem_cons_self, hfirst⟩ rfl).mpr fun _ => ?_
    rw [slotCount, if_pos hfirst]
    decide
  · refine accepts_checkProofOfSpace ?_ rfl rfl hiters
    have hrecord : blocks.blockRecord (lateBlock tip c' d).unfinished.prevHeaderHash = .ok tip :=
      hknows.blockRecord mem_cons_self
    change (do let curr ← blocks.blockRecord (lateBlock tip c' d).unfinished.prevHeaderHash; _) = _
    rw [hrecord, ok_bind]
    change (do let hashes ← finishedSlotHashes blocks 2 tip; _) = _
    rw [finishedSlotHashes_two hknows hlinked htip hprev]
    rfl
  · refine (accepts_checkIters (hchain.recordOk tip mem_cons_self) hiters.lt).mpr
      ⟨rfl, rfl, hiters, fun _ h => absurd h (lt_irrefl 0), rfl, rfl, rfl, rfl, ?_, ?_, ?_⟩
    · change tip.slotStart + infusionPoint tip.subSlotIters 61 d < 2 ^ 128
      omega
    · rw [if_pos hoverflow]
      change ((tip.slotStart + spInterval tip.subSlotIters * 61 - tip.subSlotIters : ℕ) : ℤ) =
        tip.slotStart + spInterval tip.subSlotIters * (61 : ℕ) - tip.subSlotIters
      omega
    · change tip.slotStart + spInterval tip.subSlotIters * 61 - tip.subSlotIters < 2 ^ 128
      omega

end Sample

theorem signage_point_start_iff (env : HeaderEnv) (blocks : Blocks) (chain : List BlockRecord) (block : HeaderBlock)
    (ctx : Context) (iters : Iters) (hnew : NewBlock env blocks block ctx iters chain) :
    StartsRight env blocks chain block ctx iters ↔
      (ctx.overflow = true → block.finishedSubSlots = [] → PreviousSlotKnown chain iters.spTotalIters) := by
  obtain ⟨hknows, r, hplaced, hoverflow, hspTotal, hsp, hstart, hssi⟩ := hnew.exists_placed
  unfold StartsRight
  rw [← hoverflow, ← hspTotal, ← hsp, ← hstart, ← hssi]
  exact hplaced.starts_iff hknows

theorem signage_point_start_iff_farmed : ∃ tip prev older c, Sample.farmedChain 100 = (tip, prev :: older) ∧
    NewBlock Sample.positiveEnv (Sample.blocksOf (tip :: prev :: older)) (Sample.lateBlock tip c 7)
      (chainContext tip (prev :: older) true 0 7 tip.subSlotIters) (Sample.lateIters tip 7) (tip :: prev :: older) ∧
    StartsRight Sample.positiveEnv (Sample.blocksOf (tip :: prev :: older)) (tip :: prev :: older)
      (Sample.lateBlock tip c 7)
      (chainContext tip (prev :: older) true 0 7 tip.subSlotIters) (Sample.lateIters tip 7) := by
  obtain ⟨tip, prev, older, hchain, hfarmed, hheight⟩ : ∃ tip prev older, Sample.farmedChain 100 = (tip, prev :: older) ∧
    Sample.Farmed tip (prev :: older) ∧ tip.height = 100 :=
      ⟨_, _, _, rfl, Sample.farmed_farmedChain (n := 99 + 1) (by decide)⟩
  have hr := hfarmed.regular_tip
  have hr' := hfarmed.regular prev (by simp)
  obtain ⟨c, -, hslots, -⟩ := hr.slots
  obtain ⟨c', -, hslots', -⟩ := hr'.slots
  have hstart := hr.slotStart
  have hssi := hr.subSlotIters
  have hd : difficulty (tip :: prev :: older) = 7 := by
    have := hfarmed.valid.linked.2.1
    change tip.weight - prev.weight = 7
    rw [hr.weight, hr'.weight]
    omega
  have hiters : ItersOk tip.subSlotIters 61 7 := by
    rw [hssi]
    exact ⟨by decide, by decide, by decide, by decide, by decide⟩
  have hnew := Sample.lateBlock_new hfarmed.valid hfarmed.knows hslots hslots' hd hiters (by omega) (by omega) (by omega)
  refine ⟨tip, prev, older, c', hchain, hnew, (signage_point_start_iff _ _ _ _ _ _ hnew).mpr fun _ _ => ?_⟩
  refine ⟨tip, prev :: older, ?_, .inr ⟨prev, rfl, .inl (hr'.subSlotIters.trans hssi.symm)⟩⟩
  rw [dropWhile_cons_of_neg]
  simp [BlockRecord.firstInSubSlot, hslots]

/-- The slot before is shorter, and its block comes after the signage point. -/
theorem signage_point_start_unknown : ∃ tip prev older c, Sample.epochChain = tip :: prev :: older ∧
    NewBlock Sample.positiveEnv (Sample.blocksOf (tip :: prev :: older)) (Sample.lateBlock tip c 2)
      (chainContext tip (prev :: older) true 0 2 tip.subSlotIters) (Sample.lateIters tip 2) (tip :: prev :: older) ∧
    ¬StartsRight Sample.positiveEnv (Sample.blocksOf (tip :: prev :: older)) (tip :: prev :: older)
      (Sample.lateBlock tip c 2)
      (chainContext tip (prev :: older) true 0 2 tip.subSlotIters) (Sample.lateIters tip 2) := by
  have hknows := Sample.knows_epochChain
  have hvalid := validChain_of_accepted Sample.epochChain_accepted
  obtain ⟨prev, older, hchain, hfarmed, hheight⟩ := Sample.exists_epochChain
  have hr := hfarmed.regular_tip
  obtain ⟨c', -, hslots', -⟩ := hr.slots
  have hslots : ∃ c c', (Sample.farmNext prev older (3 * 2 ^ 27) 2).finishedChallengeSlotHashes = some [c] ∧
    (Sample.farmNext prev older (3 * 2 ^ 27) 2).finishedRewardSlotHashes = some [c'] := ⟨_, _, rfl, rfl⟩
  have hweight : (Sample.farmNext prev older (3 * 2 ^ 27) 2).weight = prev.weight + 2 :=
    Nat.mod_eq_of_lt (by rw [hr.weight]; omega)
  have hstart : (Sample.farmNext prev older (3 * 2 ^ 27) 2).slotStart = prev.slotStart + prev.subSlotIters :=
    Nat.add_sub_cancel _ _
  have hssi : (Sample.farmNext prev older (3 * 2 ^ 27) 2).subSlotIters = 3 * 2 ^ 27 := rfl
  generalize Sample.farmNext prev older (3 * 2 ^ 27) 2 = tip at hchain hslots hweight hstart hssi
  rw [hchain] at hknows hvalid
  obtain ⟨c, c'', hslots, hreward⟩ := hslots
  rw [hr.slotStart, hr.subSlotIters, hheight] at hstart
  have hnext := hvalid.linked.2.1
  have hd : difficulty (tip :: prev :: older) = 2 := by
    change tip.weight - prev.weight = 2
    omega
  have hiters : ItersOk tip.subSlotIters 61 2 := by
    rw [hssi]
    exact ⟨by decide, by decide, by decide, by decide, by decide⟩
  have hnew := Sample.lateBlock_new hvalid hknows hslots hslots' hd hiters (by omega) (by omega) (by omega)
  refine ⟨tip, prev, older, c', hchain, hnew, fun hright => ?_⟩
  obtain ⟨-, r, hplaced, hoverflow, hspTotal, hsp, hslotStart, hlong⟩ := hnew.exists_placed
  unfold StartsRight at hright
  rw [← hoverflow, ← hspTotal, ← hsp, ← hslotStart, ← hlong, hplaced.starts_iff hknows] at hright
  obtain ⟨f, before, hdrop, hknown⟩ := hright hoverflow rfl
  rw [dropWhile_cons_of_neg (by simp [BlockRecord.firstInSubSlot, hslots])] at hdrop
  cases hdrop
  rcases hknown with hlen | ⟨p, hp, hsame | ⟨b, hb, hle, hlt⟩⟩
  · simp [slotHashes, hslots, hreward] at hlen
  · cases hp
    rw [hr.subSlotIters, hssi] at hsame
    cases hsame
  · cases hp
    have htotal := (hfarmed.regular b hb).totalIters
    have hle' := hvalid.linked.tail.height_le b hb
    have hspT : r.spTotal = 2 ^ 27 * 4608 - 9 * 2 ^ 21 := by
      rw [hspTotal]
      change tip.slotStart + spInterval tip.subSlotIters * 61 - tip.subSlotIters = _
      rw [hssi, hstart]
      rfl
    rw [hr.slotStart, hheight] at hle
    split_ifs at htotal <;> omega

end SectorChain.Header
