import SectorChain.Proofs.Header.AcceptedChains

/-!
# Deficits

The deficit counts down after a challenge block.
-/

namespace SectorChain.Header

open Lib List

inductive DeficitsComputed : List (BlockRecord × ℕ) → Prop where
  | genesis (r : BlockRecord) (n : ℕ) : r.height = 0 → calculateDeficit 0 none r.overflow n = .ok r.deficit →
      DeficitsComputed [(r, n)]
  | block (r : BlockRecord) (n : ℕ) (tip : BlockRecord × ℕ) (older : List (BlockRecord × ℕ)) :
      DeficitsComputed (tip :: older) → r.height = tip.1.height + 1 →
      calculateDeficit r.height (some tip.1) r.overflow n = .ok r.deficit → DeficitsComputed ((r, n) :: tip :: older)

/-- The rules for the deficits of a chain. Of two challenge blocks, `r` is the later one. -/
structure DeficitRules (chain : List (BlockRecord × ℕ)) : Prop where
  le : ∀ e ∈ chain, e.1.deficit ≤ MIN_BLOCKS_PER_CHALLENGE_BLOCK
  overflow : ∀ e ∈ chain, e.1.deficit = MIN_BLOCKS_PER_CHALLENGE_BLOCK → e.1.overflow = true
  slot : ∀ newer r n between r' older, chain = newer ++ (r, n) :: between ++ r' :: older → r.isChallengeBlock = true →
    r'.1.isChallengeBlock = true → ∃ e ∈ (r, n) :: between, 0 < e.2
  spacing : ∀ newer r n between r' older, chain = newer ++ (r, n) :: between ++ r' :: older → r.isChallengeBlock = true →
    r'.1.isChallengeBlock = true → MIN_BLOCKS_PER_CHALLENGE_BLOCK - 1 ≤ between.length

variable {chain older newer : List (BlockRecord × ℕ)} {r : BlockRecord} {n : ℕ} {tip : BlockRecord × ℕ}

lemma nextDeficit_eq_max {deficit : ℕ} {overflow : Bool} (h : nextDeficit deficit overflow n = 16) (hle : deficit ≤ 16) :
    overflow = true := by
  cases overflow with
  | true => rfl
  | false =>
    simp only [nextDeficit, Bool.false_eq_true, false_and, if_false] at h
    split_ifs at h <;> omega

namespace DeficitsComputed

lemma deficit_le (h : DeficitsComputed chain) : ∀ e ∈ chain, e.1.deficit ≤ 16 := by
  induction h with
  | genesis r n _ hdeficit =>
    refine forall_mem_singleton.mpr ?_
    rw [← Except.ok.inj hdeficit]
    decide
  | block r n tip older htail hheight hdeficit ih =>
    refine forall_mem_cons.mpr ⟨?_, ih⟩
    have htip := ih tip mem_cons_self
    rw [calculateDeficit_eq htip (by omega)] at hdeficit
    rw [← Except.ok.inj hdeficit]
    exact nextDeficit_le htip _ _

lemma tail (h : DeficitsComputed ((r, n) :: tip :: older)) :
    DeficitsComputed (tip :: older) ∧ r.deficit = nextDeficit tip.1.deficit r.overflow n := by
  cases h with
  | block _ _ _ _ htail hheight hdeficit =>
    rw [calculateDeficit_eq (htail.deficit_le tip mem_cons_self) (by omega)] at hdeficit
    exact ⟨htail, (Except.ok.inj hdeficit).symm⟩

lemma suffix (h : DeficitsComputed (newer ++ tip :: older)) : DeficitsComputed (tip :: older) := by
  induction newer with
  | nil => exact h
  | cons e newer ih =>
    refine ih ?_
    cases newer with
    | nil => exact h.tail.1
    | cons e' newer => exact h.tail.1

lemma overflow_of_max (h : DeficitsComputed chain) : ∀ e ∈ chain, e.1.deficit = 16 → e.1.overflow = true := by
  intro e he hmax
  obtain ⟨newer, older, rfl⟩ := append_of_mem he
  cases older with
  | nil =>
    cases h.suffix with
    | genesis _ _ _ hdeficit =>
      rw [← Except.ok.inj hdeficit] at hmax
      cases hmax
  | cons tip older =>
    obtain ⟨htail, hdeficit⟩ := h.suffix.tail
    exact nextDeficit_eq_max (hdeficit.symm.trans hmax) (htail.deficit_le tip mem_cons_self)

lemma countdown (h : DeficitsComputed (newer ++ tip :: older)) (htip : tip.1.deficit = 15)
    (hfew : newer.length ≤ 15 ∨ ∀ e ∈ newer, e.2 = 0) :
    ((newer ++ tip :: older).head (by simp)).1.deficit = 15 - newer.length := by
  induction newer with
  | nil => exact htip
  | cons e newer ih =>
    obtain ⟨r, n⟩ := e
    obtain ⟨e', rest, hrest⟩ : ∃ e' rest, newer ++ tip :: older = e' :: rest := exists_cons_of_ne_nil (by simp)
    rw [cons_append] at h
    rw [length_cons, forall_mem_cons] at hfew
    have hall : newer.length ≤ 15 ∨ ∀ e ∈ newer, e.2 = 0 := hfew.imp (fun hlen => by omega) And.right
    simp only [hrest] at h ih
    obtain ⟨htail, hdeficit⟩ := h.tail
    have hprev : e'.1.deficit = 15 - newer.length := ih htail hall
    change r.deficit = 15 - (newer.length + 1)
    rw [hdeficit, nextDeficit]
    split_ifs <;> omega

end DeficitsComputed

lemma isChallengeBlock_iff : r.isChallengeBlock = true ↔ r.deficit = 15 := by
  simp [BlockRecord.isChallengeBlock]

/-- A chain with computed deficits obeys the rules. -/
theorem computed_deficits_obey (chain : List (BlockRecord × ℕ)) (h : DeficitsComputed chain) : DeficitRules chain where
  le := h.deficit_le
  overflow := h.overflow_of_max
  slot newer r n between r' older hsplit hr hr' := by
    subst hsplit
    rw [append_assoc] at h
    by_contra hnone
    push Not at hnone
    have hcomputed : DeficitsComputed ((r, n) :: between ++ r' :: older) := h.suffix
    have hcount := hcomputed.countdown (isChallengeBlock_iff.mp hr') (Or.inr fun e he => Nat.le_zero.mp (hnone e he))
    change r.deficit = 15 - (between.length + 1) at hcount
    rw [isChallengeBlock_iff.mp hr] at hcount
    omega
  spacing newer r n between r' older hsplit hr hr' := by
    subst hsplit
    rw [append_assoc] at h
    by_contra hfew
    have hcomputed : DeficitsComputed ((r, n) :: between ++ r' :: older) := h.suffix
    have hcount := hcomputed.countdown (isChallengeBlock_iff.mp hr')
      (Or.inl (by simp only [MIN_BLOCKS_PER_CHALLENGE_BLOCK, length_cons] at *; omega))
    change r.deficit = 15 - (between.length + 1) at hcount
    rw [isChallengeBlock_iff.mp hr] at hcount
    omega

lemma Sample.deficitsComputed {chain : List BlockRecord} (hlinked : Linked chain) (hregular : ∀ r ∈ chain, Regular r) :
    DeficitsComputed (chain.map fun r => (r, 1)) := by
  induction chain with
  | nil => exact hlinked.elim
  | cons r chain ih =>
    have hr := hregular r mem_cons_self
    cases chain with
    | nil =>
      have hzero : r.height = 0 := hlinked
      refine .genesis r 1 hzero ?_
      rw [hr.deficit, hzero]
      rfl
    | cons tip older =>
      have htip := hregular tip (by simp)
      have hheight := hlinked.2.1
      refine .block r 1 (tip, 1) _ (ih hlinked.tail fun r hr => hregular r (mem_cons_of_mem _ hr)) hheight ?_
      rw [calculateDeficit_eq (by rw [htip.deficit]; omega) (by omega), hr.overflow, hr.deficit, htip.deficit, nextDeficit]
      simp only [Bool.false_eq_true, false_and, if_false, one_ne_zero, hheight, Except.ok.injEq]
      split_ifs <;> omega

theorem computed_deficits_obey_epoch : let (tip, older) := Sample.farmedChain 4607
    DeficitRules ((tip :: older).map fun r => (r, 1)) := by
  obtain ⟨hfarmed, -⟩ := Sample.farmed_farmedChain (n := 4607) le_rfl
  exact computed_deficits_obey _ (Sample.deficitsComputed hfarmed.valid.linked hfarmed.regular)

end SectorChain.Header
