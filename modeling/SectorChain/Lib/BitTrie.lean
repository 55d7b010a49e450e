import Mathlib.Data.Set.Subsingleton
import Mathlib.Order.BooleanAlgebra.Set

/-!
# Canonical binary tries

The trie of a set is unique.
-/

namespace SectorChain.Lib

inductive BitTrie (α : Type*) where
  | empty
  | leaf (a : α)
  | node (l r : BitTrie α)
deriving DecidableEq, Repr

namespace BitTrie

variable {α : Type*}
variable {S : Set α} {b : Bool} {d : ℕ} {l r t : BitTrie α}

def isLeaf : BitTrie α → Bool
  | leaf _ => true
  | _ => false

section Canonical

variable (bit : α → ℕ → Bool)

/-- The keys of `S` whose bit at position `d` is `b`. -/
def side (S : Set α) (d : ℕ) (b : Bool) : Set α := {x ∈ S | bit x d = b}

/-- `Canon bit d t S`: at depth `d`, the trie of the set `S` is `t`. -/
inductive Canon : ℕ → BitTrie α → Set α → Prop
  | empty (d : ℕ) : Canon d .empty ∅
  | leaf (d : ℕ) (a : α) : Canon d (.leaf a) {a}
  | node {d : ℕ} {l r : BitTrie α} {S : Set α} (hS : S.Nontrivial)
      (hl : Canon (d + 1) l (side bit S d false)) (hr : Canon (d + 1) r (side bit S d true)) :
      Canon d (.node l r) S

variable {bit}

lemma mem_side {x : α} : x ∈ side bit S d b ↔ x ∈ S ∧ bit x d = b := Iff.rfl

lemma Canon.set_eq_empty (h : Canon bit d .empty S) : S = ∅ := by
  cases h
  rfl

lemma Canon.set_eq_singleton {a : α} (h : Canon bit d (.leaf a) S) : S = {a} := by
  cases h
  rfl

lemma Canon.nontrivial (h : Canon bit d (.node l r) S) : S.Nontrivial := by
  cases h with
  | node hS _ _ => exact hS

lemma Canon.left {d : ℕ} {l r : BitTrie α} {S : Set α} (h : Canon bit d (.node l r) S) :
    Canon bit (d + 1) l (side bit S d false) := by
  cases h with
  | node _ hl _ => exact hl

lemma Canon.right {d : ℕ} {l r : BitTrie α} {S : Set α} (h : Canon bit d (.node l r) S) :
    Canon bit (d + 1) r (side bit S d true) := by
  cases h with
  | node _ _ hr => exact hr

/-- A set has one trie. -/
theorem Canon.unique {t' : BitTrie α} (h : Canon bit d t S) (h' : Canon bit d t' S) : t = t' := by
  induction h generalizing t' with
  | empty d =>
    cases t' with
    | empty => rfl
    | leaf b => exact absurd h'.set_eq_singleton.symm (Set.singleton_ne_empty b)
    | node l r => exact absurd h'.nontrivial Set.not_nontrivial_empty
  | leaf d a =>
    cases t' with
    | empty => exact absurd h'.set_eq_empty (Set.singleton_ne_empty a)
    | leaf b => rw [Set.singleton_eq_singleton_iff.mp h'.set_eq_singleton]
    | node l r => exact absurd h'.nontrivial Set.not_nontrivial_singleton
  | node hS hl hr ihl ihr =>
    cases t' with
    | empty => exact absurd h'.set_eq_empty hS.nonempty.ne_empty
    | leaf b => exact absurd (h'.set_eq_singleton ▸ hS) Set.not_nontrivial_singleton
    | node l' r' => rw [ihl h'.left, ihr h'.right]

/-- The trie over two subtries, where a lone key moves up to be the leaf itself. -/
def join : BitTrie α → BitTrie α → BitTrie α
  | .empty, .empty => .empty
  | .empty, .leaf a => .leaf a
  | .leaf a, .empty => .leaf a
  | l, r => .node l r

lemma join_eq_right (hl : l = .empty) (hr : r.isLeaf = true) : join l r = r := by
  cases r with
  | leaf a => rw [hl, join]
  | _ => exact absurd hr Bool.false_ne_true

lemma join_eq_left (hr : r = .empty) (hl : l.isLeaf = true) : join l r = l := by
  cases l with
  | leaf a => rw [hr, join]
  | _ => exact absurd hl Bool.false_ne_true

lemma eq_side_union (bit : α → ℕ → Bool) (S : Set α) (d : ℕ) : S = side bit S d false ∪ side bit S d true := by
  ext x
  cases h : bit x d <;> simp [side, h]

lemma side_subset (S : Set α) (d : ℕ) (b : Bool) : side bit S d b ⊆ S := fun _ hx => hx.1

lemma canon_join (hl : Canon bit (d + 1) l (side bit S d false))
    (hr : Canon bit (d + 1) r (side bit S d true)) : Canon bit d (join l r) S := by
  have hS := eq_side_union bit S d
  cases l with
  | empty =>
    rw [hl.set_eq_empty, Set.empty_union] at hS
    cases r with
    | empty =>
      rw [hr.set_eq_empty] at hS
      exact hS ▸ .empty d
    | leaf a =>
      rw [hr.set_eq_singleton] at hS
      exact hS ▸ .leaf d a
    | node r₀ r₁ => exact .node (hr.nontrivial.mono (side_subset S d true)) hl hr
  | leaf a =>
    cases r with
    | empty =>
      rw [hl.set_eq_singleton, hr.set_eq_empty, Set.union_empty] at hS
      exact hS ▸ .leaf d a
    | leaf b =>
      have ha : a ∈ side bit S d false := hl.set_eq_singleton ▸ Set.mem_singleton a
      have hb : b ∈ side bit S d true := hr.set_eq_singleton ▸ Set.mem_singleton b
      refine .node ⟨a, ha.1, b, hb.1, ?_⟩ hl hr
      rintro rfl
      exact Bool.false_ne_true (ha.2.symm.trans hb.2)
    | node r₀ r₁ => exact .node (hr.nontrivial.mono (side_subset S d true)) hl hr
  | node l₀ l₁ => exact .node (hl.nontrivial.mono (side_subset S d false)) hl hr

lemma Canon.join_eq_node (h : Canon bit d (.node l r) S) : join l r = .node l r :=
  (canon_join h.left h.right).unique h

lemma side_insert_same (bit : α → ℕ → Bool) (S : Set α) (v : α) (d : ℕ) :
    side bit (Insert.insert v S) d (bit v d) = Insert.insert v (side bit S d (bit v d)) := by
  ext x
  constructor
  · rintro ⟨rfl | hx, hb⟩
    · exact .inl rfl
    · exact .inr ⟨hx, hb⟩
  · rintro (rfl | ⟨hx, hb⟩)
    · exact ⟨.inl rfl, rfl⟩
    · exact ⟨.inr hx, hb⟩

lemma side_insert_other (S : Set α) (v : α) (d : ℕ) (hb : bit v d ≠ b) :
    side bit (Insert.insert v S) d b = side bit S d b := by
  ext x
  constructor
  · rintro ⟨rfl | hx, h⟩
    · exact absurd h hb
    · exact ⟨hx, h⟩
  · rintro ⟨hx, h⟩
    exact ⟨.inr hx, h⟩

lemma side_diff (S : Set α) (v : α) (d : ℕ) (b : Bool) : side bit (S \ {v}) d b = side bit S d b \ {v} := by
  ext x
  simp only [mem_side, Set.mem_sdiff, Set.mem_singleton_iff]
  tauto

lemma side_diff_other (S : Set α) (v : α) (d : ℕ) (hb : bit v d ≠ b) : side bit (S \ {v}) d b = side bit S d b := by
  rw [side_diff]
  refine Set.sdiff_singleton_eq_self ?_
  rintro ⟨_, h⟩
  exact hb h

/-- The trie of two keys below depth `d`, looking at `n` more bits. -/
def pair (bit : α → ℕ → Bool) : ℕ → α → α → ℕ → BitTrie α
  | 0, _, _, _ => .empty
  | n + 1, a, b, d =>
    match bit a d, bit b d with
    | false, true => .node (.leaf a) (.leaf b)
    | true, false => .node (.leaf b) (.leaf a)
    | false, false => .node (pair bit n a b (d + 1)) .empty
    | true, true => .node .empty (pair bit n a b (d + 1))

lemma canon_pair (n : ℕ) (a b : α) (d : ℕ) (h : ∃ i, d ≤ i ∧ i < d + n ∧ bit a i ≠ bit b i) :
    Canon bit d (pair bit n a b d) {a, b} := by
  induction n generalizing d with
  | zero =>
    omega
  | succ n ih =>
    have hne : a ≠ b := by
      rintro rfl
      obtain ⟨i, _, _, hi⟩ := h
      exact hi rfl
    have hnt : ({a, b} : Set α).Nontrivial := Set.nontrivial_pair hne
    have hdeep : bit a d = bit b d → ∃ i, d + 1 ≤ i ∧ i < d + 1 + n ∧ bit a i ≠ bit b i := by
      intro heq
      obtain ⟨i, hd, hi, hbit⟩ := h
      have hid : i ≠ d := by
        rintro rfl
        exact hbit heq
      exact ⟨i, by omega, by omega, hbit⟩
    -- the two keys fall on the sides their own bit names
    have hmem : ∀ x c, x ∈ side bit {a, b} d c ↔ (x = a ∨ x = b) ∧ bit x d = c := fun x c => Iff.rfl
    cases ha : bit a d <;> cases hb : bit b d <;> simp only [pair, ha, hb]
    · have h0 : side bit {a, b} d false = {a, b} := by ext x; grind
      have h1 : side bit {a, b} d true = ∅ := by ext x; grind
      exact .node hnt (by rw [h0]; exact ih (d + 1) (hdeep (ha.trans hb.symm)))
        (by rw [h1]; exact .empty (d + 1))
    · have h0 : side bit {a, b} d false = {a} := by ext x; grind
      have h1 : side bit {a, b} d true = {b} := by ext x; grind
      exact .node hnt (by rw [h0]; exact .leaf (d + 1) a) (by rw [h1]; exact .leaf (d + 1) b)
    · have h0 : side bit {a, b} d false = {b} := by ext x; grind
      have h1 : side bit {a, b} d true = {a} := by ext x; grind
      exact .node hnt (by rw [h0]; exact .leaf (d + 1) b) (by rw [h1]; exact .leaf (d + 1) a)
    · have h0 : side bit {a, b} d false = ∅ := by ext x; grind
      have h1 : side bit {a, b} d true = {a, b} := by ext x; grind
      exact .node hnt (by rw [h0]; exact .empty (d + 1))
        (by rw [h1]; exact ih (d + 1) (hdeep (ha.trans hb.symm)))

lemma pair_comm (bit : α → ℕ → Bool) (n : ℕ) (a b : α) (d : ℕ) : pair bit n a b d = pair bit n b a d := by
  induction n generalizing d with
  | zero => rfl
  | succ n ih =>
    rw [pair, pair, ih]
    cases bit a d <;> cases bit b d <;> rfl

end Canonical

section Operations

variable [DecidableEq α] (bit : α → ℕ → Bool) (width : ℕ)

/-- Insertion at depth `d` of a trie over keys of `width` bits. -/
def insert (v : α) : ℕ → BitTrie α → BitTrie α
  | _, .empty => .leaf v
  | d, .leaf a => if v = a then .leaf a else pair bit (width - d) a v d
  | d, .node l r =>
    if bit v d then .node l (insert v (d + 1) r) else .node (insert v (d + 1) l) r

def erase (v : α) : ℕ → BitTrie α → BitTrie α
  | _, .empty => .empty
  | _, .leaf a => if v = a then .empty else .leaf a
  | d, .node l r =>
    if bit v d then join l (erase v (d + 1) r) else join (erase v (d + 1) l) r

def mem (v : α) : ℕ → BitTrie α → Bool
  | _, .empty => false
  | _, .leaf a => v = a
  | d, .node l r => if bit v d then mem v (d + 1) r else mem v (d + 1) l

variable {bit} {width}

theorem canon_insert (hsep : ∀ a b, (∀ i, i < width → bit a i = bit b i) → a = b) (v : α) (h : Canon bit d t S)
    (hagree : ∀ x ∈ S, ∀ i, i < d → bit x i = bit v i) : Canon bit d (insert bit width v d t) (Insert.insert v S) := by
  induction h with
  | empty d =>
    rw [insert_empty_eq]
    exact .leaf d v
  | leaf d a =>
    rw [insert]
    by_cases hva : v = a
    · rw [if_pos hva, hva, Set.pair_eq_singleton]
      exact .leaf d a
    rw [if_neg hva, Set.pair_comm]
    refine canon_pair _ a v d ?_
    by_contra hcon
    apply hva
    refine (hsep a v (fun i hi => ?_)).symm
    by_cases hid : i < d
    · exact hagree a rfl i hid
    · by_contra hne
      exact hcon ⟨i, by omega, by omega, hne⟩
  | @node d l r S hS hl hr ihl ihr =>
    have hstep : ∀ b, bit v d = b → ∀ x ∈ side bit S d b, ∀ i, i < d + 1 → bit x i = bit v i := by
      intro b hb x hx i hi
      by_cases hid : i = d
      · rw [hid, hx.2, hb]
      · exact hagree x hx.1 i (by omega)
    have hnt : (Insert.insert v S : Set α).Nontrivial := hS.mono (Set.subset_insert v S)
    rw [insert]
    cases hb : bit v d with
    | false =>
      refine .node hnt ?_ ?_
      · have hs := side_insert_same bit S v d
        rw [hb] at hs
        rw [hs]
        exact ihl (hstep false hb)
      · rw [side_insert_other S v d (by simp [hb])]
        exact hr
    | true =>
      refine .node hnt ?_ ?_
      · rw [side_insert_other S v d (by simp [hb])]
        exact hl
      · have hs := side_insert_same bit S v d
        rw [hb] at hs
        rw [hs]
        exact ihr (hstep true hb)

theorem canon_erase (v : α) (h : Canon bit d t S) : Canon bit d (erase bit v d t) (S \ {v}) := by
  induction h with
  | empty d =>
    rw [Set.empty_sdiff]
    exact .empty d
  | leaf d a =>
    rw [erase]
    by_cases hva : v = a
    · rw [if_pos hva, hva, sdiff_self]
      exact .empty d
    · rw [if_neg hva, Set.sdiff_singleton_eq_self (by simpa using hva)]
      exact .leaf d a
  | @node d l r S hS hl hr ihl ihr =>
    rw [erase]
    cases hb : bit v d with
    | false =>
      refine canon_join ?_ ?_
      · rw [side_diff]
        exact ihl
      · rw [side_diff_other S v d (by simp [hb])]
        exact hr
    | true =>
      refine canon_join ?_ ?_
      · rw [side_diff_other S v d (by simp [hb])]
        exact hl
      · rw [side_diff]
        exact ihr

theorem mem_iff (v : α) (h : Canon bit d t S) : mem bit v d t = true ↔ v ∈ S := by
  induction h with
  | empty d => simp [mem]
  | leaf d a => simp [mem]
  | @node d l r S hS hl hr ihl ihr =>
    rw [mem]
    cases hb : bit v d with
    | false =>
      rw [if_neg Bool.false_ne_true, ihl]
      exact and_iff_left hb
    | true =>
      rw [if_pos rfl, ihr]
      exact and_iff_left hb

end Operations

end BitTrie

end SectorChain.Lib
