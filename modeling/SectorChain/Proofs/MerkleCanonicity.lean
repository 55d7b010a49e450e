import SectorChain.Lib.BitTrie
import SectorChain.Lib.Except
import SectorChain.Util.MerkleSet
import Mathlib.Data.Finset.Basic

/-!
# Merkle sets are canonical

Every Merkle set is the hashed form of the canonical trie of its values.
-/

namespace SectorChain.Proofs
open Lib Lib.BitTrie MerkleSet

variable {S : Set Bytes32} {a b : Bytes32} {d : ℕ} {l r t : BitTrie Bytes32} {m : MerkleSet}

def bit (v : Bytes32) (d : ℕ) : Bool := beBit v.toBytes d

lemma getBit_eq (v : Bytes32) (hd : d < 256) : getBit v.toBytes d = .ok (bit v d) := by
  have hlt : d / 8 < v.toBytes.length := by
    rw [v.length_eq]
    omega
  simp [getBit, v.length_eq, bit, beBit, List.getElem?_eq_getElem hlt, List.getD]

lemma bit_separates (a b : Bytes32) (h : ∀ i, i < 256 → bit a i = bit b i) : a = b := by
  apply SizedBytes.toBytes_injective
  apply eq_of_beBit_eq (a.length_eq.trans b.length_eq.symm)
  intro pos hpos
  rw [a.length_eq] at hpos
  exact h pos hpos

/-- The values of `S` agree on their first `d` bits. -/
def AgreeBelow (d : ℕ) (S : Set Bytes32) : Prop :=
  ∀ x ∈ S, ∀ y ∈ S, ∀ i, i < d → bit x i = bit y i

lemma AgreeBelow.side (h : AgreeBelow d S) (b : Bool) : AgreeBelow (d + 1) (side bit S d b) := by
  intro x hx y hy i hi
  by_cases hid : i = d
  · rw [hid, hx.2, hy.2]
  · exact h x hx.1 y hy.1 i (by omega)

lemma lt_of_bit (h : AgreeBelow d S) (ha : a ∈ side bit S d false) (hb : b ∈ side bit S d true) (hd : d < 256) :
    a.toBytes < b.toBytes := by
  refine lt_of_first_beBit (a.length_eq.trans b.length_eq.symm) ?_ ha.2 hb.2
    (fun i hi => h a ha.1 b hb.1 i hi)
  rw [a.length_eq]
  omega

def tag : BitTrie Bytes32 → Bytes
  | .empty => EMPTY
  | .leaf _ => TERMINAL
  | .node _ _ => MIDDLE

def double : BitTrie Bytes32 → Bool
  | .empty => false
  | .leaf _ => false
  | .node l r =>
    if l = .empty then double r
    else if r = .empty then double l
    else l.isLeaf && r.isLeaf

lemma tag_length (t : BitTrie Bytes32) : (tag t).length = 1 := by
  cases t <;> rfl

lemma BLANK_length : BLANK.length = 32 := rfl

section Hash

variable (sha256 : Bytes → Bytes32)

def trieHash : BitTrie Bytes32 → Bytes32
  | .empty => ⟨BLANK, BLANK_length⟩
  | .leaf a => a
  | .node l r =>
    if l = .empty ∧ double r then trieHash r
    else if r = .empty ∧ double l then trieHash l
    else sha256 (hashdownInput (tag l ++ (trieHash l).toBytes ++ (tag r ++ (trieHash r).toBytes)))

/-- The node of the model that stores a trie. -/
def ofTrie : BitTrie Bytes32 → MerkleSet.Node
  | .empty => .empty
  | .leaf a => .terminal a.toBytes
  | .node l r => .middle (ofTrie l) (ofTrie r) (trieHash sha256 (.node l r)).toBytes

variable {sha256}

@[simp] lemma ofTrie_empty : ofTrie sha256 .empty = .empty := rfl

@[simp] lemma ofTrie_leaf (a : Bytes32) : ofTrie sha256 (.leaf a) = .terminal a.toBytes := rfl

@[simp] lemma getHash_ofTrie (t : BitTrie Bytes32) :
    (ofTrie sha256 t).getHash = tag t ++ (trieHash sha256 t).toBytes := by
  cases t <;> rfl

@[simp] lemma hash_ofTrie (t : BitTrie Bytes32) :
    (ofTrie sha256 t).hash = (trieHash sha256 t).toBytes := by
  cases t <;> rfl

@[simp] lemma isEmpty_ofTrie (t : BitTrie Bytes32) :
    (ofTrie sha256 t).isEmpty = decide (t = .empty) := by
  cases t <;> simp [ofTrie, MerkleSet.Node.isEmpty]

@[simp] lemma isTerminal_ofTrie (t : BitTrie Bytes32) :
    (ofTrie sha256 t).isTerminal = t.isLeaf := by
  cases t <;> rfl

lemma ofTrie_injective {t' : BitTrie Bytes32} (h : ofTrie sha256 t = ofTrie sha256 t') : t = t' := by
  induction t generalizing t' with
  | empty => cases t' <;> simp_all [ofTrie]
  | leaf a =>
    cases t' with
    | leaf b => rw [SizedBytes.toBytes_injective (MerkleSet.Node.terminal.inj h)]
    | empty => simp [ofTrie] at h
    | node l r => simp [ofTrie] at h
  | node l r ihl ihr =>
    cases t' with
    | node l' r' =>
      obtain ⟨hl, hr, _⟩ := MerkleSet.Node.middle.inj h
      rw [ihl hl, ihr hr]
    | empty => simp [ofTrie] at h
    | leaf b => simp [ofTrie] at h

lemma isDouble_ofTrie (h : Canon bit d t S) (hS : S.Nontrivial) : (ofTrie sha256 t).isDouble = .ok (double t) := by
  induction h with
  | empty d => exact absurd hS Set.not_nontrivial_empty
  | leaf d a => exact absurd hS Set.not_nontrivial_singleton
  | @node d l r S hS' hl hr ihl ihr =>
    have hunion := eq_side_union bit S d
    rw [ofTrie, MerkleSet.Node.isDouble, double, isEmpty_ofTrie, isEmpty_ofTrie]
    by_cases hle : l = .empty
    · rw [hle] at hl
      rw [hl.set_eq_empty, Set.empty_union] at hunion
      simpa [hle] using ihr (hunion ▸ hS)
    by_cases hre : r = .empty
    · rw [hre] at hr
      rw [hr.set_eq_empty, Set.union_empty] at hunion
      simpa [hle, hre] using ihl (hunion ▸ hS)
    · simp [hle, hre]

lemma hashdownKey_cons {x y : UInt8} {hash0 hash1 : Bytes} (h0 : hash0.length = 32) :
    hashdownKey (x :: hash0 ++ y :: hash1) = [x, y] := by
  unfold hashdownKey
  rw [List.cons_append, List.drop_succ_cons, List.drop_left' h0]
  rfl

lemma hashdown_tags (l r : BitTrie Bytes32) (hash0 hash1 : Bytes32) :
    hashdown sha256 (tag l ++ hash0.toBytes ++ (tag r ++ hash1.toBytes)) =
      .ok (sha256 (hashdownInput (tag l ++ hash0.toBytes ++ (tag r ++ hash1.toBytes)))).toBytes := by
  have hkey : hashdownKey (tag l ++ hash0.toBytes ++ (tag r ++ hash1.toBytes)) ∈ prehashed := by
    cases l <;> cases r <;> exact hashdownKey_cons hash0.length_eq ▸ (by decide)
  unfold hashdown
  rw [if_pos hkey]
  simp [tag_length]

lemma nontrivial_of_empty_left (h : Canon bit d (.node .empty r) S) : (side bit S d true).Nontrivial := by
  have hunion := eq_side_union bit S d
  rw [h.left.set_eq_empty, Set.empty_union] at hunion
  exact hunion ▸ h.nontrivial

lemma nontrivial_of_empty_right (h : Canon bit d (.node l .empty) S) : (side bit S d false).Nontrivial := by
  have hunion := eq_side_union bit S d
  rw [h.right.set_eq_empty, Set.union_empty] at hunion
  exact hunion ▸ h.nontrivial

lemma isLeaf_eq_false (h : Canon bit d t S) (hS : S.Nontrivial) : t.isLeaf = false := by
  cases h with
  | leaf d a => exact absurd hS Set.not_nontrivial_singleton
  | _ => rfl

lemma ne_empty (h : Canon bit d t S) (hS : S.Nontrivial) : t ≠ .empty := by
  rintro rfl
  exact hS.nonempty.ne_empty h.set_eq_empty

variable (sha256) in
/-- `node` looks like the trie `t` from outside: same kind, same hash. -/
structure Shows (node : MerkleSet.Node) (t : BitTrie Bytes32) : Prop where
  isEmpty : node.isEmpty = decide (t = .empty)
  isTerminal : node.isTerminal = t.isLeaf
  hash : node.hash = (trieHash sha256 t).toBytes
  getHash : node.getHash = tag t ++ (trieHash sha256 t).toBytes

lemma shows_ofTrie (t : BitTrie Bytes32) : Shows sha256 (ofTrie sha256 t) t :=
  ⟨isEmpty_ofTrie t, isTerminal_ofTrie t, hash_ofTrie t, getHash_ofTrie t⟩

lemma middleNode_shows {child0 child1 : MerkleSet.Node}
    (h : Canon bit d (.node l r) S) (hS : AgreeBelow d S) (hd : d < 256)
    (h0 : Shows sha256 child0 l) (h1 : Shows sha256 child1 r) (hdouble0 : r = .empty → child0.isDouble = .ok (double l))
    (hdouble1 : l = .empty → child1.isDouble = .ok (double r)) :
    middleNode sha256 child0 child1 = .ok (.middle child0 child1 (trieHash sha256 (.node l r)).toBytes) := by
  have hdown := @hashdown_tags sha256 l r (trieHash sha256 l) (trieHash sha256 r)
  rw [middleNode, trieHash]
  simp only [h0.isEmpty, h1.isEmpty, h0.isTerminal, h1.isTerminal, h0.hash, h1.hash, h0.getHash, h1.getHash, hdown]
  by_cases hle : l = .empty
  · subst hle
    have hnt := nontrivial_of_empty_left h
    have hre := ne_empty h.right hnt
    have hrl := isLeaf_eq_false h.right hnt
    cases hdr : double r <;> simp [hdouble1 rfl, hdr, hre, hrl]
  by_cases hre : r = .empty
  · subst hre
    have hnt := nontrivial_of_empty_right h
    have hll := isLeaf_eq_false h.left hnt
    cases hdl : double l <;> simp [hdouble0 rfl, hdl, hle, hll]
  -- both children hold values; two terminals stand in the order of their bits
  have hord : (l.isLeaf && r.isLeaf &&
      decide ((trieHash sha256 r).toBytes ≤ (trieHash sha256 l).toBytes)) = false := by
    cases l with
    | leaf a =>
      cases r with
      | leaf b =>
        have hlt : a.toBytes < b.toBytes := lt_of_bit hS (h.left.set_eq_singleton ▸ Set.mem_singleton a)
            (h.right.set_eq_singleton ▸ Set.mem_singleton b) hd
        have hnot : ¬ b.toBytes ≤ a.toBytes := fun hle => hle hlt
        simp [isLeaf, trieHash, hnot]
      | _ => rfl
    | _ => rfl
  simp [hle, hre, hord]

lemma middleNode_ofTrie (h : Canon bit d (.node l r) S) (hS : AgreeBelow d S) (hd : d < 256) :
    middleNode sha256 (ofTrie sha256 l) (ofTrie sha256 r) = .ok (ofTrie sha256 (.node l r)) := by
  refine middleNode_shows h hS hd (shows_ofTrie l) (shows_ofTrie r) ?_ ?_
  · intro hre
    subst hre
    exact isDouble_ofTrie h.left (nontrivial_of_empty_right h)
  · intro hle
    subst hle
    exact isDouble_ofTrie h.right (nontrivial_of_empty_left h)

lemma AgreeBelow.mono {T : Set Bytes32} (h : AgreeBelow d T) (hST : S ⊆ T) :
    AgreeBelow d S := fun x hx y hy => h x (hST hx) y (hST hy)

lemma AgreeBelow.lt (h : AgreeBelow d S) (hS : S.Nontrivial) : d < 256 := by
  obtain ⟨a, ha, b, hb, hne⟩ := hS
  by_contra hd
  exact hne (bit_separates a b (fun i hi => h a ha b hb i (by omega)))

lemma AgreeBelow.exists_ne (h : AgreeBelow d {a, b}) (hne : a ≠ b) :
    ∃ i, d ≤ i ∧ i < d + (256 - d) ∧ bit a i ≠ bit b i := by
  by_contra hcon
  refine hne (bit_separates a b (fun i hi => ?_))
  by_cases hid : i < d
  · exact h a (by simp) b (by simp) i hid
  · by_contra hbit
    exact hcon ⟨i, by omega, by omega, hbit⟩

lemma ne_of_toBytes_lt (h : a.toBytes < b.toBytes) : a ≠ b := by
  rintro rfl
  exact List.lt_irrefl _ h

variable (sha256) in
lemma makeMiddle_ofTrie (hab : a.toBytes < b.toBytes) (steps d : ℕ)
    (hsteps : steps = 256 - d) (hS : AgreeBelow d {a, b}) :
    makeMiddle sha256 (.terminal a.toBytes) (.terminal b.toBytes) steps d =
      .ok (ofTrie sha256 (pair bit steps a b d)) := by
  have hne := ne_of_toBytes_lt hab
  have hd : d < 256 := hS.lt (Set.nontrivial_pair hne)
  induction steps generalizing d with
  | zero => omega
  | succ steps ih =>
    have hcanon : Canon bit d (pair bit (steps + 1) a b d) {a, b} := by
      apply canon_pair
      rw [hsteps]
      exact hS.exists_ne hne
    have hnext : bit a d = bit b d → AgreeBelow (d + 1) {a, b} := by
      intro heq x hx y hy i hi
      by_cases hid : i = d
      · rcases hx with rfl | rfl <;> rcases hy with rfl | rfl <;> simp [hid, heq]
      · exact hS x hx y hy i (by omega)
    have ih' : bit a d = bit b d → makeMiddle sha256 (.terminal a.toBytes) (.terminal b.toBytes) steps (d + 1) =
          .ok (ofTrie sha256 (pair bit steps a b (d + 1))) := by
      intro heq
      have hlt := (hnext heq).lt (Set.nontrivial_pair hne)
      exact ih (d + 1) (by omega) (hnext heq) hlt
    rw [makeMiddle]
    simp only [MerkleSet.Node.hash, getBit_eq a hd, getBit_eq b hd, ok_bind]
    rw [pair] at hcanon ⊢
    cases ha : bit a d <;> cases hb : bit b d <;> rw [ha, hb] at hcanon ih'
    · simpa [ih' rfl] using middleNode_ofTrie hcanon hS hd
    · simpa using middleNode_ofTrie hcanon hS hd
    · have hba : b.toBytes < a.toBytes := lt_of_bit hS ⟨by simp, hb⟩ ⟨by simp, ha⟩ hd
      exact absurd hba (List.lt_asymm hab)
    · simpa [ih' rfl] using middleNode_ofTrie hcanon hS hd

theorem add_ofTrie (v : Bytes32) (h : Canon bit d t S) (hS : AgreeBelow d (Insert.insert v S)) :
    (ofTrie sha256 t).add sha256 v.toBytes d = .ok (ofTrie sha256 (BitTrie.insert bit 256 v d t)) := by
  induction h with
  | empty d => simp [ofTrie, MerkleSet.Node.add, BitTrie.insert, terminalNode, v.length_eq]
  | leaf d a =>
    rw [ofTrie, MerkleSet.Node.add, BitTrie.insert]
    by_cases hva : v = a
    · simp [hva]
    have hne : v.toBytes ≠ a.toBytes := fun heq => hva (SizedBytes.toBytes_injective heq)
    simp only [if_neg hne, if_neg hva, terminalNode, v.length_eq]
    by_cases hlt : a.toBytes < v.toBytes
    · have hmk := makeMiddle_ofTrie sha256 hlt (256 - d) d rfl (Set.pair_comm v a ▸ hS)
      simpa [hlt] using hmk
    have hvlt : v.toBytes < a.toBytes := by
      by_contra hge
      exact hne (List.le_antisymm hlt hge)
    have hmk := makeMiddle_ofTrie sha256 hvlt (256 - d) d rfl hS
    rw [pair_comm]
    simpa [hlt] using hmk
  | @node d l r S hnt hl hr ihl ihr =>
    have hd := (hS.mono (Set.subset_insert v S)).lt hnt
    have hcanon := canon_insert bit_separates v (.node hnt hl hr)
      (fun x hx i hi => hS x (.inr hx) v (.inl rfl) i hi)
    have hside := hS.side (bit v d)
    rw [side_insert_same] at hside
    rw [BitTrie.insert] at hcanon
    rw [ofTrie, MerkleSet.Node.add, BitTrie.insert, getBit_eq v hd, ok_bind]
    cases hb : bit v d with
    | false =>
      rw [hb] at hside hcanon
      rw [ihl hside, ok_bind]
      by_cases hsame : ofTrie sha256 (BitTrie.insert bit 256 v (d + 1) l) = ofTrie sha256 l
      · rw [if_pos hsame, ofTrie_injective hsame]
        rfl
      · rw [if_neg hsame]
        exact middleNode_ofTrie hcanon hS hd
    | true =>
      rw [hb] at hside hcanon
      rw [ihr hside, ok_bind]
      by_cases hsame : ofTrie sha256 (BitTrie.insert bit 256 v (d + 1) r) = ofTrie sha256 r
      · rw [if_pos hsame, ofTrie_injective hsame]
        rfl
      · rw [if_neg hsame]
        exact middleNode_ofTrie hcanon hS hd

lemma middleNode_join (h : Canon bit d (join l r) S) (hS : AgreeBelow d S) (hd : d < 256) (hne : S.Nonempty)
    (hleft : ¬ (r = .empty ∧ l.isLeaf = true)) (hright : ¬ (l = .empty ∧ r.isLeaf = true)) :
    middleNode sha256 (ofTrie sha256 l) (ofTrie sha256 r) = .ok (ofTrie sha256 (join l r)) := by
  have hjoin : join l r = .node l r := by
    cases l with
    | empty =>
      cases r with
      | empty => exact absurd h.set_eq_empty hne.ne_empty
      | leaf b => exact absurd ⟨rfl, rfl⟩ hright
      | node r₀ r₁ => rfl
    | leaf a =>
      cases r with
      | empty => exact absurd ⟨rfl, rfl⟩ hleft
      | _ => rfl
    | node l₀ l₁ => cases r <;> rfl
  rw [hjoin] at h ⊢
  exact middleNode_ofTrie h hS hd

theorem remove_ofTrie (v : Bytes32) (h : Canon bit d t S) (hS : AgreeBelow d S) :
    (ofTrie sha256 t).remove sha256 v.toBytes d = .ok (ofTrie sha256 (erase bit v d t)) := by
  induction h with
  | empty d => rfl
  | leaf d a =>
    rw [ofTrie, MerkleSet.Node.remove, erase]
    by_cases hva : v = a
    · simp [hva]
    · have hne : v.toBytes ≠ a.toBytes := fun heq => hva (SizedBytes.toBytes_injective heq)
      simp [hva, hne]
  | @node d l r S hnt hl hr ihl ihr =>
    have hd := hS.lt hnt
    have hjoin := Canon.join_eq_node (.node hnt hl hr)
    have hcanon := canon_erase v (.node hnt hl hr)
    have hS' : AgreeBelow d (S \ {v}) := hS.mono Set.sdiff_subset
    have hne : (S \ {v}).Nonempty := by
      obtain ⟨x, hx, hxv⟩ := hnt.exists_ne v
      exact ⟨x, hx, hxv⟩
    rw [erase] at hcanon
    rw [ofTrie, MerkleSet.Node.remove, erase, getBit_eq v hd, ok_bind]
    cases hb : bit v d with
    | false =>
      rw [hb] at hcanon
      rw [ihl (hS.side false), ok_bind]
      by_cases hsame : ofTrie sha256 (erase bit v (d + 1) l) = ofTrie sha256 l
      · rw [if_pos hsame, ofTrie_injective hsame, hjoin]
        rfl
      rw [if_neg hsame]
      generalize erase bit v (d + 1) l = l' at hcanon
      simp only [isEmpty_ofTrie, isTerminal_ofTrie, Bool.and_eq_true, decide_eq_true_eq]
      by_cases hright : l' = .empty ∧ r.isLeaf = true
      · rw [if_pos hright, join_eq_right hright.1 hright.2]
        rfl
      by_cases hleft : l'.isLeaf = true ∧ r = .empty
      · rw [if_neg hright, if_pos hleft, join_eq_left hleft.2 hleft.1]
        rfl
      · rw [if_neg hright, if_neg hleft]
        exact middleNode_join hcanon hS' hd hne (fun h => hleft h.symm) hright
    | true =>
      rw [hb] at hcanon
      rw [ihr (hS.side true), ok_bind]
      by_cases hsame : ofTrie sha256 (erase bit v (d + 1) r) = ofTrie sha256 r
      · rw [if_pos hsame, ofTrie_injective hsame, hjoin]
        rfl
      rw [if_neg hsame]
      generalize erase bit v (d + 1) r = r' at hcanon
      simp only [isEmpty_ofTrie, isTerminal_ofTrie, Bool.and_eq_true, decide_eq_true_eq]
      by_cases hleft : r' = .empty ∧ l.isLeaf = true
      · rw [if_pos hleft, join_eq_left hleft.1 hleft.2]
        rfl
      by_cases hright : r'.isLeaf = true ∧ l = .empty
      · rw [if_neg hleft, if_pos hright, join_eq_right hright.2 hright.1]
        rfl
      · rw [if_neg hleft, if_neg hright]
        exact middleNode_join hcanon hS' hd hne hleft (fun h => hright h.symm)

lemma AgreeBelow.zero (S : Set Bytes32) : AgreeBelow 0 S :=
  fun _ _ _ _ i hi => absurd hi (Nat.not_lt_zero i)

variable (sha256) in
/-- `m` is the Merkle set of `S`: its root node is the hashed canonical trie of `S`. -/
def Stores (m : MerkleSet) (S : Set Bytes32) : Prop :=
  ∃ t, Canon bit 0 t S ∧ m = ⟨ofTrie sha256 t⟩

lemma stores_empty : Stores sha256 {} ∅ := ⟨.empty, .empty 0, rfl⟩

lemma Stores.unique {m' : MerkleSet} (h : Stores sha256 m S) (h' : Stores sha256 m' S) : m = m' := by
  obtain ⟨t, ht, rfl⟩ := h
  obtain ⟨t', ht', rfl⟩ := h'
  rw [ht.unique ht']

lemma Stores.add (h : Stores sha256 m S) (v : Bytes32) :
    ∃ m', m.addAlreadyHashed sha256 v.toBytes = .ok m' ∧ Stores sha256 m' (Insert.insert v S) := by
  obtain ⟨t, ht, rfl⟩ := h
  refine ⟨⟨ofTrie sha256 (BitTrie.insert bit 256 v 0 t)⟩, ?_, _, ?_, rfl⟩
  · unfold addAlreadyHashed
    rw [add_ofTrie v ht (AgreeBelow.zero _)]
    rfl
  · exact canon_insert bit_separates v ht (fun _ _ i hi => absurd hi (Nat.not_lt_zero i))

lemma Stores.remove (h : Stores sha256 m S) (v : Bytes32) :
    ∃ m', m.removeAlreadyHashed sha256 v.toBytes = .ok m' ∧ Stores sha256 m' (S \ {v}) := by
  obtain ⟨t, ht, rfl⟩ := h
  refine ⟨⟨ofTrie sha256 (erase bit v 0 t)⟩, ?_, _, canon_erase v ht, rfl⟩
  unfold removeAlreadyHashed
  rw [remove_ofTrie v ht (AgreeBelow.zero _)]
  rfl

lemma Stores.add_of_mem (h : Stores sha256 m S) {v : Bytes32}
    (hv : v ∈ S) : m.addAlreadyHashed sha256 v.toBytes = .ok m := by
  obtain ⟨m', hadd, hm'⟩ := h.add v
  rw [Set.insert_eq_of_mem hv] at hm'
  rw [hadd, hm'.unique h]

lemma Stores.remove_of_notMem (h : Stores sha256 m S)
    {v : Bytes32} (hv : v ∉ S) : m.removeAlreadyHashed sha256 v.toBytes = .ok m := by
  obtain ⟨m', hremove, hm'⟩ := h.remove v
  rw [Set.sdiff_singleton_eq_self hv] at hm'
  rw [hremove, hm'.unique h]

def trieRoot (sha256 : Bytes → Bytes32) : BitTrie Bytes32 → Bytes32
  | .empty => ⟨BLANK, BLANK_length⟩
  | .leaf a => sha256 (TERMINAL ++ a.toBytes)
  | .node l r => trieHash sha256 (.node l r)

lemma getRoot_ofTrie (t : BitTrie Bytes32) :
    getRoot sha256 ⟨ofTrie sha256 t⟩ = .ok (trieRoot sha256 t).toBytes := by
  unfold getRoot compressRoot
  rw [getHash_ofTrie]
  cases t with
  | empty => rfl
  | leaf a => simp [tag, TERMINAL, MIDDLE, EMPTY, trieRoot, trieHash]
  | node l r => simp [tag, MIDDLE, trieRoot]

lemma Stores.getRoot (h : Stores sha256 m S) : ∃ root, m.getRoot sha256 = .ok root := by
  obtain ⟨t, _, rfl⟩ := h
  exact ⟨_, getRoot_ofTrie t⟩

end Hash

inductive Op where
  | add (toadd : Bytes32)
  | remove (toremove : Bytes32)
deriving DecidableEq

namespace Op

def apply (sha256 : Bytes → Bytes32) : Op → MerkleSet → Except PyError MerkleSet
  | add toadd, m => m.addAlreadyHashed sha256 toadd.toBytes
  | remove toremove, m => m.removeAlreadyHashed sha256 toremove.toBytes

def effect : Op → Finset Bytes32 → Finset Bytes32
  | add toadd, S => Insert.insert toadd S
  | remove toremove, S => S.erase toremove

end Op

def run (sha256 : Bytes → Bytes32) (ops : List Op) (m : MerkleSet) : Except PyError MerkleSet :=
  ops.foldlM (fun m op => op.apply sha256 m) m

def net (ops : List Op) (S : Finset Bytes32) : Finset Bytes32 :=
  ops.foldl (fun S op => op.effect S) S

section Run

variable {sha256 : Bytes → Bytes32}

lemma Stores.step {m : MerkleSet} {S : Finset Bytes32} (h : Stores sha256 m S) (op : Op) :
    ∃ m', op.apply sha256 m = .ok m' ∧ Stores sha256 m' (op.effect S) := by
  cases op with
  | add v =>
    unfold Op.effect
    rw [Finset.coe_insert]
    exact h.add v
  | remove v =>
    unfold Op.effect
    rw [Finset.coe_erase]
    exact h.remove v

theorem Stores.run {S : Finset Bytes32} (h : Stores sha256 m S)
    (ops : List Op) : ∃ m', run sha256 ops m = .ok m' ∧ Stores sha256 m' (net ops S) := by
  induction ops generalizing m S with
  | nil => exact ⟨m, rfl, h⟩
  | cons op ops ih =>
    obtain ⟨m₁, hop, hm₁⟩ := h.step op
    obtain ⟨m₂, hrun, hm₂⟩ := ih hm₁
    refine ⟨m₂, ?_, hm₂⟩
    unfold Proofs.run
    rw [List.foldlM_cons, hop]
    exact hrun

variable (sha256)

lemma exists_stores (S : Finset Bytes32) : ∃ m, Stores sha256 m S := by
  induction S using Finset.induction_on with
  | empty =>
    rw [Finset.coe_empty]
    exact ⟨{}, stores_empty⟩
  | insert v S _ ih =>
    obtain ⟨m, hm⟩ := ih
    obtain ⟨m', _, hm'⟩ := hm.add v
    rw [Finset.coe_insert]
    exact ⟨m', hm'⟩

lemma stores_run (ops : List Op) : ∃ m, Proofs.run sha256 ops {} = .ok m ∧ Stores sha256 m (net ops ∅) := by
  apply Stores.run
  rw [Finset.coe_empty]
  exact stores_empty

end Run

end SectorChain.Proofs
