import SectorChain.Proofs.MerkleAudit

/-!
# Merkle proofs are complete

Reading a proof gives back a pruned copy of the trie.
-/

namespace SectorChain.Proofs
open Lib Lib.BitTrie MerkleSet
open MerkleSet.Node (isIncluded isDouble otherIncluded)

section Hash

variable (sha256 : Bytes → Bytes32) (v : Bytes32)
variable {b collapse : Bool} {bits : List Bool} {node self : MerkleSet.Node}
variable {S : Set Bytes32} {d : ℕ} {t : BitTrie Bytes32}

/-- What a proof shows of a sibling of the path; `self` is its own pruned copy. -/
def pruneOther (t : BitTrie Bytes32) (collapse : Bool) (self : MerkleSet.Node) : MerkleSet.Node :=
  match t with
  | .empty => .empty
  | .leaf a => .terminal a.toBytes
  | .node _ _ => if collapse || !double t then .truncated (trieHash sha256 t).toBytes else self

/-- What a proof about `v` shows of a trie at a given depth. -/
def prune : BitTrie Bytes32 → ℕ → MerkleSet.Node
  | .empty, _ => .empty
  | .leaf a, _ => .terminal a.toBytes
  | .node l r, d =>
    if bit v d then
      .middle (pruneOther sha256 l (r ≠ .empty) (prune l (d + 1))) (prune r (d + 1))
        (trieHash sha256 (.node l r)).toBytes
    else
      .middle (prune l (d + 1)) (pruneOther sha256 r (l ≠ .empty) (prune r (d + 1)))
        (trieHash sha256 (.node l r)).toBytes

variable {sha256} {v}

lemma shows_prune (t : BitTrie Bytes32) (d : ℕ) : Shows sha256 (prune sha256 v t d) t := by
  cases t with
  | empty => exact shows_ofTrie .empty
  | leaf a => exact shows_ofTrie (.leaf a)
  | node l r =>
    unfold prune
    split <;> exact ⟨rfl, rfl, rfl, rfl⟩

lemma shows_pruneOther (t : BitTrie Bytes32) (collapse : Bool) (d : ℕ) :
    Shows sha256 (pruneOther sha256 t collapse (prune sha256 v t d)) t := by
  cases t with
  | empty => exact shows_ofTrie .empty
  | leaf a => exact shows_ofTrie (.leaf a)
  | node l r =>
    unfold pruneOther
    simp only
    split
    · exact ⟨rfl, rfl, rfl, rfl⟩
    · exact shows_prune _ d

lemma isDouble_pruneOther (h : Canon bit d t S) (hS : S.Nontrivial) (hself : self.isDouble = .ok (double t)) :
    (pruneOther sha256 t false self).isDouble = .ok (double t) := by
  cases t with
  | empty => exact absurd h.set_eq_empty hS.nonempty.ne_empty
  | leaf a => exact absurd (h.set_eq_singleton ▸ hS) Set.not_nontrivial_singleton
  | node l r =>
    unfold pruneOther
    cases hdouble : double (.node l r) with
    | false => simp [isDouble]
    | true => simpa [hdouble] using hself

lemma isDouble_middle {l r : BitTrie Bytes32} {child0 child1 : MerkleSet.Node} {hash : Bytes}
    (h0 : Shows sha256 child0 l) (h1 : Shows sha256 child1 r) (hdouble0 : r = .empty → child0.isDouble = .ok (double l))
    (hdouble1 : l = .empty → child1.isDouble = .ok (double r)) :
    (MerkleSet.Node.middle child0 child1 hash).isDouble = .ok (double (.node l r)) := by
  unfold isDouble double
  rw [h0.isEmpty, h1.isEmpty, h0.isTerminal, h1.isTerminal]
  by_cases hle : l = .empty
  · simpa [hle] using hdouble1 hle
  · by_cases hre : r = .empty
    · simpa [hle, hre] using hdouble0 hre
    · simp [hle, hre]

lemma audited_pruneOther (collapse : Bool) (hself : Audited sha256 bits self) (hlen : bits.length ≤ 256)
    (hleaf : ∀ a, t = .leaf a → Follows bits a) : Audited sha256 bits (pruneOther sha256 t collapse self) := by
  cases t with
  | empty => exact .empty bits
  | leaf a => exact .terminal bits a hlen (hleaf a rfl)
  | node l r =>
    unfold pruneOther
    simp only
    split
    · exact .truncated bits _
    · exact hself

lemma audited_prune (h : Canon bit d t S) (hbits : bits.length = d) (hd : d ≤ 256) (hS : ∀ x ∈ S, Follows bits x) :
    Audited sha256 bits (prune sha256 v t d) ∧ (S.Nontrivial → (prune sha256 v t d).isDouble = .ok (double t)) := by
  induction h generalizing bits with
  | empty d => exact ⟨.empty bits, fun hnt => absurd hnt Set.not_nontrivial_empty⟩
  | leaf d a =>
    exact ⟨.terminal bits a (by omega) (hS a rfl), fun hnt => absurd hnt Set.not_nontrivial_singleton⟩
  | @node d l r S hnt hl hr ihl ihr =>
    subst hbits
    have hcanon : Canon bit bits.length (.node l r) S := .node hnt hl hr
    have hagree := AgreeBelow.of_follows hS
    have hlt := hagree.lt hnt
    obtain ⟨hl', hdoublel⟩ := ihl (by simp) (by omega) (follows_side hS false)
    obtain ⟨hr', hdoubler⟩ := ihr (by simp) (by omega) (follows_side hS true)
    have hlen : ∀ b, (bits ++ [b]).length ≤ 256 := by
      intro b
      simp
      omega
    have hleafl : ∀ a, l = .leaf a → Follows (bits ++ [false]) a := by
      intro a ha
      subst ha
      exact follows_side hS false a (hl.set_eq_singleton ▸ Set.mem_singleton a)
    have hleafr : ∀ a, r = .leaf a → Follows (bits ++ [true]) a := by
      intro a ha
      subst ha
      exact follows_side hS true a (hr.set_eq_singleton ▸ Set.mem_singleton a)
    have hrempty : r = .empty → (prune sha256 v l (bits.length + 1)).isDouble = .ok (double l) := by
      intro hre
      subst hre
      exact hdoublel (nontrivial_of_empty_right hcanon)
    have hlempty : l = .empty → (prune sha256 v r (bits.length + 1)).isDouble = .ok (double r) := by
      intro hle
      subst hle
      exact hdoubler (nontrivial_of_empty_left hcanon)
    unfold prune
    by_cases hb : bit v bits.length = true
    · rw [if_pos hb]
      have hother : r = .empty → (pruneOther sha256 l (r ≠ .empty)
          (prune sha256 v l (bits.length + 1))).isDouble = .ok (double l) := by
        intro hre
        subst hre
        exact isDouble_pruneOther hl (nontrivial_of_empty_right hcanon) (hrempty rfl)
      have hshow0 := @shows_pruneOther sha256 v l (r ≠ .empty) (bits.length + 1)
      have hshow1 := @shows_prune sha256 v r (bits.length + 1)
      exact ⟨.middle (audited_pruneOther _ hl' (hlen false) hleafl) hr'
          (middleNode_shows hcanon hagree hlt hshow0 hshow1 hother hlempty),
        fun _ => isDouble_middle hshow0 hshow1 hother hlempty⟩
    · rw [if_neg hb]
      have hother : l = .empty → (pruneOther sha256 r (l ≠ .empty)
          (prune sha256 v r (bits.length + 1))).isDouble = .ok (double r) := by
        intro hle
        subst hle
        exact isDouble_pruneOther hr (nontrivial_of_empty_left hcanon) (hlempty rfl)
      have hshow0 := @shows_prune sha256 v l (bits.length + 1)
      have hshow1 := @shows_pruneOther sha256 v r (l ≠ .empty) (bits.length + 1)
      exact ⟨.middle hl' (audited_pruneOther _ hr' (hlen true) hleafr)
          (middleNode_shows hcanon hagree hlt hshow0 hshow1 hrempty hother),
        fun _ => isDouble_middle hshow0 hshow1 hrempty hother⟩

lemma otherIncluded_ofTrie (h : Canon bit d t S) (hcollapse : collapse = false → S.Nontrivial)
    {self : Except PyError (Bool × Bytes)} (hself : self = .ok (b, serialize node)) :
    (ofTrie sha256 t).otherIncluded collapse self = .ok (serialize (pruneOther sha256 t collapse node)) := by
  cases t with
  | empty => rfl
  | leaf a => rfl
  | node l r =>
    unfold otherIncluded pruneOther
    cases collapse with
    | true => rfl
    | false =>
      have hdouble : (ofTrie sha256 (.node l r)).isDouble = .ok (double (.node l r)) :=
        isDouble_ofTrie h (hcollapse rfl)
      rw [ofTrie] at hdouble
      cases hd : double (.node l r) with
      | false => simp [ofTrie, hdouble, hd, serialize]
      | true => simp [ofTrie, hdouble, hd, hself]

theorem isIncluded_ofTrie {d : ℕ} {t : BitTrie Bytes32} {S : Set Bytes32} (h : Canon bit d t S) (hS : AgreeBelow d S) :
    (ofTrie sha256 t).isIncluded v.toBytes d = .ok (mem bit v d t, serialize (prune sha256 v t d)) := by
  induction h with
  | empty d => rfl
  | leaf d a =>
    have hiff : v.toBytes = a.toBytes ↔ v = a := ⟨SizedBytes.toBytes_injective, fun h => h ▸ rfl⟩
    simp [isIncluded, mem, prune, serialize, hiff]
  | @node d l r S hnt hl hr ihl ihr =>
    have hcanon : Canon bit d (.node l r) S := .node hnt hl hr
    have hlt := hS.lt hnt
    have hcollapse : ∀ t, (!(ofTrie sha256 t).isEmpty) = decide (t ≠ .empty) := by
      intro t
      rw [isEmpty_ofTrie, decide_not]
    rw [ofTrie, isIncluded, getBit_eq v hlt, ok_bind, mem, prune]
    by_cases hb : bit v d = true
    · have hother : (ofTrie sha256 l).otherIncluded (!(ofTrie sha256 r).isEmpty)
          ((ofTrie sha256 l).isIncluded v.toBytes (d + 1)) =
          .ok (serialize (pruneOther sha256 l (r ≠ .empty) (prune sha256 v l (d + 1)))) := by
        rw [hcollapse]
        refine otherIncluded_ofTrie hl (fun hfalse => ?_) (ihl (hS.side false))
        have hre : r = .empty := by simpa using hfalse
        subst hre
        exact nontrivial_of_empty_right hcanon
      rw [if_pos hb, if_pos hb, if_pos hb, hother, ihr (hS.side true)]
      rfl
    · have hother : (ofTrie sha256 r).otherIncluded (!(ofTrie sha256 l).isEmpty)
          ((ofTrie sha256 r).isIncluded v.toBytes (d + 1)) =
          .ok (serialize (pruneOther sha256 r (l ≠ .empty) (prune sha256 v r (d + 1)))) := by
        rw [hcollapse]
        refine otherIncluded_ofTrie hr (fun hfalse => ?_) (ihr (hS.side true))
        have hle : l = .empty := by simpa using hfalse
        subst hle
        exact nontrivial_of_empty_left hcanon
      rw [if_neg hb, if_neg hb, if_neg hb, ihl (hS.side false)]
      rw [hother]
      rfl

lemma otherIncluded_pruneOther
    (hdouble : collapse = false → (prune sha256 v t d).isDouble = .ok (double t)) {bs : Bytes}
    (hself : (prune sha256 v t d).isIncluded v.toBytes d = .ok (b, bs)) :
    ∃ bs', (pruneOther sha256 t collapse (prune sha256 v t d)).otherIncluded collapse
      ((pruneOther sha256 t collapse (prune sha256 v t d)).isIncluded v.toBytes d) = .ok bs' := by
  cases t with
  | empty => exact ⟨_, rfl⟩
  | leaf a => exact ⟨_, rfl⟩
  | node l r =>
    unfold pruneOther
    simp only
    split
    · exact ⟨_, rfl⟩
    rename_i hshown
    simp only [Bool.or_eq_true, Bool.not_eq_true', not_or, Bool.not_eq_true, Bool.not_eq_false] at hshown
    obtain ⟨rfl, hd⟩ := hshown
    refine ⟨bs, ?_⟩
    rw [hself]
    have hmiddle : ∃ c0 c1 hash, prune sha256 v (.node l r) d = .middle c0 c1 hash := by
      unfold prune
      split <;> exact ⟨_, _, _, rfl⟩
    obtain ⟨c0, c1, hash, heq⟩ := hmiddle
    have hdouble' := hdouble rfl
    rw [heq] at hdouble' ⊢
    simp [otherIncluded, hdouble', hd]

/-- The pruned copy answers as the trie does. -/
theorem isIncluded_prune {d : ℕ} {t : BitTrie Bytes32} {S : Set Bytes32} (h : Canon bit d t S)
    {bits : List Bool} (hbits : bits.length = d) (hd : d ≤ 256) (hS : ∀ x ∈ S, Follows bits x) :
    ∃ bs, (prune sha256 v t d).isIncluded v.toBytes d = .ok (mem bit v d t, bs) := by
  induction h generalizing bits with
  | empty d => exact ⟨_, rfl⟩
  | leaf d a =>
    have hiff : v.toBytes = a.toBytes ↔ v = a := ⟨SizedBytes.toBytes_injective, fun h => h ▸ rfl⟩
    exact ⟨TERMINAL ++ a.toBytes, by simp [isIncluded, mem, prune, hiff]⟩
  | @node d l r S hnt hl hr ihl ihr =>
    subst hbits
    have hcanon : Canon bit bits.length (.node l r) S := .node hnt hl hr
    have hlt := (AgreeBelow.of_follows hS).lt hnt
    have hSl := follows_side hS false
    have hSr := follows_side hS true
    obtain ⟨bsl, hbsl⟩ := ihl (by simp) (by omega) hSl
    obtain ⟨bsr, hbsr⟩ := ihr (by simp) (by omega) hSr
    rw [prune, mem]
    by_cases hb : bit v bits.length = true
    · have hcollapse : (!(prune sha256 v r (bits.length + 1)).isEmpty) = decide (r ≠ .empty) := by
        rw [(shows_prune r (bits.length + 1)).isEmpty, decide_not]
      have hdouble : decide (r ≠ .empty) = false → (prune sha256 v l (bits.length + 1)).isDouble = .ok (double l) := by
        intro hfalse
        have hre : r = .empty := by simpa using hfalse
        subst hre
        exact (audited_prune hl (by simp) (by omega) hSl).2 (nontrivial_of_empty_right hcanon)
      obtain ⟨bs, hbs⟩ := otherIncluded_pruneOther hdouble hbsl
      refine ⟨MIDDLE ++ bs ++ bsr, ?_⟩
      rw [if_pos hb, if_pos hb, isIncluded, getBit_eq v hlt, ok_bind, if_pos hb, hcollapse, hbs, hbsr]
      rfl
    · have hcollapse : (!(prune sha256 v l (bits.length + 1)).isEmpty) = decide (l ≠ .empty) := by
        rw [(shows_prune l (bits.length + 1)).isEmpty, decide_not]
      have hdouble : decide (l ≠ .empty) = false → (prune sha256 v r (bits.length + 1)).isDouble = .ok (double r) := by
        intro hfalse
        have hle : l = .empty := by simpa using hfalse
        subst hle
        exact (audited_prune hr (by simp) (by omega) hSr).2 (nontrivial_of_empty_left hcanon)
      obtain ⟨bs, hbs⟩ := otherIncluded_pruneOther hdouble hbsr
      refine ⟨MIDDLE ++ bsl ++ bs, ?_⟩
      rw [if_neg hb, if_neg hb, isIncluded, getBit_eq v hlt, ok_bind, if_neg hb, hbsl]
      rw [hcollapse, hbs]
      rfl

lemma follows_nil (v : Bytes32) : Follows [] v := fun i hi => absurd hi (Nat.not_lt_zero i)

lemma nestedCalls_prune (h : Canon bit d t S) (hS : AgreeBelow d S) (hd : d ≤ 256) :
    nestedCalls (prune sha256 v t d) + d ≤ 257 := by
  induction h with
  | empty d => exact Nat.add_le_add_left hd 1
  | leaf d a => exact Nat.add_le_add_left hd 1
  | @node d l r S hnt hl hr ihl ihr =>
    have hlt := hS.lt hnt
    have hl' := ihl (hS.side false) hlt
    have hr' := ihr (hS.side true) hlt
    have hother : ∀ (t : BitTrie Bytes32) (collapse : Bool) (self : MerkleSet.Node),
        nestedCalls (pruneOther sha256 t collapse self) ≤ max (nestedCalls self) 1 := by
      intro t collapse self
      unfold pruneOther
      split
      · exact le_max_right _ _
      · exact le_max_right _ _
      · split
        · exact le_max_right _ _
        · exact le_max_left _ _
    have hotherl := hother l (r ≠ .empty) (prune sha256 v l (d + 1))
    have hotherr := hother r (l ≠ .empty) (prune sha256 v r (d + 1))
    unfold prune
    split <;> simp only [nestedCalls] <;> omega

lemma getRoot_of_shows (h : Shows sha256 node t) : getRoot sha256 ⟨node⟩ = getRoot sha256 ⟨ofTrie sha256 t⟩ := by
  unfold getRoot
  rw [h.getHash, getHash_ofTrie]

variable [RecursionLimit]

variable (sha256) in
lemma deserializeProof_prune (h : Canon bit 0 t S) :
    deserializeProof sha256 (serialize (prune sha256 v t 0)) = .ok ⟨prune sha256 v t 0⟩ := by
  have haudited : Audited sha256 [] (prune sha256 v t 0) :=
    (audited_prune h rfl (by decide) (fun x _ => follows_nil x)).1
  have hread := deserializeFrom_serialize haudited [] [] RecursionLimit.calls
    ((nestedCalls_prune h (AgreeBelow.zero _) (by decide)).trans RecursionLimit.enough)
  simp only [List.nil_append, List.append_nil, List.length_nil, Nat.zero_add] at hread
  unfold deserializeProof
  simp [hread]

lemma Stores.generated_confirmed {m : MerkleSet} {root proof : Bytes} {r : Bool} (h : Stores sha256 m S)
    (hroot : m.getRoot sha256 = .ok root) (hr : m.isIncludedAlreadyHashed v.toBytes = .ok (r, proof)) :
    (r = true ↔ v ∈ S) ∧ (∃ q, deserializeProof sha256 proof = .ok q) ∧
      confirm sha256 root v.toBytes proof r = .ok true := by
  obtain ⟨t, ht, rfl⟩ := h
  have hanswer := @isIncluded_ofTrie sha256 v 0 t _ ht (AgreeBelow.zero _)
  obtain ⟨rfl, rfl⟩ := Prod.mk.inj (Except.ok.inj (hr.symm.trans hanswer))
  have hread := deserializeProof_prune sha256 (v := v) ht
  have hroot' := getRoot_of_shows (@shows_prune sha256 v t 0)
  obtain ⟨bs, hbs⟩ := @isIncluded_prune sha256 v 0 t _ ht [] rfl (by decide)
    (fun x _ => follows_nil x)
  refine ⟨mem_iff v ht, ⟨_, hread⟩, ?_⟩
  unfold confirm isIncludedAlreadyHashed
  simp [hread, hroot', hroot, hbs]

end Hash

/-- For every set, `is_included_already_hashed` answers with a proof that parses and is accepted. -/
theorem merkleProof_complete [RecursionLimit] (sha256 : Bytes → Bytes32) (ops : List Op) (v : Bytes32) :
    ∃ m root proof q, run sha256 ops {} = .ok m ∧ m.getRoot sha256 = .ok root ∧
      m.isIncludedAlreadyHashed v.toBytes = .ok (decide (v ∈ net ops ∅), proof) ∧
      deserializeProof sha256 proof = .ok q ∧
      if v ∈ net ops ∅ then confirmIncludedAlreadyHashed sha256 root v.toBytes proof = .ok true
      else confirmNotIncludedAlreadyHashed sha256 root v.toBytes proof = .ok true := by
  obtain ⟨m, hrun, hstores⟩ := stores_run sha256 ops
  obtain ⟨t, ht, rfl⟩ := id hstores
  have hroot := @getRoot_ofTrie sha256 t
  have hanswer : isIncludedAlreadyHashed ⟨ofTrie sha256 t⟩ v.toBytes = _ :=
    @isIncluded_ofTrie sha256 v 0 t _ ht (AgreeBelow.zero _)
  obtain ⟨hmem, ⟨q, hq⟩, hconfirm⟩ := hstores.generated_confirmed hroot hanswer
  have hdecide : mem bit v 0 t = decide (v ∈ net ops ∅) := by
    rw [Bool.eq_iff_iff, hmem, decide_eq_true_iff, Finset.mem_coe]
  rw [hdecide] at hanswer hconfirm
  refine ⟨_, _, _, q, hrun, hroot, hanswer, hq, ?_⟩
  unfold confirmIncludedAlreadyHashed confirmNotIncludedAlreadyHashed
  split
  · rename_i hv
    simpa [hv] using hconfirm
  · rename_i hv
    simpa [hv] using hconfirm

end SectorChain.Proofs
