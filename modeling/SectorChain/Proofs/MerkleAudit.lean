import SectorChain.Proofs.MerkleCanonicity

/-!
# Audited nodes

The nodes that reading a proof can build.
-/

namespace SectorChain.Proofs
open Lib Lib.BitTrie MerkleSet List
open MerkleSet.Node (getHash isDouble isTerminal)

variable {S : Set Bytes32} {bits : List Bool} {node : MerkleSet.Node} {pos : ℕ} {v : Bytes32}

def Follows (bits : List Bool) (v : Bytes32) : Prop :=
  ∀ i, i < bits.length → bits[i]? = some (bit v i)

lemma follows_append {b : Bool} : Follows (bits ++ [b]) v ↔ Follows bits v ∧ bit v bits.length = b := by
  constructor
  · intro h
    constructor
    · intro i hi
      rw [← h i (by simp; omega), getElem?_append_left hi]
    · have hlast := h bits.length (by simp)
      simpa using hlast.symm
  intro h i hi
  rw [length_append, length_singleton] at hi
  by_cases hlt : i < bits.length
  · rw [getElem?_append_left hlt, h.1 i hlt]
  · have hi' : i = bits.length := by omega
    rw [hi', h.2]
    simp

lemma auditFrom_eq_ok (hlen : pos + bits.length ≤ 256) :
    auditFrom v.toBytes pos bits = .ok () ↔ ∀ i, i < bits.length → bits[i]? = some (bit v (pos + i)) := by
  induction bits generalizing pos with
  | nil => simp [auditFrom]
  | cons b bits ih =>
    rw [length_cons] at hlen
    unfold auditFrom
    rw [getBit_eq v (by omega), ok_bind]
    by_cases hb : bit v pos = b
    · rw [hb, beq_self_eq_true, pyAssert_true, ok_bind, ih (by omega)]
      constructor
      · intro h i hi
        cases i with
        | zero => simp [hb]
        | succ i =>
          rw [length_cons] at hi
          rw [getElem?_cons_succ, h i (by omega)]
          congr 2
          omega
      · intro h i hi
        have hi' := h (i + 1) (by rw [length_cons]; omega)
        rw [getElem?_cons_succ] at hi'
        rw [hi']
        congr 2
        omega
    · have hneq : (bit v pos == b) = false := beq_false_of_ne hb
      rw [hneq]
      constructor
      · intro h
        exact absurd h (by simp)
      · intro h
        have h0 := h 0 (by simp)
        exact absurd (Option.some.inj h0).symm (by simpa using hb)

section Hash

variable (sha256 : Bytes → Bytes32)

/-- A node as reading a proof builds it below the path `bits`. -/
inductive Audited : List Bool → MerkleSet.Node → Prop
  | empty (bits : List Bool) : Audited bits .empty
  | terminal (bits : List Bool) (v : Bytes32) (hlen : bits.length ≤ 256) (hv : Follows bits v) :
      Audited bits (.terminal v.toBytes)
  | truncated (bits : List Bool) (hash : Bytes32) : Audited bits (.truncated hash.toBytes)
  | middle {bits : List Bool} {child0 child1 : MerkleSet.Node} {hash : Bytes}
      (h0 : Audited (bits ++ [false]) child0) (h1 : Audited (bits ++ [true]) child1)
      (hmiddle : middleNode sha256 child0 child1 = .ok (.middle child0 child1 hash)) :
      Audited bits (.middle child0 child1 hash)

variable {sha256}

lemma hashdown_eq_ok {mystr hash : Bytes} (h : hashdown sha256 mystr = .ok hash) :
    mystr.length = 66 ∧ hash = (sha256 (hashdownInput mystr)).toBytes := by
  obtain ⟨_, hassert, h⟩ := bind_eq_ok.mp h
  split at h
  · refine ⟨?_, (Except.ok.inj h).symm⟩
    by_contra hlen
    simp [hlen] at hassert
  · exact absurd h (by simp)

def isDoubleNode (node : MerkleSet.Node) : Bool :=
  match node.isDouble with
  | .ok b => b
  | .error _ => false

def collapses (child0 child1 : MerkleSet.Node) : Bool :=
  (child0.isEmpty && isDoubleNode child1) || (child1.isEmpty && isDoubleNode child0)

lemma middleNode_eq_ok {child0 child1 : MerkleSet.Node} (h : middleNode sha256 child0 child1 = .ok node) :
    (child0 = .empty ∧ child1.isDouble = .ok true ∧ node = .middle child0 child1 child1.hash) ∨
    (child1 = .empty ∧ child0.isDouble = .ok true ∧ node = .middle child0 child1 child0.hash) ∨
    (collapses child0 child1 = false ∧ (child0.getHash ++ child1.getHash).length = 66 ∧ node = .middle child0 child1
        (sha256 (hashdownInput (child0.getHash ++ child1.getHash))).toBytes) := by
  have hempty : ∀ n : MerkleSet.Node, n.isEmpty = true → n = .empty := by
    intro n hn
    cases n <;> simp [MerkleSet.Node.isEmpty] at hn ⊢
  have hdouble : ∀ (n n' : MerkleSet.Node) (b : Bool), (if n.isEmpty then n'.isDouble else pure false) = .ok b →
      b = (n.isEmpty && isDoubleNode n') ∧ (b = true → n = .empty ∧ n'.isDouble = .ok true) := by
    intro n n' b hb
    cases hn : n.isEmpty with
    | false =>
      rw [hn] at hb
      simp at hb
      simp [← hb]
    | true =>
      rw [hn, if_pos rfl] at hb
      refine ⟨by simp [isDoubleNode, hb], fun htrue => ⟨hempty n hn, htrue ▸ hb⟩⟩
  obtain ⟨double1, hdouble1, h⟩ := bind_eq_ok.mp h
  obtain ⟨heq1, htrue1⟩ := hdouble _ _ _ hdouble1
  cases double1 with
  | true =>
    exact .inl ⟨(htrue1 rfl).1, (htrue1 rfl).2, (Except.ok.inj h).symm⟩
  | false =>
    obtain ⟨double0, hdouble0, h⟩ := bind_eq_ok.mp h
    obtain ⟨heq0, htrue0⟩ := hdouble _ _ _ hdouble0
    cases double0 with
    | true =>
      exact .inr (.inl ⟨(htrue0 rfl).1, (htrue0 rfl).2, (Except.ok.inj h).symm⟩)
    | false =>
      right
      right
      -- the three checks on the shape passed
      rw [if_neg Bool.false_ne_true] at h
      split at h
      · exact absurd h (by simp)
      split at h
      · exact absurd h (by simp)
      split at h
      · exact absurd h (by simp)
      obtain ⟨hash, hhash, h⟩ := bind_eq_ok.mp h
      obtain ⟨hlen, rfl⟩ := hashdown_eq_ok hhash
      refine ⟨?_, hlen, (Except.ok.inj h).symm⟩
      unfold collapses
      rw [← heq1, ← heq0]
      rfl

def hashed : MerkleSet.Node → List Bytes
  | .middle child0 child1 _ =>
    (hashed child0 ++ hashed child1) ++
      if collapses child0 child1 then []
      else [hashdownInput (child0.getHash ++ child1.getHash)]
  | _ => []

lemma Audited.hash_length (h : Audited sha256 bits node) : node.hash.length = 32 := by
  induction h with
  | empty bits => rfl
  | terminal bits v hlen hv => exact v.length_eq
  | truncated bits hash => exact hash.length_eq
  | middle h0 h1 hmiddle ih0 ih1 =>
    obtain ⟨_, _, heq⟩ | ⟨_, _, heq⟩ | ⟨_, _, heq⟩ := middleNode_eq_ok hmiddle
    · rw [heq]
      exact ih1
    · rw [heq]
      exact ih0
    · rw [heq]
      simp [MerkleSet.Node.hash]

lemma getHash_length (h : node.hash.length = 32) : node.getHash.length = 33 := by
  cases node <;> simp_all [getHash, MerkleSet.Node.hash, EMPTY, TERMINAL, MIDDLE, BLANK_length]

def pairInput (a b : Bytes32) : Bytes :=
  hashdownInput ((TERMINAL ++ a.toBytes) ++ (TERMINAL ++ b.toBytes))

lemma Audited.double (h : Audited sha256 bits node) (hdouble : node.isDouble = .ok true) :
    ∃ a b, Follows bits a ∧ Follows bits b ∧ node.hash = (sha256 (pairInput a b)).toBytes ∧
      pairInput a b ∈ hashed node := by
  induction h with
  | empty bits => exact absurd hdouble (by simp [isDouble])
  | terminal bits v hlen hv => exact absurd hdouble (by simp [isDouble])
  | truncated bits hash => exact absurd hdouble (by simp [isDouble])
  | @middle bits child0 child1 hash h0 h1 hmiddle ih0 ih1 =>
    have hcases := middleNode_eq_ok hmiddle
    unfold isDouble at hdouble
    by_cases he0 : child0.isEmpty = true
    · -- the two values lie below `child1`
      rw [if_pos he0] at hdouble
      obtain ⟨a, b, ha, hb, hhash, hmem⟩ := ih1 hdouble
      have hcollapse : collapses child0 child1 = true := by
        simp [collapses, he0, isDoubleNode, hdouble]
      refine ⟨a, b, (follows_append.mp ha).1, (follows_append.mp hb).1, ?_, ?_⟩
      · rcases hcases with ⟨_, _, heq⟩ | ⟨hempty, _, _⟩ | ⟨hno, _, _⟩
        · rw [heq]
          exact hhash
        · rw [hempty] at hdouble
          exact absurd hdouble (by simp [isDouble])
        · exact absurd (hcollapse.symm.trans hno) (by decide)
      · simp [hashed, hmem]
    · rw [if_neg he0] at hdouble
      by_cases he1 : child1.isEmpty = true
      · rw [if_pos he1] at hdouble
        obtain ⟨a, b, ha, hb, hhash, hmem⟩ := ih0 hdouble
        have hcollapse : collapses child0 child1 = true := by
          simp [collapses, he1, isDoubleNode, hdouble]
        refine ⟨a, b, (follows_append.mp ha).1, (follows_append.mp hb).1, ?_, ?_⟩
        · rcases hcases with ⟨hempty, _, _⟩ | ⟨_, _, heq⟩ | ⟨hno, _, _⟩
          · rw [hempty] at hdouble
            exact absurd hdouble (by simp [isDouble])
          · rw [heq]
            exact hhash
          · exact absurd (hcollapse.symm.trans hno) (by decide)
        · simp [hashed, hmem]
      · -- the node itself separates two terminals
        rw [if_neg he1] at hdouble
        have hterminal := Bool.and_eq_true_iff.mp (Except.ok.inj hdouble)
        rcases hcases with ⟨hempty, _, _⟩ | ⟨hempty, _, _⟩ | ⟨hno, _, heq⟩
        · exact absurd rfl (hempty ▸ he0)
        · exact absurd rfl (hempty ▸ he1)
        cases h0 with
        | terminal _ a _ ha =>
          cases h1 with
          | terminal _ b _ hb =>
            refine ⟨a, b, (follows_append.mp ha).1, (follows_append.mp hb).1, ?_, ?_⟩
            · rw [heq]
              rfl
            · simp [hashed, hno, pairInput, getHash]
          | _ => exact absurd hterminal.2 (by simp [isTerminal])
        | _ => exact absurd hterminal.1 (by simp [isTerminal])

def serialize : MerkleSet.Node → Bytes
  | .empty => EMPTY
  | .terminal hash => TERMINAL ++ hash
  | .middle child0 child1 _ => MIDDLE ++ serialize child0 ++ serialize child1
  | .truncated hash => TRUNCATED ++ hash

lemma auditFrom_length (hpos : pos ≤ 256) (h : auditFrom v.toBytes pos bits = .ok ()) : pos + bits.length ≤ 256 := by
  induction bits generalizing pos with
  | nil => simpa using hpos
  | cons b bits ih =>
    obtain ⟨x, hx, h⟩ := bind_eq_ok.mp h
    obtain ⟨_, _, h⟩ := bind_eq_ok.mp h
    have hlt : pos < 256 := by
      by_contra hge
      have hnone : v.toBytes[pos / 8]? = none := by
        apply getElem?_eq_none
        rw [v.length_eq]
        omega
      simp [getBit, hnone] at hx
    have := ih (by omega) h
    rw [length_cons]
    omega

lemma terminalNode_eq_ok {hash : Bytes} {bits : List Bool} {node : MerkleSet.Node}
    (h : terminalNode hash (some bits) = .ok node) : Audited sha256 bits node ∧ node = .terminal hash := by
  obtain ⟨_, hassert, h⟩ := bind_eq_ok.mp h
  obtain ⟨_, haudit, h⟩ := bind_eq_ok.mp h
  have hlen : hash.length = 32 := by
    by_contra hlen
    simp [hlen] at hassert
  obtain rfl := (Except.ok.inj h)
  let v : Bytes32 := ⟨hash, hlen⟩
  have hbits := auditFrom_length (v := v) (Nat.zero_le 256) haudit
  rw [Nat.zero_add] at hbits
  have hfollows := (auditFrom_eq_ok (v := v) (by omega)).mp haudit
  simp only [Nat.zero_add] at hfollows
  exact ⟨.terminal bits v hbits hfollows, rfl⟩

lemma audited_deserializeFrom {proof : Bytes} {levels pos' : ℕ}
    (h : deserializeFrom sha256 proof levels pos bits = .ok (node, pos'))
    (hpos' : pos' ≤ proof.length) : pos ≤ pos' ∧ Audited sha256 bits node := by
  induction levels generalizing pos pos' bits node with
  | zero => exact absurd h (by simp [deserializeFrom])
  | succ levels ih =>
    unfold deserializeFrom at h
    simp only at h
    split at h
    · obtain ⟨rfl, rfl⟩ := Prod.mk.inj (Except.ok.inj h)
      exact ⟨by omega, .empty bits⟩
    split at h
    · obtain ⟨terminal, hterminal, h⟩ := bind_eq_ok.mp h
      obtain ⟨rfl, rfl⟩ := Prod.mk.inj (Except.ok.inj h)
      exact ⟨by omega, (terminalNode_eq_ok hterminal).1⟩
    split at h
    · obtain ⟨rfl, rfl⟩ := Prod.mk.inj (Except.ok.inj h)
      have hlen : ((proof.drop (pos + 1)).take 32).length = 32 := by
        rw [length_take, length_drop]
        omega
      exact ⟨by omega, .truncated bits ⟨_, hlen⟩⟩
    split at h
    · exact absurd h (by simp)
    obtain ⟨⟨child0, pos0⟩, hread0, h⟩ := bind_eq_ok.mp h
    obtain ⟨⟨child1, pos1⟩, hread1, h⟩ := bind_eq_ok.mp h
    obtain ⟨middle, hmiddle, h⟩ := bind_eq_ok.mp h
    obtain ⟨rfl, rfl⟩ := Prod.mk.inj (Except.ok.inj h)
    obtain ⟨hle1, haudited1⟩ := ih hread1 hpos'
    obtain ⟨hle0, haudited0⟩ := ih hread0 (by omega)
    refine ⟨by omega, ?_⟩
    have hshape : ∃ hash, middle = .middle child0 child1 hash := by
      obtain ⟨_, _, heq⟩ | ⟨_, _, heq⟩ | ⟨_, _, heq⟩ := middleNode_eq_ok hmiddle <;>
        exact ⟨_, heq⟩
    obtain ⟨hash, rfl⟩ := hshape
    exact .middle haudited0 haudited1 hmiddle

/-- The calls that are nested when the node is read. -/
def nestedCalls : MerkleSet.Node → ℕ
  | .middle child0 child1 _ => max (nestedCalls child0) (nestedCalls child1) + 1
  | _ => 1

lemma terminalNode_follows (hlen : bits.length ≤ 256)
    (hv : Follows bits v) : terminalNode v.toBytes (some bits) = .ok (.terminal v.toBytes) := by
  have haudit : auditFrom v.toBytes 0 bits = .ok () := by
    refine (auditFrom_eq_ok (by omega)).mpr (fun i hi => ?_)
    rw [Nat.zero_add]
    exact hv i hi
  unfold terminalNode
  simp [haudit]

lemma deserializeFrom_serialize (h : Audited sha256 bits node) (before after : Bytes) (levels : ℕ)
    (hlevels : nestedCalls node ≤ levels) :
    deserializeFrom sha256 (before ++ serialize node ++ after) levels before.length bits =
      .ok (node, before.length + (serialize node).length) := by
  induction h generalizing before after levels with
  | empty bits =>
    obtain ⟨levels, rfl⟩ := Nat.exists_eq_add_of_le' (m := 1) hlevels
    simp [serialize, EMPTY, deserializeFrom]
  | terminal bits v hlen hv =>
    obtain ⟨levels, rfl⟩ := Nat.exists_eq_add_of_le' (m := 1) hlevels
    have htake : (v.toBytes ++ after).take 32 = v.toBytes := take_left' v.length_eq
    simp [serialize, EMPTY, TERMINAL, deserializeFrom, htake, terminalNode_follows hlen hv]
  | truncated bits hash =>
    obtain ⟨levels, rfl⟩ := Nat.exists_eq_add_of_le' (m := 1) hlevels
    have htake : (hash.toBytes ++ after).take 32 = hash.toBytes := take_left' hash.length_eq
    simp [serialize, EMPTY, TERMINAL, TRUNCATED, deserializeFrom, htake]
  | @middle bits child0 child1 hash h0 h1 hmiddle ih0 ih1 =>
    obtain ⟨levels, rfl⟩ := Nat.exists_eq_add_of_le' (m := 1) (Nat.le_of_add_left_le hlevels)
    have hlen : (serialize (.middle child0 child1 hash)).length =
        1 + (serialize child0).length + (serialize child1).length := by
      simp [serialize, MIDDLE]
      omega
    rw [hlen]
    have hlevels : max (nestedCalls child0) (nestedCalls child1) ≤ levels := Nat.le_of_succ_le_succ hlevels
    let proof := before ++ serialize (.middle child0 child1 hash) ++ after
    have hfirst : (proof.drop before.length).take 1 = MIDDLE := by
      simp [proof, serialize, MIDDLE]
    have hread0 : deserializeFrom sha256 proof levels (before.length + 1) (bits ++ [false]) =
        .ok (child0, before.length + 1 + (serialize child0).length) := by
      have h := ih0 (before ++ MIDDLE) (serialize child1 ++ after) levels (by omega)
      simpa [proof, serialize, MIDDLE] using h
    have hread1 : deserializeFrom sha256 proof levels
        (before.length + 1 + (serialize child0).length) (bits ++ [true]) =
        .ok (child1, before.length + 1 + (serialize child0).length +
          (serialize child1).length) := by
      have h := ih1 (before ++ MIDDLE ++ serialize child0) after levels (by omega)
      simpa [proof, serialize, MIDDLE, Nat.add_assoc, Nat.add_comm 1, Nat.add_left_comm 1] using h
    change deserializeFrom sha256 proof (levels + 1) before.length bits = _
    unfold deserializeFrom
    have hnext : before.length + (1 + (serialize child0).length + (serialize child1).length) =
        before.length + 1 + (serialize child0).length + (serialize child1).length := by omega
    rw [hnext]
    simp [hfirst, hread0, hread1, hmiddle, MIDDLE, EMPTY, TERMINAL, TRUNCATED]

lemma AgreeBelow.of_follows (h : ∀ x ∈ S, Follows bits x) : AgreeBelow bits.length S := by
  intro x hx y hy i hi
  exact Option.some.inj ((h x hx i hi).symm.trans (h y hy i hi))

lemma follows_side (h : ∀ x ∈ S, Follows bits x) (b : Bool) :
    ∀ x ∈ side bit S bits.length b, Follows (bits ++ [b]) x := by
  intro x hx
  exact follows_append.mpr ⟨h x hx.1, hx.2⟩

lemma audited_ofTrie {d : ℕ} {t : BitTrie Bytes32} (h : Canon bit d t S) (hbits : bits.length = d) (hd : d ≤ 256)
    (hS : ∀ x ∈ S, Follows bits x) : Audited sha256 bits (ofTrie sha256 t) := by
  induction h generalizing bits with
  | empty d => exact .empty bits
  | leaf d a => exact .terminal bits a (by omega) (hS a rfl)
  | @node d l r S hnt hl hr ihl ihr =>
    subst hbits
    have hagree := AgreeBelow.of_follows hS
    have hlt := hagree.lt hnt
    exact .middle (ihl (by simp) (by omega) (follows_side hS false))
      (ihr (by simp) (by omega) (follows_side hS true))
      (middleNode_ofTrie (.node hnt hl hr) hagree hlt)

end Hash

end SectorChain.Proofs
