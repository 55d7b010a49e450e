import Mathlib.Data.Finset.Image
import SectorChain.Proofs.MerkleSoundness

/-!
# The proof checkers

Those that hash the value themselves both ask for its absence.
-/

namespace SectorChain.Proofs
open Lib MerkleSet List
open MerkleSet.Node (getHash isIncluded isDouble otherIncluded isTerminal)

variable {bits : List Bool} {child0 node : MerkleSet.Node} {hash : Bytes} {levels pos : ℕ} {α β : Type}
variable {child1 : MerkleSet.Node} {e : PyError} {expected : Bool} {f : α → Except PyError β} {next : ℕ} {root : Bytes}
  {x : Except PyError α}

section Hash

variable [RecursionLimit] (sha256 : Bytes → Bytes32)

/-- `proof` is what the set writes down when it is asked about `val`. -/
def Generated (m : MerkleSet) (val proof : Bytes) : Prop :=
  ∃ r, m.isIncludedAlreadyHashed val = .ok (r, proof)

/-- A verdict on a proof of `fact`: true only if the fact holds, and true for the generated proof. -/
structure MeansIt (m : MerkleSet) (val proof : Bytes) (fact : Prop)
    (verdict : Except PyError Bool) : Prop where
  sound : verdict = .ok true → fact
  complete : fact → Generated m val proof → verdict = .ok true

/-- `confirm_not_included` means what it says. `confirm_included` does not, for no set and no value: it refuses the proof
generated for a member, and accepts the one generated for another value. -/
theorem hashing_checkers_mean (V : Finset Bytes) (ops : List Op) (m : MerkleSet) (root v : Bytes)
    (hV : net ops ∅ = V.image sha256) (hrun : run sha256 ops {} = .ok m) (hroot : m.getRoot sha256 = .ok root)
    (hinj : ∀ x ∈ V, sha256 x = sha256 v → x = v) :
    (∃ proof, Generated m (sha256 v).toBytes proof) ∧
      ∀ proof, CollisionFree sha256 (rootHashed m ++ proofHashed sha256 proof) →
        MeansIt m (sha256 v).toBytes proof (v ∉ V) (confirmNotIncluded sha256 root v proof) ∧
        (Generated m (sha256 v).toBytes proof →
          ¬ MeansIt m (sha256 v).toBytes proof (v ∈ V) (confirmIncluded sha256 root v proof)) := by
  obtain ⟨m', hrun', hstores⟩ := stores_run sha256 ops
  obtain rfl := Except.ok.inj (hrun.symm.trans hrun')
  have hmem : sha256 v ∈ (net ops ∅ : Set Bytes32) ↔ v ∈ V := by
    rw [hV, Finset.mem_coe, Finset.mem_image]
    exact ⟨fun ⟨x, hx, heq⟩ => hinj x hx heq ▸ hx, fun hv => ⟨v, hv, rfl⟩⟩
  obtain ⟨r, proof, -, hr, -⟩ := hstores.isIncluded (sha256 v)
  refine ⟨⟨proof, r, hr⟩, fun proof hfree => ?_⟩
  -- both checkers ask for a proof of absence
  have hsound : confirm sha256 root (sha256 v).toBytes proof false = .ok true → v ∉ V := by
    intro hconfirm hv
    exact Bool.false_ne_true ((hstores.of_confirm hroot hfree hconfirm).mpr (hmem.mpr hv))
  have hcomplete : v ∉ V → Generated m (sha256 v).toBytes proof →
      confirm sha256 root (sha256 v).toBytes proof false = .ok true := by
    rintro hv ⟨r, hr⟩
    obtain ⟨hiff, -, hgenerated⟩ := hstores.generated_confirmed hroot hr
    have hfalse : r = false := Bool.eq_false_iff.mpr fun h => hv (hmem.mp (hiff.mp h))
    exact hfalse ▸ hgenerated
  refine ⟨⟨hsound, hcomplete⟩, fun hgenerated hmeans => ?_⟩
  by_cases hv : v ∈ V
  · exact hsound (hmeans.complete hv hgenerated) hv
  · exact hv (hmeans.sound (hcomplete hv hgenerated))

end Hash

/-- Two byte strings have the values of the set of two as their hashes. -/
def wordDigest (x : Bytes) : Bytes32 :=
  if x = [1] then valueOne else if x = [2] then valueTwo else pairDigest x

/-- The proof generated for the first of two members is not accepted. -/
theorem hashing_checkers_mean_pair :
    Generated pairSet (wordDigest [1]).toBytes pairProof ∧
      ¬ MeansIt pairSet (wordDigest [1]).toBytes pairProof ([1] ∈ ({[1], [2]} : Finset Bytes))
        (confirmIncluded wordDigest (pairDigest (pairInput valueOne valueTwo)).toBytes [1] pairProof) := by
  have hgenerated : Generated pairSet (wordDigest [1]).toBytes pairProof := ⟨true, by decide +kernel⟩
  have hinputs : ∀ x ∈ rootHashed pairSet ++ proofHashed wordDigest pairProof,
      x = pairInput valueOne valueTwo := by decide +kernel
  refine ⟨hgenerated, ((hashing_checkers_mean wordDigest {[1], [2]} [.add valueTwo, .add valueOne] pairSet _ [1]
    (by decide +kernel) (by decide +kernel) (by decide +kernel) (by decide +kernel)).2 pairProof ⟨?_, ?_⟩).2 hgenerated⟩
  · intro x hx y hy _
    rw [hinputs x hx, hinputs y hy]
  · intro x hx
    rw [hinputs x hx]
    decide +kernel

/-- The empty set's proof of absence is confirmed as a proof of inclusion. -/
theorem absence_confirmed_as_inclusion :
    run pairDigest [] {} = .ok {} ∧ getRoot pairDigest {} = .ok BLANK ∧ Generated {} (pairDigest [7]).toBytes EMPTY ∧
      confirmIncluded pairDigest BLANK [7] EMPTY = .ok true ∧ [7] ∉ (∅ : Finset Bytes) := by
  refine ⟨rfl, rfl, ⟨false, rfl⟩, by decide +kernel, Finset.notMem_empty _⟩

section Total

/-- An exception that neither `deserialize_proof` nor `_confirm` turns into a rejection. -/
def Raises {α : Type} (x : Except PyError α) : Prop :=
  ∃ e, x = .error e ∧ e ≠ .setError ∧ e ≠ .indexError

def typeAt (proof : Bytes) (pos : ℕ) : Bytes := (proof.drop pos).take 1

def hashAt (proof : Bytes) (pos : ℕ) : Bytes := (proof.drop (pos + 1)).take 32

/-- Reading comes to a node at this position: a right child only once the left one was read. -/
inductive Comes [RecursionLimit] (sha256 : Bytes → Bytes32) (proof : Bytes) : ℕ → List Bool → Prop
  | root : Comes sha256 proof 0 []
  | left {pos : ℕ} {bits : List Bool} (h : Comes sha256 proof pos bits)
      (hmiddle : typeAt proof pos = MIDDLE) : Comes sha256 proof (pos + 1) (bits ++ [false])
  | right {pos next : ℕ} {bits : List Bool} {node : MerkleSet.Node} (h : Comes sha256 proof pos bits)
      (hmiddle : typeAt proof pos = MIDDLE)
      (hleft : deserializeFrom sha256 proof (RecursionLimit.calls - (bits.length + 1)) (pos + 1)
        (bits ++ [false]) = .ok (node, next)) : Comes sha256 proof next (bits ++ [true])

/-- The node at `pos` is not too deep and trips no assertion: hashes are complete and lie on their paths. -/
structure WellFormed [RecursionLimit] (proof : Bytes) (pos : ℕ) (bits : List Bool) : Prop where
  shallow : bits.length < RecursionLimit.calls
  terminal : typeAt proof pos = TERMINAL → ∃ v : Bytes32, hashAt proof pos = v.toBytes ∧ Follows (bits.take 256) v
  truncated : bits.getLast? = some true → typeAt proof pos = TRUNCATED → (hashAt proof pos).length = 32

/-- The path of `v` leads to a middle node below its last bit. -/
def overruns (v : Bytes32) : MerkleSet.Node → ℕ → Bool
  | .middle child0 child1 _, depth =>
    if depth < 256 then
      if bit v depth then overruns v child1 (depth + 1) else overruns v child0 (depth + 1)
    else true
  | _, _ => false

section Reading

variable {sha256 : Bytes → Bytes32} {proof : Bytes}

lemma Raises.bind (h : Raises x) (f : α → Except PyError β) : Raises (x >>= f) := by
  obtain ⟨e, rfl, he⟩ := h
  exact ⟨e, rfl, he⟩

lemma not_raises_bind (hx : ¬ Raises x) (hf : ∀ a, ¬ Raises (f a)) : ¬ Raises (x >>= f) := by
  cases x with
  | ok a => exact hf a
  | error e =>
    rintro ⟨e', he, hne⟩
    exact hx ⟨e, rfl, Except.error.inj he ▸ hne⟩

lemma not_raises_ok (a : α) : ¬ Raises (.ok a : Except PyError α) := by
  rintro ⟨e, he, -⟩
  cases he

lemma not_raises_setError : ¬ Raises (.error .setError : Except PyError α) := by
  rintro ⟨e, he, hne, -⟩
  exact hne (Except.error.inj he).symm

lemma raises_assertion : Raises (.error .assertionError : Except PyError α) :=
  ⟨_, rfl, nofun, nofun⟩

lemma getBit_beyond (v : Bytes32) {d : ℕ} (hd : ¬ d < 256) : getBit v.toBytes d = .error .indexError := by
  have hnone : v.toBytes[d / 8]? = none := by
    apply getElem?_eq_none
    rw [v.length_eq]
    omega
  simp [getBit, hnone]

lemma raises_auditFrom {v : Bytes32} : Raises (auditFrom v.toBytes pos bits) ↔
      ¬ ∀ i, i < bits.length → pos + i < 256 → bits[i]? = some (bit v (pos + i)) := by
  induction bits generalizing pos with
  | nil => simp [auditFrom, not_raises_ok]
  | cons b bits ih =>
    unfold auditFrom
    by_cases hpos : pos < 256
    · rw [getBit_eq v hpos, ok_bind]
      by_cases hb : bit v pos = b
      · rw [hb, beq_self_eq_true, pyAssert_true, ok_bind, ih, not_iff_not]
        constructor
        · intro h i hi hlt
          cases i with
          | zero => simp [hb]
          | succ i =>
            have := h i (by simpa using hi) (by omega)
            rwa [← Nat.add_assoc, Nat.add_right_comm]
        · intro h i hi hlt
          have := h (i + 1) (by simpa using hi) (by omega)
          rwa [← Nat.add_assoc, Nat.add_right_comm] at this
      · rw [beq_false_of_ne hb]
        refine iff_of_true (raises_assertion.bind _) fun h => ?_
        have h0 := h 0 (by simp) hpos
        exact hb (Option.some.inj h0).symm
    · rw [getBit_beyond v hpos]
      refine iff_of_false ?_ (not_not.mpr fun i _ hlt => absurd hlt (by omega))
      rintro ⟨e, he, -, hne⟩
      exact hne (Except.error.inj he).symm

lemma raises_terminalNode :
    Raises (terminalNode hash (some bits)) ↔ ¬ ∃ v : Bytes32, hash = v.toBytes ∧ Follows (bits.take 256) v := by
  by_cases hlen : hash.length = 32
  · obtain ⟨v, rfl⟩ : ∃ v : Bytes32, hash = v.toBytes := ⟨⟨hash, hlen⟩, rfl⟩
    have hraises : Raises (terminalNode v.toBytes (some bits)) ↔ Raises (auditFrom v.toBytes 0 bits) := by
      unfold terminalNode
      simp only [hlen, decide_true, pyAssert_true, ok_bind]
      cases haudit : auditFrom v.toBytes 0 bits with
      | ok u => exact iff_of_false (not_raises_ok _) (not_raises_ok _)
      | error e => simp [Raises]
    rw [hraises, raises_auditFrom, not_iff_not]
    constructor
    · intro h
      refine ⟨v, rfl, fun i hi => ?_⟩
      rw [length_take] at hi
      rw [getElem?_take_of_lt (by omega), h i (by omega) (by omega), Nat.zero_add]
    rintro ⟨w, hw, h⟩ i hi hlt
    rw [SizedBytes.toBytes_injective hw, Nat.zero_add]
    rw [Nat.zero_add] at hlt
    have := h i (by rw [length_take]; omega)
    rwa [getElem?_take_of_lt hlt] at this
  · refine iff_of_true ?_ ?_
    · unfold terminalNode
      rw [decide_eq_false hlen]
      exact raises_assertion.bind _
    · rintro ⟨v, rfl, -⟩
      exact hlen v.length_eq

lemma isDouble_eq_error (h : node.isDouble = .error e) : e = .setError := by
  induction node with
  | empty => exact (Except.error.inj h).symm
  | terminal hash => exact (Except.error.inj h).symm
  | middle child0 child1 hash ih0 ih1 =>
    unfold isDouble at h
    split at h
    · exact ih1 h
    split at h
    · exact ih0 h
    · cases h
  | truncated hash => cases h

/-- Nodes with complete hashes are joined or rejected. -/
lemma not_raises_middleNode (h0 : child0.hash.length = 32)
    (h1 : child1.hash.length = 32) : ¬ Raises (middleNode sha256 child0 child1) := by
  have hdouble : ∀ (c : Bool) (n : MerkleSet.Node),
      ¬ Raises (if c then n.isDouble else pure false : Except PyError Bool) := by
    rintro c n ⟨e, he, hne, -⟩
    split at he
    · exact hne (isDouble_eq_error he)
    · cases he
  have hhash : ∃ hash, hashdown sha256 (child0.getHash ++ child1.getHash) = .ok hash := by
    have hkey : hashdownKey (child0.getHash ++ child1.getHash) ∈ prehashed := by
      cases child0 <;> cases child1 <;> exact hashdownKey_cons h0 ▸ (by decide)
    unfold hashdown
    rw [if_pos hkey]
    simp [getHash_length h0, getHash_length h1]
  obtain ⟨hash, hhash⟩ := hhash
  refine not_raises_bind (hdouble _ _) fun double1 => ?_
  split
  · exact not_raises_ok _
  refine not_raises_bind (hdouble _ _) fun double0 => ?_
  split
  · exact not_raises_ok _
  dsimp only
  split
  · exact not_raises_setError
  split
  · exact not_raises_setError
  split
  · exact not_raises_setError
  rw [hhash]
  exact not_raises_ok _

lemma raises_middleNode (h0 : child0.hash.length = 32)
    (hlen : hash.length ≠ 32) : Raises (middleNode sha256 child0 (.truncated hash)) := by
  have hassert : hashdown sha256 (child0.getHash ++ getHash (.truncated hash)) = .error .assertionError := by
    have : ((child0.getHash ++ getHash (.truncated hash)).length = 66) = False := by
      rw [length_append, getHash_length h0]
      simp [getHash, MIDDLE]
      omega
    unfold hashdown
    simp only [this, decide_false, pyAssert_false, error_bind]
  refine ⟨.assertionError, ?_, by decide, by decide⟩
  unfold middleNode
  rw [hassert]
  cases child0 <;> simp [MerkleSet.Node.isEmpty, isTerminal, isDouble]

lemma raises_bind (h : Raises (x >>= f)) : Raises x ∨ ∃ a, x = .ok a ∧ Raises (f a) := by
  cases x with
  | ok a => exact .inr ⟨a, rfl, h⟩
  | error e =>
    obtain ⟨e', he, hne⟩ := h
    exact .inl ⟨e, rfl, Except.error.inj he ▸ hne⟩

lemma deserializeFrom_middle (h : typeAt proof pos = MIDDLE) :
    deserializeFrom sha256 proof (levels + 1) pos bits = (do
      let (v0, pos) ← deserializeFrom sha256 proof levels (pos + 1) (bits ++ [false])
      let (v1, pos) ← deserializeFrom sha256 proof levels pos (bits ++ [true])
      return (← middleNode sha256 v0 v1, pos)) := by
  have h' : (proof.drop pos).take 1 = MIDDLE := h
  simp [deserializeFrom, h', EMPTY, TERMINAL, TRUNCATED, MIDDLE]

lemma deserializeFrom_hash (h : deserializeFrom sha256 proof levels pos bits = .ok (node, next)) :
    pos < proof.length ∧ pos < next ∧ (node.hash.length = 32 ∨
      typeAt proof pos = TRUNCATED ∧ node = .truncated (hashAt proof pos)) := by
  induction levels generalizing pos next bits node with
  | zero => cases h
  | succ levels ih =>
    have hpos : pos < proof.length := by
      by_contra hge
      have htype : (proof.drop pos).take 1 = [] := by
        rw [drop_eq_nil_of_le (by omega), take_nil]
      simp [deserializeFrom, htype, EMPTY, TERMINAL, TRUNCATED, MIDDLE] at h
    refine ⟨hpos, ?_⟩
    by_cases hmiddle : typeAt proof pos = MIDDLE
    · rw [deserializeFrom_middle hmiddle] at h
      obtain ⟨⟨child0, pos0⟩, hread0, h⟩ := bind_eq_ok.mp h
      obtain ⟨⟨child1, pos1⟩, hread1, h⟩ := bind_eq_ok.mp h
      obtain ⟨middle, hjoin, h⟩ := bind_eq_ok.mp h
      obtain ⟨rfl, rfl⟩ := Prod.mk.inj (Except.ok.inj h)
      obtain ⟨-, hlt0, hhash0⟩ := ih hread0
      obtain ⟨-, hlt1, hhash1⟩ := ih hread1
      refine ⟨by omega, .inl ?_⟩
      -- a child that hands its hash on is over two values, hence not truncated
      obtain ⟨-, hdouble, rfl⟩ | ⟨-, hdouble, rfl⟩ | ⟨-, -, rfl⟩ := middleNode_eq_ok hjoin
      · obtain hhash | ⟨-, rfl⟩ := hhash1
        · exact hhash
        · cases hdouble
      · obtain hhash | ⟨-, rfl⟩ := hhash0
        · exact hhash
        · cases hdouble
      · exact SizedBytes.length_eq _
    · unfold deserializeFrom at h
      simp only at h
      split at h
      · obtain ⟨rfl, rfl⟩ := Prod.mk.inj (Except.ok.inj h)
        exact ⟨by omega, .inl rfl⟩
      split at h
      · obtain ⟨terminal, hterminal, h⟩ := bind_eq_ok.mp h
        obtain ⟨rfl, rfl⟩ := Prod.mk.inj (Except.ok.inj h)
        exact ⟨by omega, .inl (@terminalNode_eq_ok sha256 _ _ _ hterminal).1.hash_length⟩
      split at h
      · rename_i htype
        obtain ⟨rfl, rfl⟩ := Prod.mk.inj (Except.ok.inj h)
        exact ⟨by omega, .inr ⟨htype, rfl⟩⟩
      split at h
      · cases h
      · rename_i htype
        exact absurd (not_not.mp htype) hmiddle

lemma hash_of_left (h : deserializeFrom sha256 proof levels pos bits = .ok (node, next))
    (hnext : next < proof.length) : node.hash.length = 32 :=
  (audited_deserializeFrom h hnext.le).2.hash_length

lemma raises_deserializeFrom_terminal (htype : typeAt proof pos = TERMINAL) :
    Raises (deserializeFrom sha256 proof (levels + 1) pos bits) ↔
      ¬ ∃ v : Bytes32, hashAt proof pos = v.toBytes ∧ Follows (bits.take 256) v := by
  have htype' : (proof.drop pos).take 1 = TERMINAL := htype
  rw [← raises_terminalNode]
  have hread : deserializeFrom sha256 proof (levels + 1) pos bits =
      (do return (← terminalNode (hashAt proof pos) (some bits), pos + 33)) := by
    simp [deserializeFrom, htype', hashAt, EMPTY, TERMINAL]
  rw [hread]
  constructor
  · intro h
    obtain h | ⟨node, -, h⟩ := raises_bind h
    · exact h
    · exact absurd h (not_raises_ok _)
  · exact fun h => h.bind _

lemma raises_recursion : Raises (deserializeFrom sha256 proof 0 pos bits) := ⟨_, rfl, nofun, nofun⟩

variable [RecursionLimit]

lemma exists_malformed (hcomes : Comes sha256 proof pos bits) (hlevels : levels + bits.length = RecursionLimit.calls)
    (h : Raises (deserializeFrom sha256 proof levels pos bits)) :
    ∃ pos' bits', Comes sha256 proof pos' bits' ∧ ¬ WellFormed proof pos' bits' := by
  induction levels generalizing pos bits with
  | zero => exact ⟨pos, bits, hcomes, fun hwell => absurd hwell.shallow (by omega)⟩
  | succ levels ih =>
    have hlength (b : Bool) : levels + (bits ++ [b]).length = RecursionLimit.calls := by
      rw [length_append, length_singleton]
      omega
    by_cases hmiddle : typeAt proof pos = MIDDLE
    · rw [deserializeFrom_middle hmiddle] at h
      obtain h | ⟨⟨child0, pos0⟩, hread0, h⟩ := raises_bind h
      · exact ih (hcomes.left hmiddle) (hlength false) h
      have hright : Comes sha256 proof pos0 (bits ++ [true]) := by
        rw [show levels = RecursionLimit.calls - (bits.length + 1) by omega] at hread0
        exact hcomes.right hmiddle hread0
      obtain h | ⟨⟨child1, pos1⟩, hread1, h⟩ := raises_bind h
      · exact ih hright (hlength true) h
      obtain h | ⟨_, -, h⟩ := raises_bind h
      · refine ⟨pos0, _, hright, fun hwell => ?_⟩
        obtain ⟨hpos0, -, hhash1⟩ := deserializeFrom_hash hread1
        refine not_raises_middleNode (hash_of_left hread0 hpos0) ?_ h
        obtain hhash | ⟨htype, rfl⟩ := hhash1
        · exact hhash
        · exact hwell.truncated (by simp) htype
      · exact absurd h (not_raises_ok _)
    · by_cases hterminal : typeAt proof pos = TERMINAL
      · exact ⟨pos, bits, hcomes, fun hwell =>
          (raises_deserializeFrom_terminal hterminal).mp h (hwell.terminal hterminal)⟩
      refine absurd h ?_
      unfold deserializeFrom
      simp only
      split
      · exact not_raises_ok _
      split
      · contradiction
      split
      · exact not_raises_ok _
      split
      · exact not_raises_setError
      · rename_i htype
        exact absurd (not_not.mp htype) hmiddle

/-- What a node raises, the whole proof raises. -/
lemma Comes.raises (h : Comes sha256 proof pos bits)
    (hraises : Raises (deserializeFrom sha256 proof (RecursionLimit.calls - bits.length) pos bits)) :
    Raises (deserializeFrom sha256 proof RecursionLimit.calls 0 []) := by
  -- below a node at the limit nothing is read, so it raises itself
  have hparent : ∀ {pos bits}, (∀ levels, levels = RecursionLimit.calls - (List.length bits + 1) →
      Raises (deserializeFrom sha256 proof (levels + 1) pos bits)) →
      Raises (deserializeFrom sha256 proof (RecursionLimit.calls - bits.length) pos bits) := by
    intro pos bits hsucc
    cases hlevels : RecursionLimit.calls - bits.length with
    | zero => exact raises_recursion
    | succ levels => exact hsucc levels (by omega)
  induction h with
  | root => exact hraises
  | left h hmiddle ih =>
    refine ih (hparent fun levels hlevels => ?_)
    rw [deserializeFrom_middle hmiddle, hlevels]
    rw [length_append, length_singleton] at hraises
    exact hraises.bind _
  | right h hmiddle hleft ih =>
    refine ih (hparent fun levels hlevels => ?_)
    rw [deserializeFrom_middle hmiddle, hlevels, hleft]
    rw [length_append, length_singleton] at hraises
    exact hraises.bind _

lemma Comes.wellFormed (h : Comes sha256 proof pos bits)
    (hno : ¬ Raises (deserializeFrom sha256 proof RecursionLimit.calls 0 [])) : WellFormed proof pos bits := by
  have hshallow : ∀ {pos bits}, Comes sha256 proof pos bits →
      RecursionLimit.calls - bits.length = RecursionLimit.calls - (bits.length + 1) + 1 := by
    intro pos bits h
    by_contra hlt
    refine hno (h.raises ?_)
    rw [show RecursionLimit.calls - bits.length = 0 by omega]
    exact raises_recursion
  refine ⟨by have := hshallow h; omega, ?_, ?_⟩
  · intro htype
    by_contra hv
    refine hno (h.raises ?_)
    rw [hshallow h]
    exact (raises_deserializeFrom_terminal htype).mpr hv
  intro hlast htype
  by_contra hlen
  have hcomes := h
  cases h with
  | root => cases hlast
  | left h hmiddle => simp at hlast
  | @right pos' _ bits node h hmiddle hleft =>
    refine hno (h.raises ?_)
    have hread : deserializeFrom sha256 proof (RecursionLimit.calls - (bits.length + 1)) pos
        (bits ++ [true]) = .ok (.truncated (hashAt proof pos), pos + 33) := by
      have htype' : (proof.drop pos).take 1 = TRUNCATED := htype
      have hlevels := hshallow hcomes
      rw [length_append, length_singleton] at hlevels
      rw [hlevels]
      simp [deserializeFrom, htype', hashAt, EMPTY, TERMINAL, TRUNCATED]
    have hpos : pos < proof.length := (deserializeFrom_hash hread).1
    rw [hshallow h, deserializeFrom_middle hmiddle, hleft, ok_bind]
    dsimp only
    rw [hread]
    exact (raises_middleNode (hash_of_left hleft hpos) hlen).bind _

end Reading

section Asking

variable {sha256 : Bytes → Bytes32} (v : Bytes32)

lemma Audited.isDouble_ok (h : Audited sha256 bits (.middle child0 child1 hash)) :
    ∃ b, (MerkleSet.Node.middle child0 child1 hash).isDouble = .ok b := by
  cases h with
  | middle h0 h1 hmiddle =>
    obtain ⟨double1, hdouble1, hmiddle⟩ := bind_eq_ok.mp hmiddle
    unfold isDouble
    by_cases hempty0 : child0.isEmpty = true
    · rw [if_pos hempty0] at hdouble1 ⊢
      exact ⟨_, hdouble1⟩
    rw [if_neg hempty0] at hdouble1 ⊢
    obtain rfl := Except.ok.inj hdouble1
    obtain ⟨double0, hdouble0, -⟩ := bind_eq_ok.mp hmiddle
    split
    · rename_i hempty1
      rw [if_pos hempty1] at hdouble0
      exact ⟨_, hdouble0⟩
    · exact ⟨_, rfl⟩

omit v in
lemma otherIncluded_of_double (hdouble : node.isDouble = .ok true) (collapse : Bool) (answer : Bool × Bytes) :
    ∃ bs, node.otherIncluded collapse (.ok answer) = .ok bs := by
  cases node with
  | middle child0 child1 hash =>
    cases collapse with
    | true => exact ⟨_, rfl⟩
    | false => exact ⟨answer.2, by simp [otherIncluded, hdouble]⟩
  | _ => cases hdouble

lemma Audited.isIncluded_double (h : Audited sha256 bits node) (hdouble : node.isDouble = .ok true) :
    bits.length < 256 ∧ ∃ answer, node.isIncluded v.toBytes bits.length = .ok answer := by
  induction h with
  | empty bits => cases hdouble
  | terminal bits v hlen hv => cases hdouble
  | truncated bits hash => cases hdouble
  | @middle bits child0 child1 hash h0 h1 hmiddle ih0 ih1 =>
    have hempty : ∀ {n : MerkleSet.Node}, n.isEmpty = true → n = .empty := by
      intro n hn
      cases n <;> simp [MerkleSet.Node.isEmpty] at hn ⊢
    unfold isDouble at hdouble
    unfold isIncluded
    simp only [length_append, length_singleton] at ih0 ih1
    by_cases hempty0 : child0.isEmpty = true
    · obtain rfl := hempty hempty0
      obtain ⟨hlt, answer, hanswer⟩ := ih1 hdouble
      obtain ⟨bs, hbs⟩ := otherIncluded_of_double hdouble false answer
      refine ⟨by omega, ?_⟩
      rw [getBit_eq v (by omega), hanswer]
      cases bit v bits.length
      · exact ⟨_, by simp [isIncluded, MerkleSet.Node.isEmpty, hbs]; rfl⟩
      · exact ⟨_, rfl⟩
    rw [if_neg hempty0] at hdouble
    by_cases hempty1 : child1.isEmpty = true
    · obtain rfl := hempty hempty1
      obtain ⟨hlt, answer, hanswer⟩ := ih0 hdouble
      obtain ⟨bs, hbs⟩ := otherIncluded_of_double hdouble false answer
      refine ⟨by omega, ?_⟩
      rw [getBit_eq v (by omega), hanswer]
      cases bit v bits.length
      · exact ⟨_, rfl⟩
      · exact ⟨_, by simp [isIncluded, MerkleSet.Node.isEmpty, hbs]; rfl⟩
    · rw [if_neg hempty1] at hdouble
      have hterminal := Bool.and_eq_true_iff.mp (Except.ok.inj hdouble)
      cases h0 with
      | terminal _ a hlen _ =>
        cases h1 with
        | terminal _ b _ _ =>
          rw [length_append, length_singleton] at hlen
          refine ⟨by omega, ?_⟩
          rw [getBit_eq v (by omega)]
          cases bit v bits.length <;> exact ⟨_, rfl⟩
        | _ => exact absurd hterminal.2 Bool.false_ne_true
      | _ => exact absurd hterminal.1 Bool.false_ne_true

/-- A sibling always writes itself down. -/
lemma Audited.otherIncluded_ok (h : Audited sha256 bits node) (collapse : Bool) :
    ∃ bs, node.otherIncluded collapse (node.isIncluded v.toBytes bits.length) = .ok bs := by
  cases node with
  | empty => exact ⟨_, rfl⟩
  | terminal hash => exact ⟨_, rfl⟩
  | truncated hash => exact ⟨_, rfl⟩
  | middle child0 child1 hash =>
    obtain ⟨b, hb⟩ := h.isDouble_ok
    cases b with
    | true =>
      obtain ⟨-, answer, hanswer⟩ := h.isIncluded_double v hb
      rw [hanswer]
      exact otherIncluded_of_double hb collapse answer
    | false => exact ⟨TRUNCATED ++ hash, by cases collapse <;> simp [otherIncluded, hb]⟩

lemma Audited.isIncluded_raises (h : Audited sha256 bits node) :
    (∃ e, node.isIncluded v.toBytes bits.length = .error e ∧ e ≠ .setError) ↔ overruns v node bits.length = true := by
  induction h with
  | empty bits => simp [isIncluded, overruns]
  | terminal bits v hlen hv => simp [isIncluded, overruns]
  | truncated bits hash => simp [isIncluded, overruns]
  | @middle bits child0 child1 hash h0 h1 hmiddle ih0 ih1 =>
    unfold isIncluded overruns
    by_cases hlt : bits.length < 256
    · obtain ⟨other0, hother0⟩ := h0.otherIncluded_ok v (!child1.isEmpty)
      obtain ⟨other1, hother1⟩ := h1.otherIncluded_ok v (!child0.isEmpty)
      simp only [length_append, length_singleton] at ih0 ih1 hother0 hother1
      rw [getBit_eq v hlt, ok_bind, if_pos hlt]
      by_cases hb : bit v bits.length = true
      · rw [if_pos hb, if_pos hb, hother0, ← ih1]
        cases child1.isIncluded v.toBytes (bits.length + 1) <;> simp
      · rw [if_neg hb, if_neg hb, ← ih0]
        cases child0.isIncluded v.toBytes (bits.length + 1) <;> simp [hother1]
    · rw [getBit_beyond v hlt, if_neg hlt]
      simp

end Asking

lemma caught_of_ne (hne : e ≠ .setError) : (match (.error e : Except PyError Bool) with
      | .error .setError => .ok false
      | checked => checked : Except PyError Bool) = .error e := by
  split
  · rename_i he
    exact absurd (Except.error.inj he) hne
  · rfl

variable [RecursionLimit] (sha256 : Bytes → Bytes32)

variable {sha256} in
lemma deserializeProof_cases (proof : Bytes) : (∃ e, deserializeProof sha256 proof = .error e ∧ e ≠ .setError ∧
        Raises (deserializeFrom sha256 proof RecursionLimit.calls 0 [])) ∨
      ¬ Raises (deserializeFrom sha256 proof RecursionLimit.calls 0 []) ∧
        (deserializeProof sha256 proof = .error .setError ∨
          ∃ q, deserializeProof sha256 proof = .ok q ∧ Audited sha256 [] q.root) := by
  cases hread : deserializeFrom sha256 proof RecursionLimit.calls 0 [] with
  | ok read =>
    refine .inr ⟨not_raises_ok _, ?_⟩
    by_cases hpos : read.2 = proof.length
    · have hq : deserializeProof sha256 proof = .ok ⟨read.1⟩ := by
        simp [deserializeProof, hread, hpos]
      exact .inr ⟨_, hq, deserializeProof_eq_ok hq⟩
    · exact .inl (by simp [deserializeProof, hread, hpos])
  | error e =>
    by_cases hcaught : e = .setError ∨ e = .indexError
    · refine .inr ⟨?_, .inl ?_⟩
      · rintro ⟨e', he, hset, hindex⟩
        obtain rfl := Except.error.inj he
        exact hcaught.elim hset hindex
      · obtain rfl | rfl := hcaught <;> simp [deserializeProof, hread]
    rw [not_or] at hcaught
    refine .inl ⟨e, ?_, hcaught.1, e, rfl, hcaught⟩
    unfold deserializeProof
    rw [hread]
    dsimp only
    split
    · rename_i he
      exact absurd (Except.error.inj he) hcaught.2
    · rfl

variable {sha256} in
lemma confirm_returns_iff {val : Bytes32} {proof : Bytes} :
    (∃ b, confirm sha256 root val.toBytes proof expected = .ok b) ↔
      ¬ Raises (deserializeFrom sha256 proof RecursionLimit.calls 0 []) ∧
        ∀ q, deserializeProof sha256 proof = .ok q → q.getRoot sha256 = .ok root → overruns val q.root 0 = false := by
  obtain ⟨e, hq, hne, hraises⟩ | ⟨hno, hq | ⟨q, hq, haudited⟩⟩ := @deserializeProof_cases _ sha256 proof
  · refine iff_of_false ?_ fun h => h.1 hraises
    rintro ⟨b, hb⟩
    have hconfirm : confirm sha256 root val.toBytes proof expected = .error e := by
      simp only [confirm, hq, error_bind]
      exact caught_of_ne hne
    cases hb.symm.trans hconfirm
  · refine iff_of_true ⟨false, by simp [confirm, hq]⟩ ⟨hno, fun q hq' _ => ?_⟩
    cases hq.symm.trans hq'
  obtain ⟨root', hroot⟩ : ∃ root', q.getRoot sha256 = .ok root' := by
    have hlen := getHash_length haudited.hash_length
    unfold getRoot compressRoot
    simp only [hlen, decide_true, pyAssert_true, ok_bind]
    cases q.root <;> simp [getHash, EMPTY, TERMINAL, MIDDLE]
  by_cases heq : root' = root
  · subst heq
    have hask := haudited.isIncluded_raises val
    have hiff : (∃ b, confirm sha256 root' val.toBytes proof expected = .ok b) ↔ overruns val q.root 0 = false := by
      rw [length_nil] at hask
      rw [← Bool.not_eq_true, ← hask]
      cases hanswer : q.root.isIncluded val.toBytes 0 with
      | ok answer => simp [confirm, hq, hroot, isIncludedAlreadyHashed, hanswer]
      | error e =>
        by_cases he : e = .setError
        · subst he
          simp [confirm, hq, hroot, isIncludedAlreadyHashed, hanswer]
        have hconfirm : confirm sha256 root' val.toBytes proof expected = .error e := by
          simp only [confirm, hq, hroot, ok_bind, isIncludedAlreadyHashed, hanswer,
            ne_eq, not_true_eq_false, if_false, error_bind]
          exact caught_of_ne he
        simp [hconfirm, he]
    rw [hiff]
    constructor
    · intro h
      refine ⟨hno, fun q' hq' _ => ?_⟩
      rw [← Except.ok.inj (hq.symm.trans hq')]
      exact h
    · exact fun h => h.2 q hq hroot
  · refine iff_of_true ⟨false, by simp [confirm, hq, hroot, heq]⟩ ⟨hno, fun q' hq' hroot' => ?_⟩
    obtain rfl := Except.ok.inj (hq.symm.trans hq')
    exact absurd (Except.ok.inj (hroot.symm.trans hroot')) heq

/-- Both checkers over hashed values return a boolean exactly if no node they come to is too deep or trips an assertion
and no path is too long. -/
theorem checkers_return_iff (root : Bytes) (val : Bytes32) (proof : Bytes) :
    ((∃ b, confirmIncludedAlreadyHashed sha256 root val.toBytes proof = .ok b) ∧
      ∃ b, confirmNotIncludedAlreadyHashed sha256 root val.toBytes proof = .ok b) ↔
    (∀ pos bits, Comes sha256 proof pos bits → WellFormed proof pos bits) ∧
      ∀ q, deserializeProof sha256 proof = .ok q → q.getRoot sha256 = .ok root → overruns val q.root 0 = false := by
  unfold confirmIncludedAlreadyHashed confirmNotIncludedAlreadyHashed
  rw [confirm_returns_iff, confirm_returns_iff, and_self]
  refine and_congr_left fun _ => ?_
  constructor
  · exact fun h pos bits hcomes => hcomes.wellFormed h
  · intro h hraises
    obtain ⟨pos, bits, hcomes, hbad⟩ := exists_malformed .root rfl hraises
    exact hbad (h pos bits hcomes)

end Total

lemma deserializeFrom_middles {sha256 : Bytes → Bytes32} {n : ℕ} (h : pos + levels ≤ n) :
    deserializeFrom sha256 (replicate n 2) levels pos bits = .error .recursionError := by
  induction levels generalizing pos bits with
  | zero => rfl
  | succ levels ih =>
    have htype : typeAt (replicate n 2) pos = MIDDLE := by
      rw [typeAt, drop_replicate, take_replicate, Nat.min_eq_left (by omega)]
      rfl
    rw [deserializeFrom_middle htype, ih (by omega)]
    rfl

/-- A proof of middle nodes only is too deep. -/
lemma confirm_middles [RecursionLimit] {sha256 : Bytes → Bytes32} {val : Bytes} {n : ℕ} (h : RecursionLimit.calls ≤ n) :
    confirm sha256 root val (replicate n 2) expected = .error .recursionError := by
  have hread : deserializeProof sha256 (replicate n 2) = .error .recursionError := by
    unfold deserializeProof
    rw [deserializeFrom_middles (by omega)]
    rfl
  simp [confirm, hread]

/-- A terminal cut off behind its type trips the assertion on the length of its hash, and a proof of many middle nodes
is too deep. -/
theorem checkers_raise_on_terminal :
    confirmIncludedAlreadyHashed pairDigest BLANK valueOne.toBytes TERMINAL = .error .assertionError ∧
      confirmNotIncludedAlreadyHashed pairDigest BLANK valueOne.toBytes TERMINAL = .error .assertionError ∧
      confirmIncludedAlreadyHashed pairDigest BLANK valueOne.toBytes (replicate 1200 2) = .error .recursionError := by
  exact ⟨by decide +kernel, by decide +kernel, confirm_middles (by decide)⟩

end SectorChain.Proofs
