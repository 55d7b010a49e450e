import SectorChain.Proofs.MerkleCompleteness

/-!
# Merkle proofs are sound

Audited nodes with one hash give one answer.
-/

namespace SectorChain.Proofs
open Lib Lib.BitTrie MerkleSet List
open MerkleSet.Node (getHash isIncluded isDouble)

variable {S : Set Bytes32} {bits : List Bool} {bs hash proof root val : Bytes} {child0 child1 node : MerkleSet.Node}
  {m : MerkleSet} {r : Bool}
variable {a a' v : Bytes32} {b expected r' : Bool} {bs' : Bytes} {d : ℕ} {node' : MerkleSet.Node}

lemma hashdownInput_injective {x y : Bytes} (hx : x.length = 66) (hy : y.length = 66)
    (h : hashdownInput x = hashdownInput y) : x = y := by
  have hsplit : ∀ z : Bytes, z = z.take 1 ++ ((z.drop 1).take 32 ++ ((z.drop 33).take 1 ++ z.drop 34)) := by
    intro z
    have h33 : (z.drop 33).take 1 ++ z.drop 34 = z.drop 33 := by
      have h34 : z.drop 34 = (z.drop 33).drop 1 := by rw [drop_drop]
      rw [h34, take_append_drop]
    have h1 : (z.drop 1).take 32 ++ z.drop 33 = z.drop 1 := by
      have h33' : z.drop 33 = (z.drop 1).drop 32 := by rw [drop_drop]
      rw [h33', take_append_drop]
    rw [h33, h1, take_append_drop]
  unfold hashdownInput hashdownKey at h
  obtain ⟨hkey, hrest⟩ := append_inj h (by simp [hx, hy])
  obtain ⟨_, hkey⟩ := append_inj hkey rfl
  obtain ⟨ht0, ht1⟩ := append_inj hkey (by simp [hx, hy])
  obtain ⟨hh0, hh1⟩ := append_inj hrest (by simp [hx, hy])
  rw [hsplit x, hsplit y, ht0, ht1, hh0, hh1]

/-- No two of `inputs` have the same hash, and none that of the empty node. -/
structure CollisionFree (sha256 : Bytes → Bytes32) (inputs : List Bytes) : Prop where
  injective : ∀ x ∈ inputs, ∀ y ∈ inputs, sha256 x = sha256 y → x = y
  ne_blank : ∀ x ∈ inputs, (sha256 x).toBytes ≠ BLANK

section Hash

variable {sha256 : Bytes → Bytes32}

lemma Audited.origin (h : Audited sha256 bits (.middle child0 child1 hash)) :
    (∃ b a a', cond b child0 child1 = .empty ∧ (cond b child1 child0).isDouble = .ok true ∧
        hash = (cond b child1 child0).hash ∧ Follows (bits ++ [b]) a ∧ Follows (bits ++ [b]) a' ∧
        hash = (sha256 (pairInput a a')).toBytes ∧
        pairInput a a' ∈ hashed (.middle child0 child1 hash)) ∨
      ((child0.getHash ++ child1.getHash).length = 66 ∧
        hash = (sha256 (hashdownInput (child0.getHash ++ child1.getHash))).toBytes ∧
        hashdownInput (child0.getHash ++ child1.getHash) ∈
          hashed (.middle child0 child1 hash)) := by
  cases h with
  | middle h0 h1 hmiddle =>
    obtain ⟨hempty, hdouble, heq⟩ | ⟨hempty, hdouble, heq⟩ | ⟨hno, hlen, heq⟩ := middleNode_eq_ok hmiddle
    · obtain ⟨a, a', ha, ha', hhash, hmem⟩ := h1.double hdouble
      obtain ⟨_, _, rfl⟩ := MerkleSet.Node.middle.inj heq
      exact .inl ⟨true, a, a', hempty, hdouble, rfl, ha, ha', hhash, by simp [hashed, hmem]⟩
    · obtain ⟨a, a', ha, ha', hhash, hmem⟩ := h0.double hdouble
      obtain ⟨_, _, rfl⟩ := MerkleSet.Node.middle.inj heq
      exact .inl ⟨false, a, a', hempty, hdouble, rfl, ha, ha', hhash, by simp [hashed, hmem]⟩
    · obtain ⟨_, _, rfl⟩ := MerkleSet.Node.middle.inj heq
      exact .inr ⟨hlen, rfl, by simp [hashed, hno]⟩

lemma eq_terminal_of_getHash (h : node.getHash = TERMINAL ++ hash) : node = .terminal hash := by
  cases node with
  | empty => exact absurd h (by simp [getHash, EMPTY, TERMINAL])
  | terminal hash' => simpa [getHash] using h
  | middle child0 child1 hash' => exact absurd h (by simp [getHash, MIDDLE, TERMINAL])
  | truncated hash' => exact absurd h (by simp [getHash, MIDDLE, TERMINAL])

lemma isIncluded_middle (h : (MerkleSet.Node.middle child0 child1 hash).isIncluded val d = .ok (r, bs)) :
    ∃ b bs', getBit val d = .ok b ∧ (cond b child1 child0).isIncluded val (d + 1) = .ok (r, bs') := by
  obtain ⟨b, hb, h⟩ := bind_eq_ok.mp h
  cases b with
  | true =>
    obtain ⟨_, _, h⟩ := bind_eq_ok.mp h
    obtain ⟨⟨r', bs'⟩, hchild, h⟩ := bind_eq_ok.mp h
    obtain ⟨rfl, _⟩ := Prod.mk.inj (Except.ok.inj h)
    exact ⟨true, bs', hb, hchild⟩
  | false =>
    obtain ⟨⟨r', bs'⟩, hchild, h⟩ := bind_eq_ok.mp h
    obtain ⟨_, _, h⟩ := bind_eq_ok.mp h
    obtain ⟨rfl, _⟩ := Prod.mk.inj (Except.ok.inj h)
    exact ⟨false, bs', hb, hchild⟩

lemma CollisionFree.mono {xs ys : List Bytes} (h : CollisionFree sha256 ys) (hsub : xs ⊆ ys) :
    CollisionFree sha256 xs :=
  ⟨fun x hx y hy => h.injective x (hsub hx) y (hsub hy), fun x hx => h.ne_blank x (hsub hx)⟩

lemma CollisionFree.mono_append {xs xs' ys ys' : List Bytes} (h : CollisionFree sha256 (xs' ++ ys')) (hxs : xs ⊆ xs')
    (hys : ys ⊆ ys') : CollisionFree sha256 (xs ++ ys) := by
  refine h.mono fun x hx => ?_
  rw [mem_append] at hx ⊢
  exact hx.imp (hxs ·) (hys ·)

lemma Audited.follows (h : Audited sha256 bits (.terminal v.toBytes)) : Follows bits v := by
  generalize hnode : MerkleSet.Node.terminal v.toBytes = node at h
  cases h with
  | terminal _ w _ hw =>
    have heq : v = w := SizedBytes.toBytes_injective (MerkleSet.Node.terminal.inj hnode)
    exact heq ▸ hw
  | _ => exact absurd hnode (by simp)

lemma length_terminal (a : Bytes32) : (TERMINAL ++ a.toBytes).length = 33 := by
  rw [length_append, a.length_eq]
  rfl

lemma length_terminals (a b : Bytes32) : ((TERMINAL ++ a.toBytes) ++ (TERMINAL ++ b.toBytes)).length = 66 := by
  rw [length_append, length_terminal, length_terminal]

lemma pairInput_ne (ha : Follows (bits ++ [b]) a) (ha' : Follows (bits ++ [b]) a')
    (h0 : Audited sha256 (bits ++ [false]) child0) (h1 : Audited sha256 (bits ++ [true]) child1) :
    pairInput a a' ≠ hashdownInput (child0.getHash ++ child1.getHash) := by
  intro heq
  have hlen0 := getHash_length h0.hash_length
  have hlen1 := getHash_length h1.hash_length
  have hpair := hashdownInput_injective (length_terminals a a')
    (by rw [length_append, hlen0, hlen1]) heq
  obtain ⟨hhash0, hhash1⟩ := append_inj hpair ((length_terminal a).trans hlen0.symm)
  rw [eq_terminal_of_getHash hhash0.symm] at h0
  rw [eq_terminal_of_getHash hhash1.symm] at h1
  have hfalse := (follows_append.mp ha).2.symm.trans (follows_append.mp h0.follows).2
  have htrue := (follows_append.mp ha').2.symm.trans (follows_append.mp h1.follows).2
  exact Bool.false_ne_true (hfalse.symm.trans htrue)

lemma pairInput_injective {c c' : Bytes32} (h : pairInput a a' = pairInput c c') : a = c := by
  have hpair := hashdownInput_injective (length_terminals a a') (length_terminals c c') h
  obtain ⟨h0, _⟩ := append_inj hpair ((length_terminal a).trans (length_terminal c).symm)
  exact SizedBytes.toBytes_injective (append_cancel_left h0)

lemma hashed_child (b : Bool) : hashed (cond b child1 child0) ⊆ hashed (.middle child0 child1 hash) := by
  intro x hx
  cases b <;> simp_all [hashed]

lemma Audited.child (h : Audited sha256 bits (.middle child0 child1 hash)) (b : Bool) :
    Audited sha256 (bits ++ [b]) (cond b child1 child0) := by
  cases h with
  | middle h0 h1 _ =>
    cases b with
    | false => exact h0
    | true => exact h1

lemma getHash_of_isDouble (h : node.isDouble = .ok true) : node.getHash = MIDDLE ++ node.hash := by
  cases node with
  | middle child0 child1 hash => rfl
  | _ => exact absurd h (by simp [isDouble])

lemma cond_of_ne {s : Bool} (h : b ≠ s) (x y : MerkleSet.Node) : cond b y x = cond s x y := by
  cases b with
  | false =>
    cases s with
    | false => exact absurd rfl h
    | true => rfl
  | true =>
    cases s with
    | false => rfl
    | true => exact absurd rfl h

/-- Two audited nodes with one hash give the same answer. -/
theorem Audited.agree (h : Audited sha256 bits node) (h' : Audited sha256 bits node')
    (hhash : node.getHash = node'.getHash) (hfree : CollisionFree sha256 (hashed node ++ hashed node'))
    (hr : node.isIncluded val d = .ok (r, bs)) (hr' : node'.isIncluded val d = .ok (r', bs')) : r = r' := by
  induction node generalizing bits node' d r r' bs bs' with
  | empty =>
    cases node' with
    | empty => exact (Prod.mk.inj (Except.ok.inj (hr.symm.trans hr'))).1
    | terminal hash => exact absurd hhash (by simp [getHash, EMPTY, TERMINAL])
    | middle child0 child1 hash => exact absurd hhash (by simp [getHash, EMPTY, MIDDLE])
    | truncated hash => exact absurd hhash (by simp [getHash, EMPTY, MIDDLE])
  | terminal hash =>
    rw [eq_terminal_of_getHash hhash.symm] at hr'
    exact (Prod.mk.inj (Except.ok.inj (hr.symm.trans hr'))).1
  | truncated hash => exact absurd hr (by simp [isIncluded])
  | middle child0 child1 hash ih0 ih1 =>
    cases node' with
    | empty => exact absurd hhash (by simp [getHash, EMPTY, MIDDLE])
    | terminal hash => exact absurd hhash (by simp [getHash, TERMINAL, MIDDLE])
    | truncated hash => exact absurd hr' (by simp [isIncluded])
    | middle child0' child1' hash' =>
      obtain rfl : hash = hash' := by simpa [getHash] using hhash
      obtain ⟨b, _, hb, hchild⟩ := isIncluded_middle hr
      obtain ⟨b', _, hb', hchild'⟩ := isIncluded_middle hr'
      obtain rfl : b = b' := Except.ok.inj (hb.symm.trans hb')
      have hfree' : CollisionFree sha256 (hashed (cond b child1 child0) ++ hashed (cond b child1' child0')) :=
        hfree.mono_append (fun _ hx => hashed_child b hx) fun _ hx => hashed_child b hx
      -- it is enough that the children on the side of the value have one hash
      have hstep : (cond b child1 child0).getHash = (cond b child1' child0').getHash → r = r' := by
        intro hside
        cases b with
        | false => exact ih0 (h.child false) (h'.child false) hside hfree' hchild hchild'
        | true => exact ih1 (h.child true) (h'.child true) hside hfree' hchild hchild'
      have hinj : ∀ x ∈ hashed (.middle child0 child1 hash),
          ∀ y ∈ hashed (.middle child0' child1' hash), hash = (sha256 x).toBytes →
          hash = (sha256 y).toBytes → x = y := by
        intro x hx y hy hhx hhy
        exact hfree.injective x (mem_append_left _ hx) y (mem_append_right _ hy)
          (SizedBytes.toBytes_injective (hhx.symm.trans hhy))
      apply hstep
      rcases h.origin with ⟨s, a, a', hempty, hdouble, hsame, ha, ha', hx, hxmem⟩ |
        ⟨hlen, hx, hxmem⟩
      · rcases h'.origin with ⟨s', c, c', hempty', hdouble', hsame', hc, _, hy, hymem⟩ |
          ⟨_, hy, hymem⟩
        · have hac := pairInput_injective (hinj _ hxmem _ hymem hx hy)
          obtain rfl : s = s' := (follows_append.mp ha).2.symm.trans (hac ▸ (follows_append.mp hc).2)
          by_cases hbs : b = s
          · rw [hbs, getHash_of_isDouble hdouble, getHash_of_isDouble hdouble', ← hsame, ← hsame']
          · rw [cond_of_ne hbs, cond_of_ne hbs, hempty, hempty']
        · exact absurd (hinj _ hxmem _ hymem hx hy)
            (pairInput_ne ha ha' (h'.child false) (h'.child true))
      · rcases h'.origin with ⟨s', c, c', _, _, _, hc, hc', hy, hymem⟩ | ⟨hlen', hy, hymem⟩
        · exact absurd (hinj _ hxmem _ hymem hx hy).symm
            (pairInput_ne hc hc' (h.child false) (h.child true))
        have hpair := hashdownInput_injective hlen hlen' (hinj _ hxmem _ hymem hx hy)
        have hlen0 := getHash_length (h.child false).hash_length
        have hlen0' := getHash_length (h'.child false).hash_length
        obtain ⟨heq0, heq1⟩ := append_inj hpair (hlen0.trans hlen0'.symm)
        cases b with
        | false => exact heq0
        | true => exact heq1

def rootHashed (m : MerkleSet) : List Bytes :=
  hashed m.root ++ match m.root with
    | .terminal hash => [TERMINAL ++ hash]
    | _ => []

lemma Audited.root_cases (h : Audited sha256 bits node) (hroot : getRoot sha256 ⟨node⟩ = .ok root)
    (hnode : ∀ hash, node ≠ .truncated hash) :
    (node = .empty ∧ root = BLANK) ∨
    (∃ v : Bytes32, node = .terminal v.toBytes ∧ root = (sha256 (TERMINAL ++ v.toBytes)).toBytes ∧
      TERMINAL ++ v.toBytes ∈ rootHashed ⟨node⟩) ∨
    (∃ child0 child1 x, node = .middle child0 child1 root ∧
      root = (sha256 (hashdownInput x)).toBytes ∧ hashdownInput x ∈ rootHashed ⟨node⟩) := by
  have hlen := getHash_length h.hash_length
  unfold getRoot compressRoot at hroot
  cases h with
  | empty _ => exact .inl ⟨rfl, (Except.ok.inj hroot).symm⟩
  | truncated _ hash => exact absurd rfl (hnode hash.toBytes)
  | terminal _ v _ _ =>
    refine .inr (.inl ⟨v, rfl, ?_, ?_⟩)
    · have heq : (sha256 (TERMINAL ++ v.toBytes)).toBytes = root := by
        simpa [getHash, hlen, TERMINAL, MIDDLE, EMPTY] using hroot
      exact heq.symm
    · simp [rootHashed]
  | @middle _ child0 child1 hash h0 h1 hmiddle =>
    obtain rfl : hash = root := by
      have hhash : hash.length = 32 := by simpa [getHash, MIDDLE] using hlen
      simpa [getHash, hhash, MIDDLE] using hroot
    right
    right
    rcases (Audited.middle h0 h1 hmiddle).origin with ⟨_, a, a', _, _, _, _, _, hx, hmem⟩ |
      ⟨_, hx, hmem⟩
    · exact ⟨child0, child1, _, rfl, hx, mem_append_left _ hmem⟩
    · exact ⟨child0, child1, _, rfl, hx, mem_append_left _ hmem⟩

lemma terminal_ne_hashdownInput (v x : Bytes) : TERMINAL ++ v ≠ hashdownInput x := by
  simp [TERMINAL, hashdownInput, replicate_succ]

theorem Audited.agree_of_root (h : Audited sha256 [] node) (h' : Audited sha256 [] node')
    (hroot : getRoot sha256 ⟨node⟩ = .ok root) (hroot' : getRoot sha256 ⟨node'⟩ = .ok root)
    (hfree : CollisionFree sha256 (rootHashed ⟨node⟩ ++ rootHashed ⟨node'⟩)) (hr : node.isIncluded val 0 = .ok (r, bs))
    (hr' : node'.isIncluded val 0 = .ok (r', bs')) : r = r' := by
  have hshown : ∀ (n : MerkleSet.Node) (b : Bool × Bytes), n.isIncluded val 0 = .ok b →
      ∀ hash, n ≠ .truncated hash := by
    intro n b hn hash heq
    rw [heq] at hn
    exact absurd hn (by simp [isIncluded])
  have hfree' : CollisionFree sha256 (hashed node ++ hashed node') :=
    hfree.mono_append (subset_append_left _ _) (subset_append_left _ _)
  have hinj : ∀ x ∈ rootHashed ⟨node⟩, ∀ y ∈ rootHashed ⟨node'⟩, root = (sha256 x).toBytes →
      root = (sha256 y).toBytes → x = y := by
    intro x hx y hy hhx hhy
    exact hfree.injective x (mem_append_left _ hx) y (mem_append_right _ hy)
      (SizedBytes.toBytes_injective (hhx.symm.trans hhy))
  have hblank : ∀ x ∈ rootHashed ⟨node⟩ ++ rootHashed ⟨node'⟩, root = (sha256 x).toBytes → root ≠ BLANK := by
    intro x hx hhx heq
    exact hfree.ne_blank x hx (hhx.symm.trans heq)
  refine h.agree h' ?_ hfree' hr hr'
  rcases h.root_cases hroot (hshown node _ hr) with ⟨rfl, hb⟩ | ⟨v, rfl, hx, hxmem⟩ |
    ⟨c0, c1, x, rfl, hx, hxmem⟩
  · rcases h'.root_cases hroot' (hshown node' _ hr') with ⟨rfl, _⟩ | ⟨w, rfl, hy, hymem⟩ |
      ⟨c0', c1', y, rfl, hy, hymem⟩
    · rfl
    · exact absurd hb (hblank _ (mem_append_right _ hymem) hy)
    · exact absurd hb (hblank _ (mem_append_right _ hymem) hy)
  · rcases h'.root_cases hroot' (hshown node' _ hr') with ⟨rfl, hb⟩ | ⟨w, rfl, hy, hymem⟩ |
      ⟨c0', c1', y, rfl, hy, hymem⟩
    · exact absurd hb (hblank _ (mem_append_left _ hxmem) hx)
    · exact hinj _ hxmem _ hymem hx hy
    · exact absurd (hinj _ hxmem _ hymem hx hy) (terminal_ne_hashdownInput _ _)
  rcases h'.root_cases hroot' (hshown node' _ hr') with ⟨rfl, hb⟩ | ⟨w, rfl, hy, hymem⟩ |
    ⟨c0', c1', y, rfl, hy, hymem⟩
  · exact absurd hb (hblank _ (mem_append_left _ hxmem) hx)
  · exact absurd (hinj _ hxmem _ hymem hx hy).symm (terminal_ne_hashdownInput _ _)
  · rfl

lemma Stores.isIncluded (h : Stores sha256 m S) (v : Bytes32) :
    ∃ r bs, Audited sha256 [] m.root ∧ m.root.isIncluded v.toBytes 0 = .ok (r, bs) ∧ (r = true ↔ v ∈ S) := by
  obtain ⟨t, ht, rfl⟩ := h
  exact ⟨_, _, audited_ofTrie ht rfl (by decide) (fun x _ => follows_nil x),
    isIncluded_ofTrie ht (AgreeBelow.zero _), mem_iff v ht⟩

lemma Stores.eq_of_root {m' : MerkleSet} {S' : Set Bytes32} (h : Stores sha256 m S) (h' : Stores sha256 m' S')
    (hroot : m.getRoot sha256 = .ok root) (hroot' : m'.getRoot sha256 = .ok root)
    (hfree : CollisionFree sha256 (rootHashed m ++ rootHashed m')) : S = S' := by
  ext v
  obtain ⟨r, bs, haudited, hr, hmem⟩ := h.isIncluded v
  obtain ⟨r', bs', haudited', hr', hmem'⟩ := h'.isIncluded v
  rw [← hmem, ← hmem', haudited.agree_of_root haudited' hroot hroot' hfree hr hr']

variable [RecursionLimit]

lemma deserializeProof_eq_ok (h : deserializeProof sha256 proof = .ok m) : Audited sha256 [] m.root := by
  unfold deserializeProof at h
  simp only at h
  split at h
  · exact absurd h (by simp)
  obtain ⟨⟨node, pos⟩, hread, h⟩ := bind_eq_ok.mp h
  split at h
  · exact absurd h (by simp)
  · obtain rfl := Except.ok.inj h
    exact (audited_deserializeFrom hread (by omega)).2

/-- What an accepting `confirm` has seen. -/
lemma confirm_eq_true (h : confirm sha256 root val proof expected = .ok true) :
    ∃ q bs, deserializeProof sha256 proof = .ok q ∧ q.getRoot sha256 = .ok root ∧
      q.root.isIncluded val 0 = .ok (expected, bs) := by
  unfold confirm at h
  simp only at h
  split at h
  · exact absurd h (by simp)
  obtain ⟨q, hq, h⟩ := bind_eq_ok.mp h
  obtain ⟨root', hroot, h⟩ := bind_eq_ok.mp h
  split at h
  · exact absurd h (by simp)
  rename_i heq
  obtain ⟨⟨r, bs⟩, hr, h⟩ := bind_eq_ok.mp h
  have hr' : r = expected := by simpa using h
  refine ⟨q, bs, hq, ?_, hr' ▸ hr⟩
  rw [hroot, not_not.mp heq]

variable (sha256)

def proofHashed (proof : Bytes) : List Bytes :=
  match deserializeProof sha256 proof with
  | .ok q => rootHashed q
  | .error _ => []

variable {sha256} in
lemma Stores.of_confirm (h : Stores sha256 m S) (hroot : m.getRoot sha256 = .ok root)
    (hfree : CollisionFree sha256 (rootHashed m ++ proofHashed sha256 proof))
    (hconfirm : confirm sha256 root v.toBytes proof expected = .ok true) : expected = true ↔ v ∈ S := by
  obtain ⟨r, bs, haudited, hr, hmem⟩ := h.isIncluded v
  obtain ⟨q, bs', hq, hqroot, hqr⟩ := confirm_eq_true hconfirm
  have hfree' : CollisionFree sha256 (rootHashed m ++ rootHashed q) := by
    unfold proofHashed at hfree
    rw [hq] at hfree
    exact hfree
  rw [← hmem, haudited.agree_of_root (deserializeProof_eq_ok hq) hroot hqroot hfree' hr hqr]

/-- No bytes make a `confirm` function accept a wrong answer, if no inputs collide. -/
theorem merkleProof_sound (ops : List Op) (m : MerkleSet) (root : Bytes) (v : Bytes32)
    (proof : Bytes) (hrun : run sha256 ops {} = .ok m) (hroot : m.getRoot sha256 = .ok root)
    (hfree : CollisionFree sha256 (rootHashed m ++ proofHashed sha256 proof)) :
    (confirmIncludedAlreadyHashed sha256 root v.toBytes proof = .ok true → v ∈ net ops ∅) ∧
      (confirmNotIncludedAlreadyHashed sha256 root v.toBytes proof = .ok true → v ∉ net ops ∅) := by
  obtain ⟨m', hrun', hstores⟩ := stores_run sha256 ops
  obtain rfl := Except.ok.inj (hrun.symm.trans hrun')
  constructor
  · intro hconfirm
    exact (hstores.of_confirm hroot hfree hconfirm).mp rfl
  · intro hconfirm hmem
    cases (hstores.of_confirm hroot hfree hconfirm).mpr hmem

end Hash

/-! ### A set of two values

They differ in their seventh bit, so six nodes take over a hash. -/

def valueOne : Bytes32 := ⟨List.replicate 32 1, by decide⟩

def valueTwo : Bytes32 := ⟨List.replicate 32 2, by decide⟩

/-- Below the default limit of 1000, with room for the callers. -/
instance : RecursionLimit := ⟨900, by decide⟩

/-- SHA-256 on the one input hashed for these values. -/
def pairDigest (x : Bytes) : Bytes32 :=
  if x = pairInput valueOne valueTwo then
    .ofNat 32 0xc75378dcf88ab5b0b15e04cc90abf04ea1db9e14cf2e6607ec608c57a2c3a970
  else .ofNat 32 1

def pairProof : Bytes :=
  List.replicate 7 2 ++ (TERMINAL ++ valueOne.toBytes) ++ (TERMINAL ++ valueTwo.toBytes) ++ List.replicate 6 0

def pairSet : MerkleSet where
  root := (List.replicate 6 ()).foldr
    (fun _ node => .middle node .empty (pairDigest (pairInput valueOne valueTwo)).toBytes)
    (.middle (.terminal valueOne.toBytes) (.terminal valueTwo.toBytes)
      (pairDigest (pairInput valueOne valueTwo)).toBytes)

theorem merkleProof_sound_pair :
    confirmIncludedAlreadyHashed pairDigest (pairDigest (pairInput valueOne valueTwo)).toBytes
        valueOne.toBytes pairProof = .ok true ∧
      valueOne ∈ net [.add valueTwo, .add valueOne] ∅ := by
  have hrun : run pairDigest [.add valueTwo, .add valueOne] {} = .ok pairSet := by decide +kernel
  have hroot : pairSet.getRoot pairDigest = .ok (pairDigest (pairInput valueOne valueTwo)).toBytes := by decide +kernel
  have hinputs : ∀ x ∈ rootHashed pairSet ++ proofHashed pairDigest pairProof,
      x = pairInput valueOne valueTwo := by decide +kernel
  have hfree : CollisionFree pairDigest (rootHashed pairSet ++ proofHashed pairDigest pairProof) := by
    constructor
    · intro x hx y hy _
      rw [hinputs x hx, hinputs y hy]
    · intro x hx
      rw [hinputs x hx]
      decide +kernel
  have hconfirm : confirmIncludedAlreadyHashed pairDigest
      (pairDigest (pairInput valueOne valueTwo)).toBytes valueOne.toBytes pairProof = .ok true := by decide +kernel
  exact ⟨hconfirm, (merkleProof_sound pairDigest _ _ _ valueOne pairProof hrun hroot hfree).1
    hconfirm⟩

end SectorChain.Proofs
