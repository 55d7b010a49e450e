import SectorChain.Proofs.BodyChecks
import SectorChain.Proofs.CoinIds
import SectorChain.Wallet.WalletNode

/-!
# What a light wallet learns about a block

A puzzle hash may be the hash of a list of other coins.
-/

namespace SectorChain.Proofs

open Lib MerkleSet List
open Coin (name preimage)

/-- The coins that a block creates and spends, and the roots in its header. -/
structure CommittedBlock where
  additions : List Coin
  removals : List Coin
  additionsRoot : Bytes32
  removalsRoot : Bytes32

section

variable (sha256 : Bytes → Bytes32)

def CommittedBlock.CorrectRoots (b : CommittedBlock) : Prop :=
  validateBlockMerkleRoots sha256 b.additionsRoot b.removalsRoot b.additions
    (b.removals.map (name sha256)) = .ok none

def setInputs (values : List Bytes32) : List Bytes :=
  match buildMerkleSet sha256 values with
  | .ok m => rootHashed m
  | .error _ => []

def CommittedBlock.group (b : CommittedBlock) (c : Coin) : List Coin :=
  b.additions.filter fun c' => c'.puzzleHash = c.puzzleHash

def CommittedBlock.inputs (b : CommittedBlock) : List Bytes :=
  b.additions.map preimage ++ b.removals.map preimage ++ (b.additions.map fun c => listPreimage sha256 (b.group c)) ++
    setInputs sha256 (additionLeaves sha256 b.additions) ++
    setInputs sha256 (b.removals.map (name sha256))

/-- The values that a reply without proofs is built into a set from. -/
def replyLeaves (coins : List (Bytes32 × List Coin)) : List Bytes32 :=
  coins.flatMap fun entry => [entry.1, hashCoinList sha256 entry.2]

/-- The inputs that were hashed for a block and for a reply do not collide. -/
def NoCollision (b : CommittedBlock) {α : Type} (inputs : α → List Bytes) : Reply α → Prop
  | .respond r => CollisionFree sha256 (b.inputs sha256 ++ inputs r)
  | _ => CollisionFree sha256 (b.inputs sha256)

/-- No coin of the block has as its puzzle hash the hash of a list with other coins. -/
def NoDisguisedList (b : CommittedBlock) : Prop :=
  ∀ coins : List Coin, (∃ c ∈ b.additions, c.puzzleHash = hashCoinList sha256 coins) →
    CollisionFree sha256 (b.inputs sha256 ++ listPreimage sha256 coins :: coins.map preimage) →
    ∀ c ∈ coins, c ∈ b.additions

variable [RecursionLimit]

def additionsInputs (r : RespondAdditions) : List Bytes :=
  (r.coins.flatMap fun entry => listPreimage sha256 entry.2 :: entry.2.map preimage) ++
    match r.proofs with
    | none => setInputs sha256 (replyLeaves sha256 r.coins)
    | some proofs => proofs.flatMap fun proof =>
        proofHashed sha256 proof.2.1 ++ (proof.2.2.elim [] (proofHashed sha256))

def removalsInputs (r : RespondRemovals) : List Bytes :=
  (r.coins.filterMap Prod.snd).map preimage ++
    match r.proofs with
    | none => setInputs sha256 ((r.coins.filterMap Prod.snd).map (name sha256))
    | some proofs => proofs.flatMap fun proof => proofHashed sha256 proof.2

/-- Whatever is asked and replied, additions that the wallet accepts were created. -/
def AdditionsAuthentic (b : CommittedBlock) : Prop :=
  ∀ (additions : Option (List Bytes32)) (getAll : Bool) (reply : Reply RespondAdditions) (coins : List Coin),
    NoCollision sha256 b (additionsInputs sha256) reply →
    getAdditions sha256 b.additionsRoot additions getAll (fun _ => reply) = .ok (some coins) →
    ∀ c ∈ coins, c ∈ b.additions

/-- Whatever is asked and replied, removals that the wallet accepts were spent. -/
def RemovalsAuthentic (b : CommittedBlock) : Prop :=
  ∀ (walletType : Bytes32 → Option WalletType) (additions : List Coin) (removals : List Bytes32)
    (requestAll : Bool) (reply : Reply RespondRemovals) (coins : List Coin),
    NoCollision sha256 b (removalsInputs sha256) reply →
    getRemovals sha256 b.removalsRoot walletType additions removals requestAll (fun _ => reply) = .ok (some coins) →
    ∀ c ∈ coins, c ∈ b.removals

/-- Whatever is replied, additions that the wallet accepts contain all those it asked for. -/
def AdditionsComplete (b : CommittedBlock) (puzzleHashes : List Bytes32) : Prop :=
  ∀ (reply : Reply RespondAdditions) (coins : List Coin), NoCollision sha256 b (additionsInputs sha256) reply →
    getAdditions sha256 b.additionsRoot (some puzzleHashes) false (fun _ => reply) = .ok (some coins) →
    ∀ c ∈ b.additions, c.puzzleHash ∈ puzzleHashes → c ∈ coins

/-- Whatever is replied, removals that the wallet accepts contain all those it asked for. -/
def RemovalsComplete (b : CommittedBlock) (names : List Bytes32) : Prop :=
  ∀ (walletType : Bytes32 → Option WalletType) (additions : List Coin) (requestAll : Bool)
    (reply : Reply RespondRemovals) (coins : List Coin),
    NoCollision sha256 b (removalsInputs sha256) reply →
    getRemovals sha256 b.removalsRoot walletType additions names requestAll (fun _ => reply) = .ok (some coins) →
    ∀ c ∈ b.removals, c.name sha256 ∈ names → c ∈ coins

end

variable {sha256 : Bytes → Bytes32} {b : CommittedBlock}

lemma setInputs_eq {values : List Bytes32} {m : MerkleSet} (h : buildMerkleSet sha256 values = .ok m) :
    setInputs sha256 values = rootHashed m := by
  unfold setInputs
  rw [h]

lemma CommittedBlock.preimage_mem {c : Coin} (h : c ∈ b.additions ∨ c ∈ b.removals) : c.preimage ∈ b.inputs sha256 := by
  unfold CommittedBlock.inputs
  simp only [mem_append]
  exact .inl (.inl (.inl (h.imp mem_map_of_mem mem_map_of_mem)))

lemma CommittedBlock.listPreimage_mem {c : Coin} (h : c ∈ b.additions) :
    listPreimage sha256 (b.group c) ∈ b.inputs sha256 := by
  unfold CommittedBlock.inputs
  simp only [mem_append]
  exact .inl (.inl (.inr (mem_map.mpr ⟨c, h, rfl⟩)))

lemma CommittedBlock.setInputs_subset : setInputs sha256 (additionLeaves sha256 b.additions) ⊆ b.inputs sha256 ∧
      setInputs sha256 (b.removals.map (name sha256)) ⊆ b.inputs sha256 := by
  unfold CommittedBlock.inputs
  constructor <;> intro x hx <;> simp [hx]

lemma CommittedBlock.CorrectRoots.stores (h : b.CorrectRoots sha256) :
    ∃ m m', Stores sha256 m (additionLeaves sha256 b.additions).toFinset ∧
      Stores sha256 m' (b.removals.map (name sha256)).toFinset ∧
      m.getRoot sha256 = .ok b.additionsRoot.toBytes ∧ m'.getRoot sha256 = .ok b.removalsRoot.toBytes ∧
      buildMerkleSet sha256 (additionLeaves sha256 b.additions) = .ok m ∧
      buildMerkleSet sha256 (b.removals.map (name sha256)) = .ok m' := by
  obtain ⟨m, hbuild, hm⟩ := stores_buildMerkleSet sha256 (additionLeaves sha256 b.additions)
  obtain ⟨m', hbuild', hm'⟩ := stores_buildMerkleSet sha256 (b.removals.map (name sha256))
  obtain ⟨root, hroot⟩ := hm.getRoot
  obtain ⟨root', hroot'⟩ := hm'.getRoot
  unfold CommittedBlock.CorrectRoots validateBlockMerkleRoots at h
  simp only [hbuild, hbuild', hroot, hroot', ok_bind] at h
  split_ifs at h with hne hne'
  · cases h
  · cases h
  exact ⟨m, m', hm, hm', by rw [hroot, not_not.mp hne], by rw [hroot', not_not.mp hne'], hbuild, hbuild'⟩

lemma mem_iff_of_root {m : MerkleSet} {S : Finset Bytes32} {root : Bytes32} (hm : Stores sha256 m S)
    (hroot : m.getRoot sha256 = .ok root.toBytes) {values : List Bytes32}
    (hfree : CollisionFree sha256 (rootHashed m ++ setInputs sha256 values))
    (h : (do
      let set ← buildMerkleSet sha256 values
      let root' ← set.getRoot sha256
      return decide (root.toBytes = root') : Except PyError Bool) = .ok true) (v : Bytes32) :
    v ∈ values ↔ v ∈ S := by
  obtain ⟨m', hbuild, hm'⟩ := stores_buildMerkleSet sha256 values
  obtain ⟨root', hroot'⟩ := hm'.getRoot
  simp only [hbuild, hroot', ok_bind] at h
  have heq : root.toBytes = root' := of_decide_eq_true (Except.ok.inj h)
  unfold setInputs at hfree
  rw [hbuild] at hfree
  have hsets := hm.eq_of_root hm' hroot (heq ▸ hroot') hfree
  rw [← mem_toFinset, ← Finset.mem_coe, ← hsets, Finset.mem_coe]

lemma falseOnAssertion_eq_true {x : Except PyError Bool} (h : falseOnAssertion x = .ok true) : x = .ok true := by
  unfold falseOnAssertion at h
  split at h
  · cases h
  · exact h

lemma ok_of_guard {β : Type} {x : Except PyError Bool} {y : Except PyError β} {out v : β} (hne : out ≠ v)
    (h : (x >>= fun passed => if !passed then .ok out else y) = .ok v) : x = .ok true ∧ y = .ok v := by
  obtain ⟨passed, hpassed, h⟩ := bind_eq_ok.mp h
  cases passed with
  | false => exact absurd (Except.ok.inj h) hne
  | true => exact ⟨hpassed, h⟩

lemma validateEach_eq_true {α β : Type} {validate : α → β → Except PyError Bool} {coins : List α} {proofs : List β}
    (h : validateEach validate coins proofs = .ok true) :
    ∀ entry ∈ coins, ∃ proof ∈ proofs, validate entry proof = .ok true := by
  induction coins generalizing proofs with
  | nil => simp
  | cons entry coins ih =>
    cases proofs with
    | nil => cases h
    | cons proof proofs =>
      obtain ⟨hconfirmed, h⟩ := ok_of_guard Bool.false_ne_true h
      refine forall_mem_cons.mpr ⟨⟨proof, mem_cons_self, hconfirmed⟩, fun entry' hentry' => ?_⟩
      obtain ⟨proof', hproof', hvalid⟩ := ih h entry' hentry'
      exact ⟨proof', mem_cons_of_mem proof hproof', hvalid⟩

/-- All additions of the block, and one list more under its own hash. -/
def forgedAdditions (sha256 : Bytes → Bytes32) (b : CommittedBlock) (coins : List Coin) : RespondAdditions where
  coins := (puzzlehashCoinsMap b.additions).entries ++ [(hashCoinList sha256 coins, coins)]
  proofs := none

lemma buildMerkleSet_forgedAdditions {coins : List Coin} {d : Coin} (hd : d ∈ b.additions)
    (hhash : d.puzzleHash = hashCoinList sha256 coins) :
    buildMerkleSet sha256 (replyLeaves sha256 (forgedAdditions sha256 b coins).coins) =
      buildMerkleSet sha256 (additionLeaves sha256 b.additions) := by
  have hleaf : hashCoinList sha256 coins ∈ additionLeaves sha256 b.additions :=
    (mem_additionLeaves sha256 b.additions _).mpr ⟨d, hd, .inl hhash.symm⟩
  have hleaves : replyLeaves sha256 (forgedAdditions sha256 b coins).coins =
      additionLeaves sha256 b.additions ++ [hashCoinList sha256 coins, hashCoinList sha256 coins] := by
    unfold replyLeaves forgedAdditions additionLeaves
    rw [flatMap_append]
    rfl
  apply buildMerkleSet_congr
  ext v
  rw [mem_toFinset, mem_toFinset, hleaves, mem_append]
  constructor
  · rintro (hv | hv)
    · exact hv
    · have hv' : v = hashCoinList sha256 coins := by simpa using hv
      rw [hv']
      exact hleaf
  · exact .inl

section

variable [RecursionLimit]

lemma validateAddition_eq_true {root : Bytes32} {entry : Bytes32 × List Coin}
    {proof : Bytes32 × Bytes × Option Bytes} (h : validateAddition sha256 root entry proof = .ok true) :
    (entry.2 = [] ∧ confirmNotIncludedAlreadyHashed sha256 root.toBytes entry.1.toBytes proof.2.1 = .ok true) ∨
    (∃ listProof, proof.2.2 = some listProof ∧ confirmIncludedAlreadyHashed sha256 root.toBytes
      (hashCoinList sha256 entry.2).toBytes listProof = .ok true) := by
  obtain ⟨_, -, h⟩ := bind_eq_ok.mp h
  split at h
  · rename_i hempty
    exact .inl ⟨eq_nil_of_length_eq_zero hempty, h⟩
  obtain ⟨hlist, -⟩ := ok_of_guard Bool.false_ne_true h
  obtain ⟨listProof, hproof, hconfirm⟩ := bind_eq_ok.mp (falseOnAssertion_eq_true hlist)
  refine .inr ⟨listProof, ?_, hconfirm⟩
  unfold subscripted at hproof
  split at hproof
  · rename_i hsome
    cases hproof
    exact hsome
  · cases hproof

lemma mem_leaves_of_validateAdditions (hroots : b.CorrectRoots sha256) {r : RespondAdditions}
    (hfree : CollisionFree sha256 (b.inputs sha256 ++ additionsInputs sha256 r))
    (h : validateAdditions sha256 r.coins r.proofs b.additionsRoot = .ok true)
    {entry : Bytes32 × List Coin} (hentry : entry ∈ r.coins) (hne : entry.2 ≠ []) :
    hashCoinList sha256 entry.2 ∈ additionLeaves sha256 b.additions := by
  obtain ⟨m, m', hm, -, hroot, -, hbuild, -⟩ := hroots.stores
  have hblock : rootHashed m ⊆ b.inputs sha256 := setInputs_eq hbuild ▸ b.setInputs_subset.1
  unfold additionsInputs at hfree
  rw [← mem_toFinset]
  cases hproofs : r.proofs with
  | none =>
    rw [hproofs] at h hfree
    apply (mem_iff_of_root hm hroot (hfree.mono_append hblock (subset_append_right _ _)) h _).mp
    exact mem_flatMap.mpr ⟨entry, hentry, by simp⟩
  | some proofs =>
    rw [hproofs] at h hfree
    obtain ⟨proof, hproof, hvalid⟩ := validateEach_eq_true h entry hentry
    rcases validateAddition_eq_true hvalid with ⟨hempty, -⟩ | ⟨listProof, hsome, hconfirm⟩
    · exact absurd hempty hne
    have hfree' : CollisionFree sha256 (rootHashed m ++ proofHashed sha256 listProof) := by
      refine hfree.mono_append hblock fun x hx => mem_append_right _ (mem_flatMap.mpr ⟨proof, hproof, ?_⟩)
      rw [hsome]
      exact mem_append_right _ hx
    exact Finset.mem_coe.mp ((hm.of_confirm hroot hfree' hconfirm).mp rfl)

lemma getAdditions_eq_some {root : Bytes32} {additions : Option (List Bytes32)} {getAll : Bool}
    {reply : Reply RespondAdditions} {coins : List Coin}
    (h : getAdditions sha256 root additions getAll (fun _ => reply) = .ok (some coins)) :
    coins = [] ∨ ∃ r, reply = .respond r ∧ validateAdditions sha256 r.coins r.proofs root = .ok true ∧
      coins = r.coins.flatMap fun entry => sortByNameStr sha256 entry.2 := by
  unfold getAdditions at h
  split at h
  · cases reply with
    | nothing => cases h
    | reject => cases h
    | respond r =>
      obtain ⟨hvalidated, h⟩ := ok_of_guard (Option.some_ne_none coins).symm h
      cases h
      exact .inr ⟨r, rfl, hvalidated, rfl⟩
  · cases h
    exact .inl rfl

lemma additionsAuthentic_of_noDisguisedList (hroots : b.CorrectRoots sha256)
    (hlists : NoDisguisedList sha256 b) : AdditionsAuthentic sha256 b := by
  intro additions getAll reply coins hfree h c hc
  rcases getAdditions_eq_some h with rfl | ⟨r, rfl, hvalid, rfl⟩
  · cases hc
  obtain ⟨entry, hentry, hc⟩ := mem_flatMap.mp hc
  rw [mem_sortByNameStr] at hc
  have hentryInputs : listPreimage sha256 entry.2 :: entry.2.map preimage ⊆ additionsInputs sha256 r :=
    fun x hx => mem_append_left _ (mem_flatMap.mpr ⟨entry, hentry, hx⟩)
  obtain ⟨d, hd, hleaf | hleaf⟩ := (mem_additionLeaves sha256 b.additions _).mp
    (mem_leaves_of_validateAdditions hroots hfree hvalid hentry (ne_nil_of_mem hc))
  · -- the hash is a puzzle hash
    exact hlists entry.2 ⟨d, hd, hleaf.symm⟩ (hfree.mono_append (List.Subset.refl _) hentryInputs) c hc
  -- the hash is that of a group
  have hgroup : ∀ x ∈ b.group d, x ∈ b.additions := fun x hx => mem_of_mem_filter hx
  have hperm : entry.2.Perm (b.group d) := by
    apply perm_of_hashCoinList_eq hfree
    · exact fun x hx => mem_append_right _ (hentryInputs (mem_cons_of_mem _ (mem_map_of_mem hx)))
    · exact fun x hx => mem_append_left _ (b.preimage_mem (.inl (hgroup x hx)))
    · exact mem_append_right _ (hentryInputs mem_cons_self)
    · exact mem_append_left _ (b.listPreimage_mem hd)
    · exact hleaf
  exact hgroup c (hperm.mem_iff.mp hc)

lemma noDisguisedList_of_additionsAuthentic (hroots : b.CorrectRoots sha256)
    (hauthentic : AdditionsAuthentic sha256 b) : NoDisguisedList sha256 b := by
  rintro coins ⟨d, hd, hhash⟩ hfree c hc
  have hbuild := buildMerkleSet_forgedAdditions hd hhash
  obtain ⟨m, -, -, -, hroot, -, hm, -⟩ := hroots.stores
  apply hauthentic none true (.respond (forgedAdditions sha256 b coins))
    ((forgedAdditions sha256 b coins).coins.flatMap fun entry => sortByNameStr sha256 entry.2)
  · -- nothing is hashed that was not hashed for the block or the new list
    apply hfree.mono
    intro x hx
    rcases mem_append.mp hx with hx | hx
    · exact mem_append_left _ hx
    rcases mem_append.mp hx with hx | hx
    · obtain ⟨entry, hentry, hx⟩ := mem_flatMap.mp hx
      rcases mem_append.mp hentry with hentry | hentry
      · obtain ⟨p, cs⟩ := entry
        rw [Dict.mem_entries, get?_puzzlehashCoinsMap] at hentry
        split at hentry
        · cases hentry
        rename_i hne
        cases hentry
        obtain ⟨e, he⟩ := exists_mem_of_ne_nil _ hne
        have hp : e.puzzleHash = p := of_decide_eq_true (mem_filter.mp he).2
        apply mem_append_left
        rcases mem_cons.mp hx with rfl | hx
        · rw [← hp]
          exact b.listPreimage_mem (mem_of_mem_filter he)
        · obtain ⟨y, hy, rfl⟩ := mem_map.mp hx
          exact b.preimage_mem (.inl (mem_of_mem_filter hy))
      · obtain rfl := mem_singleton.mp hentry
        exact mem_append_right _ hx
    · apply mem_append_left
      apply b.setInputs_subset.1
      unfold setInputs at hx ⊢
      rwa [← hbuild]
  · have hvalid : validateAdditions sha256 (forgedAdditions sha256 b coins).coins none b.additionsRoot = .ok true := by
      change (buildMerkleSet sha256 (replyLeaves sha256 (forgedAdditions sha256 b coins).coins) >>= _) = _
      rw [hbuild, hm]
      simp only [ok_bind, hroot, decide_true, except_pure]
    unfold getAdditions
    simp only [Bool.or_true, if_true]
    rw [show (forgedAdditions sha256 b coins).proofs = none from rfl, hvalid]
    rfl
  · apply mem_flatMap.mpr
    refine ⟨(hashCoinList sha256 coins, coins), mem_append_right _ mem_cons_self, ?_⟩
    exact mem_sortByNameStr.mpr hc

lemma validateRemoval_eq_true {root : Bytes32} {entry : Bytes32 × Option Coin} {proof : Bytes32 × Bytes}
    (h : validateRemoval sha256 root entry proof = .ok true) :
    (entry.2 = none ∧ confirmNotIncludedAlreadyHashed sha256 root.toBytes entry.1.toBytes proof.2 = .ok true) ∨
    (∃ coin, entry.2 = some coin ∧ entry.1 = coin.name sha256 ∧
      confirmIncludedAlreadyHashed sha256 root.toBytes (coin.name sha256).toBytes proof.2 = .ok true) := by
  unfold validateRemoval at h
  split at h
  · cases h
  cases hcoin : entry.2 with
  | none =>
    rw [hcoin] at h
    exact .inl ⟨rfl, h⟩
  | some coin =>
    rw [hcoin] at h
    dsimp only at h
    split at h
    · cases h
    · rename_i hname
      exact .inr ⟨coin, rfl, not_not.mp hname, h⟩

lemma validateRemovals_eq_true (hroots : b.CorrectRoots sha256) {r : RespondRemovals}
    (hfree : CollisionFree sha256 (b.inputs sha256 ++ removalsInputs sha256 r))
    (h : validateRemovals sha256 r.coins r.proofs b.removalsRoot = .ok true) :
    (r.proofs = none ∧ ∀ k, k ∈ (r.coins.filterMap Prod.snd).map (name sha256) ↔ k ∈ b.removals.map (name sha256)) ∨
    ∀ entry ∈ r.coins, (entry.2 = none ∧ entry.1 ∉ b.removals.map (name sha256)) ∨
      ∃ coin, entry.2 = some coin ∧ entry.1 = coin.name sha256 ∧ entry.1 ∈ b.removals.map (name sha256) := by
  obtain ⟨m, m', -, hm', -, hroot, -, hbuild⟩ := hroots.stores
  have hblock : rootHashed m' ⊆ b.inputs sha256 := setInputs_eq hbuild ▸ b.setInputs_subset.2
  unfold removalsInputs at hfree
  unfold validateRemovals at h
  cases hproofs : r.proofs with
  | none =>
    rw [hproofs] at h hfree
    refine .inl ⟨rfl, fun k => ?_⟩
    rw [← mem_toFinset (l := b.removals.map _)]
    exact mem_iff_of_root hm' hroot (hfree.mono_append hblock (subset_append_right _ _)) h k
  | some proofs =>
    rw [hproofs] at h hfree
    right
    dsimp only at h
    split at h
    · cases h
    intro entry hentry
    obtain ⟨proof, hproof, hvalid⟩ := validateEach_eq_true h entry hentry
    have hfree' : CollisionFree sha256 (rootHashed m' ++ proofHashed sha256 proof.2) :=
      hfree.mono_append hblock fun x hx => mem_append_right _ (mem_flatMap.mpr ⟨proof, hproof, hx⟩)
    rw [← mem_toFinset]
    rcases validateRemoval_eq_true hvalid with ⟨hnone, hconfirm⟩ | ⟨coin, hcoin, hname, hconfirm⟩
    · refine .inl ⟨hnone, fun hmem => ?_⟩
      cases (hm'.of_confirm hroot hfree' hconfirm).mpr hmem
    · refine .inr ⟨coin, hcoin, hname, ?_⟩
      rw [hname]
      exact (hm'.of_confirm hroot hfree' hconfirm).mp rfl

lemma getRemovals_eq_some {root : Bytes32} {walletType : Bytes32 → Option WalletType}
    {additions : List Coin} {removals : List Bytes32} {requestAll : Bool}
    {reply : Reply RespondRemovals} {coins : List Coin}
    (h : getRemovals sha256 root walletType additions removals requestAll (fun _ => reply) = .ok (some coins)) :
    coins = [] ∨ ∃ r, reply = .respond r ∧ validateRemovals sha256 r.coins r.proofs root = .ok true ∧
      coins = r.coins.filterMap Prod.snd := by
  unfold getRemovals at h
  dsimp only at h
  split at h
  · cases reply with
    | nothing => cases h
    | reject => cases h
    | respond r =>
      obtain ⟨hvalidated, h⟩ := ok_of_guard (Option.some_ne_none coins).symm h
      cases h
      exact .inr ⟨r, rfl, hvalidated, rfl⟩
  · cases h
    exact .inl rfl

lemma removalsAuthentic (hroots : b.CorrectRoots sha256) : RemovalsAuthentic sha256 b := by
  intro walletType additions removals requestAll reply coins hfree h c hc
  rcases getRemovals_eq_some h with rfl | ⟨r, rfl, hvalid, rfl⟩
  · cases hc
  have hname : c.name sha256 ∈ b.removals.map (name sha256) := by
    rcases validateRemovals_eq_true hroots hfree hvalid with ⟨-, hall⟩ | heach
    · exact (hall _).mp (mem_map_of_mem hc)
    obtain ⟨entry, hentry, hsome⟩ := mem_filterMap.mp hc
    rcases heach entry hentry with ⟨hnone, -⟩ | ⟨coin, hcoin, hkey, hmem⟩
    · rw [hnone] at hsome
      cases hsome
    · rw [hcoin] at hsome
      cases hsome
      rwa [← hkey]
  obtain ⟨d, hd, hdname⟩ := mem_map.mp hname
  have hc' : c.preimage ∈ b.inputs sha256 ++ removalsInputs sha256 r :=
    mem_append_right _ (mem_append_left _ (mem_map_of_mem hc))
  have hd' : d.preimage ∈ b.inputs sha256 ++ removalsInputs sha256 r := mem_append_left _ (b.preimage_mem (.inr hd))
  rw [← eq_of_name_eq hfree hd' hc' hdname]
  exact hd

/-- Coins that the wallet returns belong to the block exactly if no puzzle hash is the hash of a list of other coins. -/
theorem wallet_authentic_iff (b : CommittedBlock) (hroots : b.CorrectRoots sha256) :
    AdditionsAuthentic sha256 b ∧ RemovalsAuthentic sha256 b ↔ NoDisguisedList sha256 b := by
  constructor
  · rintro ⟨hadditions, -⟩
    exact noDisguisedList_of_additionsAuthentic hroots hadditions
  · intro hlists
    exact ⟨additionsAuthentic_of_noDisguisedList hroots hlists, removalsAuthentic hroots⟩

end

def committed (additions removals : List Coin) : CommittedBlock where
  additions := additions
  removals := removals
  additionsRoot := rootOf (additionLeaves sampleHash additions)
  removalsRoot := rootOf (removals.map (name sampleHash))

def madeUpCoin : Coin := ⟨.ofNat 32 7, .ofNat 32 9, 1000000000000, by decide⟩

lemma one_lt_amount : 1 < 2 ^ 64 := by decide

lemma five_lt_amount : 5 < 2 ^ 64 := by decide

/-- A coin whose puzzle hash hides a list. -/
def disguisedCoin : Coin := ⟨.ofNat 32 3, hashCoinList sampleHash [madeUpCoin], 1, one_lt_amount⟩

def plainCoin : Coin := ⟨.ofNat 32 3, .ofNat 32 (2 ^ 256 - 1), 5, five_lt_amount⟩

lemma sampleHash_ne (bs : Bytes) : sampleHash bs ≠ .ofNat 32 (2 ^ 256 - 1) := by
  intro h
  have hbytes : beNat (sampleHash bs).toBytes = 2 ^ 256 - 1 := by
    rw [h]
    decide +kernel
  unfold sampleHash SizedBytes.ofNat at hbytes
  rw [beNat_beBytes] at hbytes
  omega

lemma correctRoots_plain : (committed [plainCoin] [madeUpCoin]).CorrectRoots sampleHash := by
  unfold CommittedBlock.CorrectRoots
  decide +kernel

lemma collisionFree_plain : CollisionFree sampleHash ((committed [plainCoin] [madeUpCoin]).inputs sampleHash) := by
  constructor <;> decide +kernel

theorem wallet_authentic_plain : AdditionsAuthentic sampleHash (committed [plainCoin] [madeUpCoin]) ∧
      RemovalsAuthentic sampleHash (committed [plainCoin] [madeUpCoin]) := by
  apply (wallet_authentic_iff (committed [plainCoin] [madeUpCoin]) correctRoots_plain).mpr
  rintro coins ⟨c, hc, hhash⟩
  obtain rfl := mem_singleton.mp hc
  exact absurd hhash.symm (sampleHash_ne _)

theorem disguised_list_accepted : (committed [disguisedCoin] []).CorrectRoots sampleHash ∧
      ¬ AdditionsAuthentic sampleHash (committed [disguisedCoin] []) := by
  refine ⟨by unfold CommittedBlock.CorrectRoots; decide +kernel, fun h => ?_⟩
  have hfree : CollisionFree sampleHash ((committed [disguisedCoin] []).inputs sampleHash ++
      additionsInputs sampleHash (forgedAdditions sampleHash (committed [disguisedCoin] []) [madeUpCoin])) := by
    constructor <;> decide +kernel
  have hmem := h (some [disguisedCoin.puzzleHash]) false
    (.respond (forgedAdditions sampleHash (committed [disguisedCoin] []) [madeUpCoin]))
    [disguisedCoin, madeUpCoin] hfree (by decide +kernel) madeUpCoin (by decide)
  exact absurd hmem (by decide +kernel)

def emptyAdditions : RespondAdditions := ⟨[], some []⟩

def emptyRemovals : RespondRemovals := ⟨[], some []⟩

lemma getAdditions_emptyAdditions [RecursionLimit] (root : Bytes32) (additions : Option (List Bytes32)) (getAll : Bool) :
    getAdditions sha256 root additions getAll (fun _ => .respond emptyAdditions) = .ok (some []) := by
  unfold getAdditions
  split <;> rfl

lemma getRemovals_emptyRemovals [RecursionLimit] (root : Bytes32) (walletType : Bytes32 → Option WalletType)
    (additions : List Coin) (removals : List Bytes32) (requestAll : Bool) :
    getRemovals sha256 root walletType additions removals requestAll (fun _ => .respond emptyRemovals) =
      .ok (some []) := by
  unfold getRemovals
  dsimp only
  split <;> rfl

/-- The wallet gets all coins it asked for exactly if there are none: the empty reply is accepted. -/
theorem wallet_complete_iff [RecursionLimit] (b : CommittedBlock) (hfree : CollisionFree sha256 (b.inputs sha256))
    (puzzleHashes names : List Bytes32) :
    AdditionsComplete sha256 b puzzleHashes ∧ RemovalsComplete sha256 b names ↔
      (∀ c ∈ b.additions, c.puzzleHash ∉ puzzleHashes) ∧ ∀ c ∈ b.removals, c.name sha256 ∉ names := by
  have hfree' : CollisionFree sha256 (b.inputs sha256 ++ []) := by rwa [append_nil]
  constructor
  · rintro ⟨hadditions, hremovals⟩
    refine ⟨fun c hc hasked => ?_, fun c hc hasked => ?_⟩
    · have hmem := hadditions (.respond emptyAdditions) [] hfree'
        (getAdditions_emptyAdditions _ _ _) c hc hasked
      cases hmem
    · have hmem := hremovals (fun _ => none) [] false (.respond emptyRemovals) [] hfree'
        (getRemovals_emptyRemovals _ _ _ _ _) c hc hasked
      cases hmem
  · rintro ⟨hadditions, hremovals⟩
    constructor
    · intro reply coins _ _ c hc hasked
      exact absurd hasked (hadditions c hc)
    · intro walletType additions requestAll reply coins _ _ c hc hasked
      exact absurd hasked (hremovals c hc)

theorem wallet_complete_none_asked :
    AdditionsComplete sampleHash (committed [plainCoin] [madeUpCoin]) [madeUpCoin.puzzleHash] ∧
      RemovalsComplete sampleHash (committed [plainCoin] [madeUpCoin]) [plainCoin.name sampleHash] := by
  apply (wallet_complete_iff _ collisionFree_plain _ _).mpr
  decide +kernel

theorem empty_reply_omits : (committed [plainCoin] [madeUpCoin]).CorrectRoots sampleHash ∧
      ¬ AdditionsComplete sampleHash (committed [plainCoin] [madeUpCoin]) [plainCoin.puzzleHash] ∧
      ¬ RemovalsComplete sampleHash (committed [plainCoin] [madeUpCoin]) [madeUpCoin.name sampleHash] := by
  have hfree : CollisionFree sampleHash ((committed [plainCoin] [madeUpCoin]).inputs sampleHash ++ []) := by
    exact collisionFree_plain
  refine ⟨correctRoots_plain, fun h => ?_, fun h => ?_⟩
  · have hmem := h (.respond emptyAdditions) [] hfree (getAdditions_emptyAdditions _ _ _) plainCoin
      (by decide) (by decide)
    cases hmem
  · have hmem := h (fun _ => none) [] false (.respond emptyRemovals) [] hfree
      (getRemovals_emptyRemovals _ _ _ _ _) madeUpCoin (by decide) (by decide)
    cases hmem

variable {b' : CommittedBlock}

/-- One half of `roots_determine_coins`: what one block creates and spends, the other does. -/
lemma subset_of_roots (hroots : b.CorrectRoots sha256) (hroots' : b'.CorrectRoots sha256)
    (hadditions : b.additionsRoot = b'.additionsRoot) (hremovals : b.removalsRoot = b'.removalsRoot)
    (hlists : NoDisguisedList sha256 b') (hfree : CollisionFree sha256 (b'.inputs sha256 ++ b.inputs sha256)) :
    b.additions ⊆ b'.additions ∧ b.removals ⊆ b'.removals := by
  obtain ⟨m, n, hm, hn, hmroot, hnroot, hmbuild, hnbuild⟩ := hroots.stores
  obtain ⟨m', n', hm', hn', hmroot', hnroot', hmbuild', hnbuild'⟩ := hroots'.stores
  have hleaves := hm'.eq_of_root hm hmroot' (hadditions ▸ hmroot)
    (hfree.mono_append (setInputs_eq hmbuild' ▸ b'.setInputs_subset.1) (setInputs_eq hmbuild ▸ b.setInputs_subset.1))
  have hnames := hn'.eq_of_root hn hnroot' (hremovals ▸ hnroot)
    (hfree.mono_append (setInputs_eq hnbuild' ▸ b'.setInputs_subset.2) (setInputs_eq hnbuild ▸ b.setInputs_subset.2))
  constructor
  · intro c hc
    have hgroup : c ∈ b.group c := mem_filter.mpr ⟨hc, decide_eq_true rfl⟩
    have hpreimages : ∀ x ∈ b.group c, x.preimage ∈ b.inputs sha256 :=
      fun x hx => b.preimage_mem (.inl (mem_of_mem_filter hx))
    have hleaf : hashCoinList sha256 (b.group c) ∈ additionLeaves sha256 b'.additions := by
      rw [← mem_toFinset, ← Finset.mem_coe, hleaves, Finset.mem_coe, mem_toFinset, mem_additionLeaves]
      exact ⟨c, hc, .inr rfl⟩
    obtain ⟨d, hd, hpuzzle | hlist⟩ := (mem_additionLeaves sha256 b'.additions _).mp hleaf
    · refine hlists (b.group c) ⟨d, hd, hpuzzle.symm⟩ (hfree.mono_append (List.Subset.refl _) fun x hx => ?_) c hgroup
      rcases mem_cons.mp hx with rfl | hx
      · exact b.listPreimage_mem hc
      · obtain ⟨e, he, rfl⟩ := mem_map.mp hx
        exact hpreimages e he
    · have hperm : (b.group c).Perm (b'.group d) := by
        apply perm_of_hashCoinList_eq hfree
        · exact fun x hx => mem_append_right _ (hpreimages x hx)
        · exact fun x hx => mem_append_left _ (b'.preimage_mem (.inl (mem_of_mem_filter hx)))
        · exact mem_append_right _ (b.listPreimage_mem hc)
        · exact mem_append_left _ (b'.listPreimage_mem hd)
        · exact hlist
      exact mem_of_mem_filter (hperm.mem_iff.mp hgroup)
  · intro c hc
    have hname : c.name sha256 ∈ b'.removals.map (name sha256) := by
      rw [← mem_toFinset, ← Finset.mem_coe, hnames, Finset.mem_coe, mem_toFinset]
      exact mem_map_of_mem hc
    obtain ⟨d, hd, hdname⟩ := mem_map.mp hname
    rw [← eq_of_name_eq hfree (mem_append_left _ (b'.preimage_mem (.inr hd)))
      (mem_append_right _ (b.preimage_mem (.inr hc))) hdname]
    exact hd

/-- The roots in a header leave no choice of the coins of its block: two bodies that validate against them create and
spend the same coins, unless a puzzle hash is the hash of a list of other coins. -/
theorem roots_determine_coins (b b' : CommittedBlock) (hroots : b.CorrectRoots sha256) (hroots' : b'.CorrectRoots sha256)
    (hadditions : b.additionsRoot = b'.additionsRoot) (hremovals : b.removalsRoot = b'.removalsRoot)
    (hlists : NoDisguisedList sha256 b) (hlists' : NoDisguisedList sha256 b')
    (hfree : CollisionFree sha256 (b.inputs sha256 ++ b'.inputs sha256)) :
    (∀ c, c ∈ b.additions ↔ c ∈ b'.additions) ∧ ∀ c, c ∈ b.removals ↔ c ∈ b'.removals := by
  have hfree' : CollisionFree sha256 (b'.inputs sha256 ++ b.inputs sha256) :=
    hfree.mono (append_subset.mpr ⟨subset_append_right _ _, subset_append_left _ _⟩)
  obtain ⟨hadded, hremoved⟩ := subset_of_roots hroots hroots' hadditions hremovals hlists' hfree'
  obtain ⟨hadded', hremoved'⟩ := subset_of_roots hroots' hroots hadditions.symm hremovals.symm hlists hfree
  exact ⟨fun c => ⟨@hadded c, @hadded' c⟩, fun c => ⟨@hremoved c, @hremoved' c⟩⟩

def plainTwin : Coin := ⟨.ofNat 32 4, .ofNat 32 (2 ^ 256 - 1), 5, five_lt_amount⟩

theorem roots_determine_coins_reordered :
    (∀ c, c ∈ [plainCoin, plainTwin] ↔ c ∈ [plainTwin, plainCoin]) ∧ ∀ c, c ∈ [madeUpCoin] ↔ c ∈ [madeUpCoin] := by
  have hlists : ∀ additions ⊆ [plainCoin, plainTwin], NoDisguisedList sampleHash (committed additions [madeUpCoin]) := by
    rintro additions hsub coins ⟨c, hc, hhash⟩
    have hpuzzle : c.puzzleHash = .ofNat 32 (2 ^ 256 - 1) := by
      rcases mem_pair.mp (hsub hc) with rfl | rfl
      · rfl
      · rfl
    exact absurd (hhash.symm.trans hpuzzle) (sampleHash_ne _)
  exact roots_determine_coins (committed [plainCoin, plainTwin] [madeUpCoin])
    (committed [plainTwin, plainCoin] [madeUpCoin])
    (by unfold CommittedBlock.CorrectRoots; decide +kernel) (by unfold CommittedBlock.CorrectRoots; decide +kernel)
    (by decide +kernel) rfl (hlists _ (by simp)) (hlists _ (by simp)) (by constructor <;> decide +kernel)

end SectorChain.Proofs
