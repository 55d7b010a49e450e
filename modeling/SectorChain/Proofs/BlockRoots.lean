import SectorChain.Consensus.BlockRootValidation
import SectorChain.Proofs.MerkleCanonicity
import Mathlib.Data.Finset.Lattice.Lemmas

/-!
# Block roots do not depend on the order of coins
-/

namespace SectorChain.Proofs
open Lib Lib.BitTrie MerkleSet List

lemma hexDigit_injective {m n : ℕ} (hm : m < 16) (hn : n < 16) (h : hexDigit m = hexDigit n) : m = n := by
  have hall : ∀ m < 16, ∀ n < 16, hexDigit m = hexDigit n → m = n := by decide
  exact hall m hm n hn h

lemma hex_injective {xs ys : Bytes} (h : hex xs = hex ys) : xs = ys := by
  unfold hex at h
  induction xs generalizing ys with
  | nil =>
    cases ys with
    | nil => rfl
    | cons y ys => simp at h
  | cons x xs ih =>
    cases ys with
    | nil => simp at h
    | cons y ys =>
      simp only [flatMap_cons, cons_append, nil_append, List.cons.injEq] at h
      have hx := x.toNat_lt
      have hy := y.toNat_lt
      have hhigh := hexDigit_injective (by omega) (by omega) h.1
      have hlow := hexDigit_injective (by omega) (by omega) h.2.1
      have hbyte : x = y := UInt8.toNat_inj.mp (by omega)
      rw [hbyte, ih h.2.2]

section Hash

variable (sha256 : Bytes → Bytes32)

variable (coins : List Coin) (values : List Bytes32)

lemma pairwise_names_sortByNameStr : List.Pairwise (fun a b : Bytes32 => ¬ hex a.toBytes < hex b.toBytes)
      ((sortByNameStr sha256 coins).map (Coin.name sha256)) := by
  have htrans : IsTrans Coin fun a b => ¬ a.nameStr sha256 < b.nameStr sha256 :=
    ⟨fun a b c hab hbc => List.le_trans hbc hab⟩
  have htotal : Std.Total fun a b : Coin => ¬ a.nameStr sha256 < b.nameStr sha256 := ⟨fun a b => List.le_total _ _⟩
  rw [pairwise_map]
  exact pairwise_insertionSort (fun a b : Coin => ¬ a.nameStr sha256 < b.nameStr sha256) coins

lemma perm_hashCoinList {coins coins' : List Coin} (h : coins.Perm coins') :
    hashCoinList sha256 coins = hashCoinList sha256 coins' := by
  have hsort : (sortByNameStr sha256 coins).Perm (sortByNameStr sha256 coins') :=
    ((perm_insertionSort _ coins).trans h).trans (perm_insertionSort _ coins').symm
  have hnames := (hsort.map (Coin.name sha256)).eq_of_pairwise
    (fun a b _ _ hab hba =>
      SizedBytes.toBytes_injective (hex_injective (List.le_antisymm hba hab)))
    (pairwise_names_sortByNameStr sha256 coins) (pairwise_names_sortByNameStr sha256 coins')
  unfold hashCoinList
  rw [← flatMap_map (Coin.name sha256) SizedBytes.toBytes,
    ← flatMap_map (Coin.name sha256) SizedBytes.toBytes, hnames]

lemma get?_puzzlehashCoinsMap (p : Bytes32) : (puzzlehashCoinsMap coins).get? p =
      if coins.filter (fun c => c.puzzleHash = p) = [] then none
      else some (coins.filter fun c => c.puzzleHash = p) := by
  induction coins using List.reverseRecOn with
  | nil => rfl
  | append_singleton coins coin ih =>
    rw [puzzlehashCoinsMap, foldl_append, foldl_cons, foldl_nil, ← puzzlehashCoinsMap]
    by_cases hp : p = coin.puzzleHash
    · subst hp
      rw [ih]
      by_cases hnil : coins.filter (fun c => c.puzzleHash = coin.puzzleHash) = []
      · simp [hnil]
      · simp [hnil]
    · have hp' : coin.puzzleHash ≠ p := fun h => hp h.symm
      cases (puzzlehashCoinsMap coins).get? coin.puzzleHash with
      | none => simp [Dict.get?_set, hp, hp', ih]
      | some cs => simp [Dict.get?_set, hp, hp', ih]

lemma mem_additionLeaves (x : Bytes32) : x ∈ additionLeaves sha256 coins ↔ ∃ coin ∈ coins, x = coin.puzzleHash ∨
      x = hashCoinList sha256 (coins.filter fun c => c.puzzleHash = coin.puzzleHash) := by
  unfold additionLeaves
  rw [mem_flatMap]
  constructor
  · intro h
    obtain ⟨⟨p, cs⟩, hmem, hx⟩ := h
    rw [Dict.mem_entries, get?_puzzlehashCoinsMap] at hmem
    split at hmem
    · exact absurd hmem (by simp)
    rename_i hne
    obtain ⟨coin, hcoin⟩ := exists_mem_of_ne_nil _ hne
    have hp : coin.puzzleHash = p := by simpa using (mem_filter.mp hcoin).2
    refine ⟨coin, (mem_filter.mp hcoin).1, ?_⟩
    rw [hp, Option.some.inj hmem]
    simpa using hx
  · intro h
    obtain ⟨coin, hcoin, hx⟩ := h
    refine ⟨(coin.puzzleHash, coins.filter fun c => c.puzzleHash = coin.puzzleHash), ?_, ?_⟩
    · have hne : coins.filter (fun c => c.puzzleHash = coin.puzzleHash) ≠ [] := by
        apply ne_nil_of_mem
        exact mem_filter.mpr ⟨hcoin, by simp⟩
      rw [Dict.mem_entries, get?_puzzlehashCoinsMap, if_neg hne]
    · simpa using hx

lemma perm_additionLeaves {coins coins' : List Coin} (h : coins.Perm coins') :
    (additionLeaves sha256 coins).toFinset = (additionLeaves sha256 coins').toFinset := by
  ext x
  have hgroup : ∀ coin : Coin, hashCoinList sha256 (coins.filter fun c => c.puzzleHash = coin.puzzleHash) =
        hashCoinList sha256 (coins'.filter fun c => c.puzzleHash = coin.puzzleHash) :=
    fun coin => perm_hashCoinList sha256 (h.filter _)
  rw [mem_toFinset, mem_toFinset, mem_additionLeaves, mem_additionLeaves]
  simp only [hgroup, h.mem_iff]

lemma net_map_add (S : Finset Bytes32) : net (values.map Op.add) S = S ∪ values.toFinset := by
  induction values generalizing S with
  | nil => simp [net]
  | cons v values ih =>
    have hstep : net ((v :: values).map Op.add) S = net (values.map Op.add) (Insert.insert v S) := rfl
    rw [hstep, ih]
    simp [Finset.insert_union]

lemma buildMerkleSet_eq_run : buildMerkleSet sha256 values = run sha256 (values.map Op.add) {} := by
  unfold buildMerkleSet run
  rw [foldlM_map]
  rfl

lemma stores_buildMerkleSet : ∃ m, buildMerkleSet sha256 values = .ok m ∧ Stores sha256 m values.toFinset := by
  obtain ⟨m, hrun, hm⟩ := stores_run sha256 (values.map Op.add)
  rw [net_map_add] at hm
  exact ⟨m, buildMerkleSet_eq_run sha256 values ▸ hrun, hm⟩

lemma buildMerkleSet_congr {values values' : List Bytes32} (h : values.toFinset = values'.toFinset) :
    buildMerkleSet sha256 values = buildMerkleSet sha256 values' := by
  obtain ⟨m, hbuild, hm⟩ := stores_buildMerkleSet sha256 values
  obtain ⟨m', hbuild', hm'⟩ := stores_buildMerkleSet sha256 values'
  rw [h] at hm
  rw [hbuild, hbuild', hm.unique hm']

lemma validateBlockMerkleRoots_total (additionsRoot removalsRoot : Bytes32)
    (additions : List Coin) (removals : List Bytes32) :
    ∃ err, validateBlockMerkleRoots sha256 additionsRoot removalsRoot additions removals = .ok err := by
  obtain ⟨m, hm, hS⟩ := stores_buildMerkleSet sha256 removals
  obtain ⟨m', hm', hS'⟩ := stores_buildMerkleSet sha256 (additionLeaves sha256 additions)
  obtain ⟨root, hroot⟩ := hS.getRoot
  obtain ⟨root', hroot'⟩ := hS'.getRoot
  unfold validateBlockMerkleRoots
  simp only [hm, hm', hroot, hroot', ok_bind]
  split
  · exact ⟨_, rfl⟩
  · split <;> exact ⟨_, rfl⟩

/-- The root of a Merkle set is a function of its set of values, whatever calls built it. -/
theorem merkleSet_canonical :
    (∀ S : Finset Bytes32, ∃ m root, m.getRoot sha256 = .ok root ∧ (∀ ops, net ops ∅ = S → run sha256 ops {} = .ok m) ∧
      (∀ v ∈ S, m.addAlreadyHashed sha256 v.toBytes = .ok m) ∧
      (∀ v, v ∉ S → m.removeAlreadyHashed sha256 v.toBytes = .ok m)) ∧
    (∀ additionsRoot removalsRoot additions additions' removals removals',
      List.Perm additions additions' → List.Perm removals removals' →
      ∃ err, validateBlockMerkleRoots sha256 additionsRoot removalsRoot additions removals = .ok err ∧
        validateBlockMerkleRoots sha256 additionsRoot removalsRoot additions' removals' = .ok err) := by
  constructor
  · intro S
    obtain ⟨m, hm⟩ := exists_stores sha256 S
    obtain ⟨root, hroot⟩ := hm.getRoot
    refine ⟨m, root, hroot, ?_, fun v hv => hm.add_of_mem hv, fun v hv => hm.remove_of_notMem hv⟩
    intro ops hops
    obtain ⟨m', hrun, hm'⟩ := stores_run sha256 ops
    rw [hops] at hm'
    rw [hrun, hm'.unique hm]
  · intro additionsRoot removalsRoot additions additions' removals removals' hadd hrem
    obtain ⟨err, herr⟩ := validateBlockMerkleRoots_total sha256 additionsRoot removalsRoot
      additions removals
    refine ⟨err, herr, ?_⟩
    rw [← herr]
    unfold validateBlockMerkleRoots
    rw [buildMerkleSet_congr sha256 (toFinset_eq_of_perm _ _ hrem),
      buildMerkleSet_congr sha256 (perm_additionLeaves sha256 hadd)]

end Hash

end SectorChain.Proofs
