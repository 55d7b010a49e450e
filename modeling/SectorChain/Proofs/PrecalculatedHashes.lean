import SectorChain.Wallet.Puzzles.TreeHash

/-!
# The stack machine of the tree hash

`handle_sexp` replaces the top of the stack by its hash.
-/

namespace SectorChain.Proofs.PrecalculatedHashes

open Clvm List

variable {stdHash : Bytes → Bytes32} {precalculated : List Bytes32}

lemma toBytes_treeHashWith_atom (bs : Bytes) : ((SExp.atom bs).treeHashWith stdHash precalculated).toBytes =
    if bs ∈ precalculated.map SizedBytes.toBytes then bs else (stdHash (1 :: bs)).toBytes := by
  rw [SExp.treeHashWith]
  cases hfind : precalculated.find? (·.toBytes = bs) with
  | some h =>
    have hbs : h.toBytes = bs := by simpa using find?_some hfind
    rw [if_pos (mem_map.mpr ⟨h, mem_of_find?_eq_some hfind, hbs⟩)]
    exact hbs
  | none =>
    rw [if_neg]
    · rfl
    · intro hmem
      obtain ⟨h, hh, hbs⟩ := mem_map.mp hmem
      simpa [hbs] using find?_eq_none.mp hfind h hh

/-- The number of operations that hashing a program takes. -/
def operations : SExp → ℕ
  | .atom _ => 1
  | .pair l r => operations l + operations r + 3

lemma treehashLoop_sexp (v : SExp) (fuel : ℕ) (sexps : List TreeItem) (ops : List TreeOp) :
    treehashLoop stdHash precalculated (fuel + operations v) (.sexp v :: sexps) (.handleSexp :: ops) =
      treehashLoop stdHash precalculated fuel (.hash (v.treeHashWith stdHash precalculated).toBytes :: sexps) ops := by
  induction v generalizing fuel sexps ops with
  | atom bs =>
    rw [toBytes_treeHashWith_atom]
    rfl
  | pair l r ihl ihr =>
    -- the right subtree is on top and hashed first, `roll` brings the left one up
    have hfuel : fuel + operations (.pair l r) = fuel + 1 + operations l + 1 + operations r + 1 := by
      rw [operations]
      omega
    rw [hfuel]
    change treehashLoop stdHash precalculated (fuel + 1 + operations l + 1 + operations r) (.sexp r :: .sexp l :: sexps)
      (.handleSexp :: .roll :: .handleSexp :: .handlePair :: ops) = _
    rw [ihr]
    change treehashLoop stdHash precalculated (fuel + 1 + operations l) (.sexp l :: .hash _ :: sexps)
      (.handleSexp :: .handlePair :: ops) = _
    rw [ihl]
    rfl

lemma sha256Treehash_eq {v : SExp} {fuel : ℕ} (hfuel : operations v ≤ fuel) :
    sha256Treehash stdHash precalculated fuel v = .ok (v.treeHashWith stdHash precalculated) := by
  obtain ⟨k, rfl⟩ := Nat.exists_eq_add_of_le' hfuel
  rw [sha256Treehash, treehashLoop_sexp, treehashLoop]
  exact dif_pos (SizedBytes.length_toBytes _)

/-- The two stacks compute what the recursion computes, for every set of precalculated hashes. -/
theorem sha256Treehash_terminates (stdHash : Bytes → Bytes32) (precalculated : List Bytes32) (v : SExp) :
    ∃ n, ∀ fuel ≥ n, sha256Treehash stdHash precalculated fuel v = .ok (v.treeHashWith stdHash precalculated) :=
  ⟨operations v, fun _ hfuel => sha256Treehash_eq hfuel⟩

def atoms : SExp → List Bytes
  | .atom bs => [bs]
  | .pair l r => atoms l ++ atoms r

lemma treeHashWith_of_notMem {v : SExp} (h : ∀ p ∈ precalculated, p.toBytes ∉ atoms v) :
    v.treeHashWith stdHash precalculated = v.treeHash stdHash := by
  induction v with
  | atom bs =>
    have hfind : precalculated.find? (·.toBytes = bs) = none :=
      find?_eq_none.mpr fun p hp => by simpa [atoms] using h p hp
    rw [SExp.treeHashWith, hfind]
    rfl
  | pair l r ihl ihr =>
    have hmem : ∀ p ∈ precalculated, p.toBytes ∉ atoms l ∧ p.toBytes ∉ atoms r := fun p hp => by
      simpa [atoms, not_or] using h p hp
    rw [SExp.treeHashWith, SExp.treeHash, ihl fun p hp => (hmem p hp).1, ihr fun p hp => (hmem p hp).2]

/-- A hash that was calculated before stands for itself. -/
lemma treeHashWith_self {h : Bytes32} (hmem : h ∈ precalculated) :
    (SExp.atom h.toBytes).treeHashWith stdHash precalculated = h := by
  apply SizedBytes.toBytes_injective
  rw [toBytes_treeHashWith_atom, if_pos (mem_map_of_mem hmem)]

lemma treeHashWith_nil (v : SExp) : v.treeHashWith stdHash [] = v.treeHash stdHash :=
  treeHashWith_of_notMem (by simp)

lemma treeHashWith_curry {m m' : SExp} {args args' : List SExp}
    (hm : m.treeHashWith stdHash precalculated = m'.treeHash stdHash)
    (hargs : Forall₂ (fun a b => a.treeHashWith stdHash precalculated = b.treeHash stdHash) args args') :
    (curry m args).treeHashWith stdHash precalculated = (curry m' args').treeHash stdHash := by
  have hshort : ∀ bs : Bytes, bs.length < 32 →
      (SExp.atom bs).treeHashWith stdHash precalculated = (SExp.atom bs).treeHash stdHash := by
    intro bs hbs
    refine treeHashWith_of_notMem fun p _ hmem => ?_
    rw [← mem_singleton.mp hmem, SizedBytes.length_toBytes] at hbs
    omega
  have hcell : ∀ {kw : Bytes} {a b e f : SExp}, kw.length < 32 →
      a.treeHashWith stdHash precalculated = b.treeHash stdHash →
      e.treeHashWith stdHash precalculated = f.treeHash stdHash →
      (cell kw a e).treeHashWith stdHash precalculated = (cell kw b f).treeHash stdHash := by
    intro kw a b e f hkw ha he
    simp only [cell, SExp.ofList, SExp.treeHashWith.eq_2, SExp.treeHash.eq_2, hshort kw hkw, hshort [1] (by decide),
      hshort [] (by decide), ha, he]
  refine hcell (by decide) hm ?_
  induction hargs with
  | nil => exact hshort [1] (by decide)
  | cons ha _ ih => exact hcell (by decide) ha ih

/-- `cc_puzzle_hash_for_inner_puzzle_hash` is right if the escaped hashes occur nowhere else. -/
theorem ccPuzzleHash_eq (stdHash : Bytes → Bytes32) (modCode genesisCoinChecker innerPuzzle : SExp)
    (hclash : ∀ h ∈ [genesisCoinChecker.treeHash stdHash, innerPuzzle.treeHash stdHash], h.toBytes ∉
      atoms (curry modCode [.atom (modCode.treeHash stdHash).toBytes, .atom [], .atom []])) :
    ∃ n, ∀ fuel ≥ n, ∃ innerPuzzleHash puzzle puzzleHash,
      getTreeHash stdHash fuel innerPuzzle [] = .ok innerPuzzleHash ∧
      ccPuzzleForInnerPuzzle stdHash fuel modCode genesisCoinChecker innerPuzzle = .ok puzzle ∧
      getTreeHash stdHash fuel puzzle [] = .ok puzzleHash ∧
      ccPuzzleHashForInnerPuzzleHash stdHash fuel modCode genesisCoinChecker innerPuzzleHash = .ok puzzleHash := by
  set modHash := modCode.treeHash stdHash with hmodHash
  set gccHash := genesisCoinChecker.treeHash stdHash with hgccHash
  set innerHash := innerPuzzle.treeHash stdHash with hinnerHash
  let puzzle := curry modCode [.atom modHash.toBytes, genesisCoinChecker, innerPuzzle]
  let curried := curry modCode [.atom modHash.toBytes, .atom gccHash.toBytes, .atom innerHash.toBytes]
  have hget : ∀ {fuel : ℕ} {v : SExp}, operations v ≤ fuel → getTreeHash stdHash fuel v [] = .ok (v.treeHash stdHash) := by
    intro fuel v hfuel
    rw [getTreeHash, sha256Treehash_eq hfuel, treeHashWith_nil]
  have hcurried : curried.treeHashWith stdHash [gccHash, innerHash] = puzzle.treeHash stdHash := by
    have hparts : ∀ h ∈ [gccHash, innerHash], h.toBytes ∉ atoms modCode ∧ h.toBytes ≠ modHash.toBytes := by
      intro h hh
      have hnot := hclash h hh
      simp only [curry, curriedArgs, foldr, cell, SExp.ofList, atoms, mem_append, mem_singleton, not_or] at hnot
      exact ⟨hnot.2.1.2, hnot.2.2.1.2.1.2⟩
    refine treeHashWith_curry (treeHashWith_of_notMem fun h hh => (hparts h hh).1) (.cons ?_ (.cons ?_ (.cons ?_ .nil)))
    · exact treeHashWith_of_notMem fun h hh hmem => (hparts h hh).2 (mem_singleton.mp hmem)
    · exact treeHashWith_self (by simp)
    · exact treeHashWith_self (by simp)
  refine ⟨operations modCode + operations genesisCoinChecker + operations innerPuzzle + operations puzzle +
    operations curried, fun fuel hfuel => ⟨innerHash, puzzle, puzzle.treeHash stdHash, hget (by omega), ?_,
    hget (by omega), ?_⟩⟩
  · rw [ccPuzzleForInnerPuzzle, hget (by omega)]
    rfl
  · rw [ccPuzzleHashForInnerPuzzleHash, hget (by omega), hget (by omega)]
    change sha256Treehash stdHash [gccHash, innerHash] fuel curried = _
    rw [sha256Treehash_eq (by omega), hcurried]

/-- A hash that adds the bytes up keeps three one-byte programs apart. -/
theorem ccPuzzleHash_eq_atoms : ∃ n, ∀ fuel ≥ n, ∃ innerPuzzleHash puzzle puzzleHash,
    getTreeHash (fun bs => .ofNat 32 (bs.map UInt8.toNat).sum) fuel (.atom [5]) [] = .ok innerPuzzleHash ∧
    ccPuzzleForInnerPuzzle (fun bs => .ofNat 32 (bs.map UInt8.toNat).sum) fuel (.atom [2]) (.atom [3]) (.atom [5]) =
      .ok puzzle ∧
    getTreeHash (fun bs => .ofNat 32 (bs.map UInt8.toNat).sum) fuel puzzle [] = .ok puzzleHash ∧
    ccPuzzleHashForInnerPuzzleHash (fun bs => .ofNat 32 (bs.map UInt8.toNat).sum) fuel (.atom [2]) (.atom [3])
      innerPuzzleHash = .ok puzzleHash :=
  ccPuzzleHash_eq _ _ _ _ (by decide)

end SectorChain.Proofs.PrecalculatedHashes
