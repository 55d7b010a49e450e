import SectorChain.Wallet.Puzzles.Clvm

/-!
# Hashes of trees and curried programs

Without collisions a puzzle hash determines the puzzle.
-/

namespace SectorChain.Proofs

open Clvm List

variable {hash : Bytes → Bytes32} {T : Set (List Bytes)}

lemma sha256tree_atom (bs : Bytes) : sha256tree hash (.atom bs) = sha256 hash [[1], bs] := by
  simp [sha256tree, sha256, SExp.treeHash]

lemma sha256tree_pair (l r : SExp) : sha256tree hash (.pair l r) =
    sha256 hash [[2], sha256tree hash l, sha256tree hash r] := by
  simp [sha256tree, sha256, SExp.treeHash]

def treeTuples (stdHash : Bytes → Bytes32) : SExp → List (List Bytes)
  | .atom bs => [[[1], bs]]
  | .pair l r =>
    [[2], sha256tree stdHash l, sha256tree stdHash r] :: (treeTuples stdHash l ++ treeTuples stdHash r)

variable (stdHash : Bytes → Bytes32)

/-- The tuples of `p` are among those without collisions. -/
def Hashed (T : Set (List Bytes)) (p : SExp) : Prop :=
  ∀ t ∈ treeTuples stdHash p, t ∈ T

lemma Hashed.left {l r : SExp} (h : Hashed hash T (.pair l r)) : Hashed hash T l := fun t ht =>
  h t (mem_cons_of_mem _ (mem_append_left _ ht))

lemma Hashed.right {l r : SExp} (h : Hashed hash T (.pair l r)) : Hashed hash T r := fun t ht =>
  h t (mem_cons_of_mem _ (mem_append_right _ ht))

variable (hinj : Set.InjOn (sha256 hash) T)
include hinj

lemma eq_atom_of_hash {p : SExp} {bs : Bytes} (hp : Hashed hash T p) (ht : [[1], bs] ∈ T)
    (h : sha256tree hash p = sha256 hash [[1], bs]) : p = .atom bs := by
  cases p with
  | atom bs' =>
    rw [sha256tree_atom] at h
    have hsame := hinj (hp _ mem_cons_self) ht h
    simp only [List.cons.injEq, and_true, true_and] at hsame
    rw [hsame]
  | pair l r =>
    rw [sha256tree_pair] at h
    have hsame := hinj (hp _ mem_cons_self) ht h
    simp at hsame

lemma eq_pair_of_hash {p : SExp} {a b : Bytes} (hp : Hashed hash T p) (ht : [[2], a, b] ∈ T)
    (h : sha256tree hash p = sha256 hash [[2], a, b]) :
    ∃ l r, p = .pair l r ∧ sha256tree hash l = a ∧ sha256tree hash r = b := by
  cases p with
  | atom bs' =>
    rw [sha256tree_atom] at h
    have hsame := hinj (hp _ mem_cons_self) ht h
    simp at hsame
  | pair l r =>
    rw [sha256tree_pair] at h
    have hsame := hinj (hp _ mem_cons_self) ht h
    simp only [List.cons.injEq, and_true, true_and] at hsame
    exact ⟨l, r, rfl, hsame.1, hsame.2⟩

lemma eq_of_sha256tree {p q : SExp} (hp : Hashed hash T p) (hq : Hashed hash T q)
    (h : sha256tree hash p = sha256tree hash q) : p = q := by
  induction q generalizing p with
  | atom bs => exact eq_atom_of_hash hinj hp (hq _ mem_cons_self) (by rw [h, sha256tree_atom])
  | pair l r ihl ihr =>
    rw [sha256tree_pair] at h
    obtain ⟨l', r', rfl, hl, hr⟩ := eq_pair_of_hash hinj hp (hq _ mem_cons_self) h
    rw [ihl hp.left hq.left hl, ihr hp.right hq.right hr]

omit hinj

lemma sha256tree_cell (kw : Bytes) (parameter environment : SExp) :
    sha256tree hash (cell kw parameter environment) =
      treeHashOfCell hash kw (sha256tree hash parameter) (sha256tree hash environment) := by
  simp only [cell, SExp.ofList, sha256tree_pair, sha256tree_atom, treeHashOfCell]

def environmentHash (parameterHashes : List Bytes) : Bytes :=
  parameterHashes.foldr (updateHashForParameterHash stdHash) (sha256 stdHash [[1], [1]])

lemma puzzleHashOfCurriedFunction_eq (functionHash : Bytes) (reversed : List Bytes) :
    puzzleHashOfCurriedFunction hash functionHash reversed =
      treeHashOfApply hash functionHash (environmentHash hash reversed.reverse) := by
  have hbuild : ∀ (l : List Bytes) (e : Bytes), buildCurryList hash l e =
      l.reverse.foldr (updateHashForParameterHash hash) e := by
    intro l
    induction l with
    | nil => exact fun _ => rfl
    | cons p l ih =>
      intro e
      rw [buildCurryList, ih, reverse_cons, foldr_append]
      rfl
  rw [puzzleHashOfCurriedFunction, hbuild, environmentHash]

lemma sha256tree_curriedArgs (args : List SExp) :
    sha256tree hash (curriedArgs args) = environmentHash hash (args.map (sha256tree hash)) := by
  induction args with
  | nil => exact sha256tree_atom [1]
  | cons a args ih =>
    rw [curriedArgs, foldr_cons, sha256tree_cell, ← curriedArgs, ih]
    rfl

/-- `puzzle-hash-of-curried-function` computes the tree hash of the curried program. -/
theorem sha256tree_curry (program : SExp) (args : List SExp) :
    sha256tree hash (curry program args) = puzzleHashOfCurriedFunction hash
      (sha256tree hash program) (args.map (sha256tree hash)).reverse := by
  rw [curry, sha256tree_cell, sha256tree_curriedArgs, puzzleHashOfCurriedFunction_eq, reverse_reverse]
  rfl

def cellTuples (kw parameterHash environmentHash : Bytes) : List (List Bytes) :=
  let quoted := [[2], sha256 stdHash [[1], [1]], parameterHash]
  let tail := [[2], environmentHash, sha256 stdHash [[1], []]]
  let args := [[2], sha256 stdHash quoted, sha256 stdHash tail]
  [[[1], kw], [[1], [1]], [[1], []], quoted, tail, args, [[2], sha256 stdHash [[1], kw], sha256 stdHash args]]

def environmentTuples (stdHash : Bytes → Bytes32) : List Bytes → List (List Bytes)
  | [] => [[[1], [1]]]
  | p :: ps => cellTuples stdHash C_KW p (environmentHash stdHash ps) ++ environmentTuples stdHash ps

def curryTuples (functionHash : Bytes) (parameterHashes : List Bytes) : List (List Bytes) :=
  cellTuples stdHash A_KW functionHash (environmentHash stdHash parameterHashes) ++
    environmentTuples stdHash parameterHashes

include hinj

lemma eq_cell_of_hash {p : SExp} {kw a b : Bytes} (hp : Hashed hash T p)
    (ht : ∀ t ∈ cellTuples hash kw a b, t ∈ T) (h : sha256tree hash p = treeHashOfCell hash kw a b) :
    ∃ l r, p = cell kw l r ∧ Hashed hash T l ∧ Hashed hash T r ∧ sha256tree hash l = a ∧ sha256tree hash r = b := by
  simp only [cellTuples, forall_mem_cons] at ht
  obtain ⟨hkw, hq, hnil, hquoted, htail, hargs, hcell, -⟩ := ht
  obtain ⟨code, args, rfl, hcode, hrest⟩ := eq_pair_of_hash hinj hp hcell h
  obtain ⟨quoted, tail, rfl, hquote, hlist⟩ := eq_pair_of_hash hinj hp.right hargs hrest
  obtain ⟨q, l, rfl, hql, hl⟩ := eq_pair_of_hash hinj hp.right.left hquoted hquote
  obtain ⟨r, last, rfl, hr, hlast⟩ := eq_pair_of_hash hinj hp.right.right htail hlist
  obtain rfl := eq_atom_of_hash hinj hp.left hkw hcode
  obtain rfl := eq_atom_of_hash hinj hp.right.left.left hq hql
  obtain rfl := eq_atom_of_hash hinj hp.right.right.right hnil hlast
  exact ⟨l, r, rfl, hp.right.left.right, hp.right.right.left, hl, hr⟩

lemma eq_curriedArgs_of_hash {p : SExp} {ps : List Bytes} (hp : Hashed hash T p)
    (ht : ∀ t ∈ environmentTuples hash ps, t ∈ T) (h : sha256tree hash p = environmentHash hash ps) :
    ∃ args, p = curriedArgs args ∧ (∀ a ∈ args, Hashed hash T a) ∧ args.map (sha256tree hash) = ps := by
  induction ps generalizing p with
  | nil =>
    obtain rfl := eq_atom_of_hash hinj hp (ht _ mem_cons_self) h
    exact ⟨[], rfl, forall_mem_nil _, rfl⟩
  | cons a ps ih =>
    rw [environmentTuples, forall_mem_append] at ht
    obtain ⟨l, r, rfl, hl, hr, hla, hrest⟩ := eq_cell_of_hash hinj hp ht.1 h
    obtain ⟨args, rfl, hargs, rfl⟩ := ih hr ht.2 hrest
    exact ⟨l :: args, rfl, forall_mem_cons.mpr ⟨hl, hargs⟩, by rw [map_cons, hla]⟩

lemma eq_curry_of_hash {p : SExp} {functionHash : Bytes} {reversed : List Bytes} (hp : Hashed hash T p)
    (ht : ∀ t ∈ curryTuples hash functionHash reversed.reverse, t ∈ T)
    (h : sha256tree hash p = puzzleHashOfCurriedFunction hash functionHash reversed) :
    ∃ program args, p = curry program args ∧ Hashed hash T program ∧ (∀ a ∈ args, Hashed hash T a) ∧
      sha256tree hash program = functionHash ∧ args.map (sha256tree hash) = reversed.reverse := by
  rw [curryTuples, forall_mem_append] at ht
  rw [puzzleHashOfCurriedFunction_eq] at h
  obtain ⟨program, e, rfl, hprogram, he, hfunction, henvironment⟩ := eq_cell_of_hash hinj hp ht.1 h
  obtain ⟨args, rfl, hargs, hmap⟩ := eq_curriedArgs_of_hash hinj he ht.2 henvironment
  exact ⟨program, args, rfl, hprogram, hargs, hfunction, hmap⟩

end SectorChain.Proofs
