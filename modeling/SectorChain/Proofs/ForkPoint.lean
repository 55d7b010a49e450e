import SectorChain.Consensus.FindForkPoint
import SectorChain.Lib.Except

/-!
# The fork point

The two loops meet at the last block that both chains share.
-/

namespace SectorChain.Proofs

open Lib

abbrev RecordTree := Forest recordShape

/-- A block from which both blocks descend, or one of the two. -/
def CommonAncestor (t : RecordTree) (block1 block2 a : BlockRecord) : Prop :=
  a ∈ t.path block1.headerHash ∧ a ∈ t.path block2.headerHash

/-- The height of the last common ancestor, or -1 if there is none. -/
def IsForkPoint (t : RecordTree) (block1 block2 : BlockRecord) (fork : ℤ) : Prop :=
  (fork = -1 ∧ ∀ a, ¬CommonAncestor t block1 block2 a) ∨
  ∃ a, CommonAncestor t block1 block2 a ∧ fork = a.height ∧ ∀ a', CommonAncestor t block1 block2 a' → a'.height ≤ a.height

variable {t : RecordTree} {blocks : BlockchainInterface} {block1 block2 other1 other2 q : BlockRecord} {fork : ℤ}

lemma IsForkPoint.congr (h : IsForkPoint t other1 other2 fork)
    (hcommon : ∀ a, CommonAncestor t block1 block2 a ↔ CommonAncestor t other1 other2 a) :
    IsForkPoint t block1 block2 fork := by
  unfold IsForkPoint
  simp only [hcommon]
  exact h

lemma isForkPoint_self (h : t.find block1.headerHash = some block1) : IsForkPoint t block1 block1 block1.height := by
  have hmem : block1 ∈ t.path block1.headerHash := List.mem_of_getElem? (Forest.getElem?_path_height h)
  exact Or.inr ⟨block1, ⟨hmem, hmem⟩, rfl, fun a ha => (Forest.height_of_mem_path h ha.1).1⟩

lemma commonAncestor_comm (a : BlockRecord) : CommonAncestor t block1 block2 a ↔ CommonAncestor t block2 block1 a :=
  and_comm

lemma commonAncestor_parent (h2 : t.find block2.headerHash = some block2) (hq : t.find block2.prevHash = some q)
    (hheight : block2.height = q.height + 1) (hnot : block2 ∉ t.path block1.headerHash) (a : BlockRecord) :
    CommonAncestor t block1 block2 a ↔ CommonAncestor t block1 q a := by
  have hkey : q.headerHash = block2.prevHash := t.key_eq hq
  have hpath : t.path block2.headerHash = t.path q.headerHash ++ [block2] := by
    rw [hkey]
    exact Forest.path_of_parent h2 (by change 0 < block2.height; omega)
  unfold CommonAncestor
  rw [hpath, List.mem_append, List.mem_singleton]
  constructor
  · rintro ⟨h1, hanc | rfl⟩
    · exact ⟨h1, hanc⟩
    · exact absurd h1 hnot
  · rintro ⟨h1, hanc⟩
    exact ⟨h1, Or.inl hanc⟩

lemma notMem_path (h1 : t.find block1.headerHash = some block1) (hne : block2 ≠ block1)
    (hheight : block1.height ≤ block2.height) :
    block2 ∉ t.path block1.headerHash := by
  intro hmem
  obtain ⟨hle, heq⟩ := Forest.height_of_mem_path h1 hmem
  exact hne (heq (Nat.le_antisymm hle hheight))

lemma exists_parent (h : t.find block1.headerHash = some block1) (hpos : 0 < block1.height) :
    ∃ q, t.find block1.prevHash = some q ∧ t.find q.headerHash = some q ∧ block1.height = q.height + 1 := by
  obtain ⟨q, hq, hheight⟩ := (t.parent_eq h).resolve_left hpos.ne'
  have hkey : q.headerHash = block1.prevHash := t.key_eq hq
  exact ⟨q, hq, hkey ▸ hq, hheight⟩

lemma findForkPointFrom_returns (hrecords : ∀ h r, t.find h = some r → blocks.blockRecord h = .ok r) (fuel : ℕ)
    (h1 : t.find block1.headerHash = some block1) (h2 : t.find block2.headerHash = some block2)
    (hfuel : block1.height + block2.height < fuel) :
    ∃ fork, findForkPointFrom recordShape blocks.blockRecord fuel block1 block2 = .ok fork ∧
      IsForkPoint t block1 block2 fork := by
  induction fuel generalizing block1 block2 with
  | zero => omega
  | succ fuel ih =>
    unfold findForkPointFrom
    dsimp only
    rcases lt_trichotomy block1.height block2.height with hlt | heq | hgt
    · obtain ⟨q, hq, hself, hheight⟩ := exists_parent h2 (by omega)
      rw [if_pos (.inl (by omega)), if_pos hlt, hrecords _ _ hq]
      obtain ⟨fork, hrun, hfork⟩ := ih h1 hself (by omega)
      have hne : block2 ≠ block1 := by
        rintro rfl
        exact lt_irrefl _ hlt
      exact ⟨fork, hrun, hfork.congr (commonAncestor_parent h2 hq hheight (notMem_path h1 hne hlt.le))⟩
    · by_cases hhash : block2.headerHash = block1.headerHash
      · -- the loops meet
        obtain rfl : block2 = block1 := Option.some.inj (h2.symm.trans (hhash ▸ h1))
        refine ⟨block2.height, ?_, isForkPoint_self h2⟩
        by_cases hpos : block2.height > 0 ∨ block2.height > 0
        · rw [if_pos hpos, if_neg (lt_irrefl _), if_neg (lt_irrefl _), if_pos rfl]
        · have hzero : block2.height = 0 := by omega
          rw [if_neg hpos, if_neg (not_not.mpr rfl), hzero]
          rfl
      · have hne : block2 ≠ block1 := fun heq => hhash (congrArg BlockRecord.headerHash heq)
        by_cases hpos : block2.height > 0 ∨ block1.height > 0
        · obtain ⟨q2, hq2, hself2, hheight2⟩ := exists_parent h2 (by omega)
          obtain ⟨q1, hq1, hself1, hheight1⟩ := exists_parent h1 (by omega)
          rw [if_pos hpos, if_neg (by omega), if_neg (by omega), if_neg hhash, hrecords _ _ hq2, hrecords _ _ hq1]
          obtain ⟨fork, hrun, hfork⟩ := ih hself1 hself2 (by omega)
          have hne1 : block1 ≠ q2 := by
            rintro rfl
            omega
          refine ⟨fork, hrun, hfork.congr fun a => ?_⟩
          rw [commonAncestor_parent h2 hq2 hheight2 (notMem_path h1 hne heq.le), commonAncestor_comm,
            commonAncestor_parent h1 hq1 hheight1 (notMem_path hself2 hne1 (by omega)), commonAncestor_comm]
        · rw [if_neg hpos, if_pos hne]
          refine ⟨-1, rfl, Or.inl ⟨rfl, ?_⟩⟩
          rintro a ⟨ha1, ha2⟩
          rw [Forest.path_of_root h1 (by change block1.height = 0; omega), List.mem_singleton] at ha1
          rw [Forest.path_of_root h2 (by change block2.height = 0; omega), List.mem_singleton] at ha2
          exact hne (ha2.symm.trans ha1)
    · obtain ⟨q, hq, hself, hheight⟩ := exists_parent h1 (by omega)
      rw [if_pos (.inr (by omega)), if_neg (by omega), if_pos hgt, hrecords _ _ hq]
      obtain ⟨fork, hrun, hfork⟩ := ih hself h2 (by omega)
      have hne : block1 ≠ block2 := by
        rintro rfl
        exact lt_irrefl _ hgt
      refine ⟨fork, hrun, hfork.congr fun a => ?_⟩
      rw [commonAncestor_comm, commonAncestor_parent h1 hq hheight (notMem_path h2 hne hgt.le), commonAncestor_comm]

/-- For any two blocks of a tree whose records can be looked up, the fork point is returned. -/
theorem find_fork_point_returns_last_common (t : RecordTree) (blocks : BlockchainInterface)
    (hrecords : ∀ h r, t.find h = some r → blocks.blockRecord h = .ok r) (block1 block2 : BlockRecord)
    (h1 : t.find block1.headerHash = some block1) (h2 : t.find block2.headerHash = some block2) :
    ∃ fork, findForkPointInChain blocks block1 block2 = .ok fork ∧ IsForkPoint t block1 block2 fork :=
  findForkPointFrom_returns hrecords _ h1 h2 (Nat.lt_succ_self _)

def plainRecord (headerHash prevHash : Bytes32) (height : ℕ) : BlockRecord :=
  ⟨headerHash, prevHash, height, 0, .ofNat 32 0, .ofNat 32 0, 0, none, none, none, none, none, []⟩

def rootRecord : BlockRecord := plainRecord (.ofNat 32 1) (.ofNat 32 0) 0

/-- The two children of the root. -/
def childRecord (n : ℕ) : BlockRecord := plainRecord (.ofNat 32 n) (.ofNat 32 1) 1

def branches : Dict Bytes32 BlockRecord :=
  ((Dict.empty.set (.ofNat 32 1) rootRecord).set (.ofNat 32 2) (childRecord 2)).set (.ofNat 32 3) (childRecord 3)

lemma get?_branches {h : Bytes32} {r : BlockRecord} (hfind : branches.get? h = some r) :
    (h = .ofNat 32 1 ∧ r = rootRecord) ∨ ∃ n, h = .ofNat 32 n ∧ r = childRecord n := by
  unfold branches at hfind
  simp only [Dict.get?_set, Dict.get?_empty] at hfind
  split_ifs at hfind with hright hleft hroot
  · exact .inr ⟨3, hright, (Option.some.inj hfind).symm⟩
  · exact .inr ⟨2, hleft, (Option.some.inj hfind).symm⟩
  · exact .inl ⟨hroot, (Option.some.inj hfind).symm⟩

def branching : RecordTree where
  find h := branches.get? h
  key_eq hfind := by
    rcases get?_branches hfind with ⟨rfl, rfl⟩ | ⟨n, rfl, rfl⟩ <;> rfl
  parent_eq hfind := by
    rcases get?_branches hfind with ⟨rfl, rfl⟩ | ⟨n, rfl, rfl⟩
    · exact .inl rfl
    · exact .inr ⟨rootRecord, (by decide +kernel : branches.get? (.ofNat 32 1) = some rootRecord), rfl⟩

theorem find_fork_point_returns_last_common_branches :
    ∃ fork, findForkPointInChain ⟨branches, .empty, .empty⟩ (childRecord 2) (childRecord 3) = .ok fork ∧
      IsForkPoint branching (childRecord 2) (childRecord 3) fork := by
  refine find_fork_point_returns_last_common branching ⟨branches, .empty, .empty⟩ (fun h r hfind => ?_) _ _
    (by decide +kernel) (by decide +kernel)
  have hget : branches.get? h = some r := hfind
  unfold BlockchainInterface.blockRecord
  rw [hget]

end SectorChain.Proofs
