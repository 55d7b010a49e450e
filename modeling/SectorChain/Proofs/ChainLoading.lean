import SectorChain.Proofs.BodyChecks

/-!
# Loading the chain of the peak
-/

namespace SectorChain.Proofs

open Lib List

def rowShape : Shape Bytes32 (Bytes32 × BlockRow) where
  key e := e.1
  parent e := e.2.prevHash
  height e := e.2.height

/-- Every row is of height zero or follows another row. -/
structure BlockTable where
  db : Database
  parents : ∀ {hash row}, db.blockRecords.get? hash = some row →
    row.height = 0 ∨ ∃ prev, db.blockRecords.get? row.prevHash = some prev ∧ row.height = prev.height + 1
  records : ∀ {hash row}, db.blockRecords.get? hash = some row → row.block.headerHash = hash ∧ row.block.height = row.height

def BlockTable.forest (T : BlockTable) : Forest rowShape where
  find hash := (T.db.blockRecords.get? hash).map (Prod.mk hash)
  key_eq h := by
    obtain ⟨row, -, rfl⟩ := Option.map_eq_some_iff.mp h
    rfl
  parent_eq h := by
    obtain ⟨row, hrow, rfl⟩ := Option.map_eq_some_iff.mp h
    rcases T.parents hrow with hzero | ⟨prev, hprev, hheight⟩
    · exact .inl hzero
    · exact .inr ⟨(row.prevHash, prev), congrArg (Option.map _) hprev, hheight⟩

/-- The second pair of dictionaries has the blocks of the path besides what the first one has. -/
structure Lists (path : List (Bytes32 × BlockRow)) (dicts dicts' : Dict ℕ Bytes32 × Dict ℕ SubEpochSummary) : Prop where
  hashes : ∀ i, dicts'.1.get? i = (path[i]?.map Prod.fst).or (dicts.1.get? i)
  summaries : ∀ i, dicts'.2.get? i = (path[i]?.bind fun e => e.2.subEpochSummary).or (dicts.2.get? i)
  length : (∀ i < path.length, dicts.1.get? i = none) → dicts'.1.entries.length = dicts.1.entries.length + path.length

lemma getElem?_concat_bind {ν α : Type} {path : List ν} {n : ν} {f : ν → Option α} {i : ℕ} {x x' : Option α}
    (hx : x' = if i = path.length then (f n).or x else x) :
    (path[i]?.bind f).or x' = ((path ++ [n])[i]?.bind f).or x := by
  rw [hx]
  rcases Nat.lt_trichotomy i path.length with hlt | rfl | hgt
  · rw [getElem?_append_left hlt, if_neg hlt.ne]
  · rw [if_pos rfl, getElem?_concat_length, getElem?_eq_none le_rfl]
    rfl
  · rw [if_neg hgt.ne', getElem?_eq_none hgt.le, getElem?_eq_none (by rw [length_append]; exact hgt)]

lemma Lists.step {path : List (Bytes32 × BlockRow)} {hash : Bytes32} {row : BlockRow} (hlength : path.length = row.height)
    {hashes : Dict ℕ Bytes32} {summaries : Dict ℕ SubEpochSummary} {dicts' : Dict ℕ Bytes32 × Dict ℕ SubEpochSummary}
    (h : Lists path (hashes.set row.height hash, match row.subEpochSummary with
      | some ses => summaries.set row.height ses
      | none => summaries) dicts') : Lists (path ++ [(hash, row)]) (hashes, summaries) dicts' := by
  refine ⟨fun i => (h.hashes i).trans ?_, fun i => (h.summaries i).trans ?_, fun hnone => (h.length ?_).trans ?_⟩
  · rw [Option.map_eq_bind, Option.map_eq_bind]
    exact getElem?_concat_bind (hlength ▸ Dict.get?_set hashes _ _ _)
  · apply getElem?_concat_bind
    dsimp only
    cases row.subEpochSummary with
    | none => exact (ite_self _).symm
    | some ses => exact hlength ▸ Dict.get?_set summaries _ _ _
  · intro i hi
    rw [Dict.get?_set_of_ne _ _ (by omega)]
    exact hnone i (by simp; omega)
  · have hnew : row.height ∉ hashes.keys := by
      rw [Dict.mem_keys]
      rintro ⟨v, hv⟩
      rw [hnone row.height (by simp [hlength])] at hv
      cases hv
    rw [Dict.length_set, if_neg hnew, length_append, length_singleton]
    exact Nat.succ_add_eq_add_succ _ _

lemma peakHeightDictsFrom_lists {T : BlockTable} {fuel : ℕ} {hash : Bytes32} {row : BlockRow}
    (hrow : T.db.blockRecords.get? hash = some row) (hfuel : row.height < fuel)
    (dicts : Dict ℕ Bytes32 × Dict ℕ SubEpochSummary) :
    ∃ dicts', peakHeightDictsFrom T.db fuel hash dicts = .ok dicts' ∧ Lists (T.forest.path hash) dicts dicts' := by
  induction fuel generalizing hash row dicts with
  | zero => omega
  | succ fuel ih =>
    obtain ⟨hashes, summaries⟩ := dicts
    have hfind : T.forest.find hash = some (hash, row) := congrArg (Option.map _) hrow
    have hlength := Forest.length_ancestors (T.forest.parent_eq hfind)
    rw [peakHeightDictsFrom, hrow, Forest.path_of_find hfind]
    dsimp only
    split
    · rename_i hzero
      refine ⟨_, rfl, Lists.step hlength ?_⟩
      rw [eq_nil_of_length_eq_zero (hlength.trans hzero)]
      exact ⟨fun i => rfl, fun i => rfl, fun _ => rfl⟩
    · rename_i hpos
      rcases T.parents hrow with hzero | ⟨prev, hprev, hheight⟩
      · exact absurd hzero hpos
      · obtain ⟨dicts', hrun, hlists⟩ := ih hprev (by omega) _
        have hpath : T.forest.ancestors (hash, row) = T.forest.path row.prevHash := if_neg hpos
        exact ⟨dicts', hrun, Lists.step hlength (hpath ▸ hlists)⟩

lemma exec_query {α : Type} {s : Node} (hfaults : s.faults = []) (f : Database → α) :
    exec (Node.query f) s = (.ok (f s.db), s) := by
  unfold Node.query Node.statement
  rw [exec_mk, hfaults]

lemma exec_addBlockRecords {es : List (Bytes32 × BlockRecord)} (hes : ∀ e ∈ es, e.2.headerHash = e.1) (s : Node) :
    ∃ cached, exec (es.forM fun e => addBlockRecord e.2) s = (.ok (), { s with
      blockRecords := es.foldl (fun d e => d.set e.1 e.2) s.blockRecords
      heightsInCache := cached }) := by
  induction es generalizing s with
  | nil => exact ⟨_, rfl⟩
  | cons e es ih =>
    rw [forall_mem_cons] at hes
    obtain ⟨cached, hrun⟩ := ih hes.2 (exec (addBlockRecord e.2) s).2
    refine ⟨cached, hrun.trans ?_⟩
    rw [foldl_cons, ← hes.1]
    rfl

lemma exec_getBlockRecordsCloseToPeak {s : Node} (hfaults : s.faults = []) {peak : Bytes32} {row : BlockRow}
    (hpeak : s.db.peakRow? = some (peak, row)) (blocksN : ℕ) :
    ∃ close, exec (getBlockRecordsCloseToPeak blocksN) s = (.ok (close, some peak), s) ∧ ∀ hash, close.get? hash =
      ((s.db.blockRecords.get? hash).filter fun r => r.height + blocksN ≥ row.height).map BlockRow.block := by
  refine ⟨_, (exec_query hfaults _).trans (by rw [hpeak]), fun hash => ?_⟩
  rw [Dict.read_foldl_entries (fun d : Dict Bytes32 BlockRecord => d.get? hash)
    (fun r : BlockRow => decide (r.height + blocksN ≥ row.height)) BlockRow.block s.db.blockRecords.nodup]
  · exact Option.or_none
  · intro e _ d
    split
    · rename_i hclose
      rw [Dict.get?_set, if_congr (and_iff_left (decide_eq_true hclose)) rfl rfl]
    · rename_i hfar
      rw [if_neg fun h => hfar (of_decide_eq_true h.2)]

/-- A node that starts has the chain of the peak, and the records that are not far below the peak. -/
theorem load_chain_lists_peak (env : Env) (T : BlockTable) (peak : Bytes32) (row : BlockRow)
    (hpeak : T.db.peakRow? = some (peak, row)) (s : Node) (hdb : s.db = T.db) (hfaults : s.faults = []) :
    ∃ s', exec (loadChainFromStore env) s = (.ok (), s') ∧ s'.peakHeight = some row.height ∧
      (∀ i, s'.heightToHash.get? i = (T.forest.path peak)[i]?.map Prod.fst) ∧
      (∀ i, s'.subEpochSummaries.get? i = (T.forest.path peak)[i]?.bind fun e => e.2.subEpochSummary) ∧
      ∀ hash, s'.blockRecords.get? hash = ((T.db.blockRecords.get? hash).filter fun r =>
        r.height + env.constants.blocksCacheSize ≥ row.height).map BlockRow.block := by
  have hrow : T.db.blockRecords.get? peak = some row := Dict.mem_entries.mp (mem_of_find?_eq_some hpeak)
  obtain ⟨⟨hashes, summaries⟩, hdicts, hlists⟩ := peakHeightDictsFrom_lists hrow (Nat.lt_succ_self _) (.empty, .empty)
  have hquery : exec getPeakHeightDicts s = (.ok (hashes, summaries), s) := by
    unfold getPeakHeightDicts
    rw [exec_bind_of_ok (exec_query hfaults _), peakHeightDicts, hdb, hpeak]
    dsimp only
    rw [hdicts]
    rfl
  let s₁ : Node := { s with
    heightToHash := hashes, subEpochSummaries := summaries, blockRecords := .empty, heightsInCache := .empty }
  obtain ⟨close, hclose, hget⟩ := exec_getBlockRecordsCloseToPeak (s := s₁) hfaults (hdb ▸ hpeak)
    env.constants.blocksCacheSize
  rw [show s₁.db = T.db from hdb] at hget
  have hkeys : ∀ e ∈ close.entries, e.2.headerHash = e.1 := by
    intro e he
    obtain ⟨r, hr, hblock⟩ := Option.map_eq_some_iff.mp ((hget e.1).symm.trans (Dict.mem_entries.mp he))
    rw [← hblock]
    exact (T.records (Option.filter_eq_some_iff.mp hr).1).1
  have hrecord : close.get? peak = some row.block := by
    rw [hget, hrow, Option.filter_some, if_pos (decide_eq_true (Nat.le_add_right _ _))]
    rfl
  obtain ⟨cached, hadd⟩ := exec_addBlockRecords hkeys s₁
  set records := close.entries.foldl (fun d e => d.set e.1 e.2) s₁.blockRecords
  have hrecords : ∀ hash, records.get? hash = close.get? hash := fun hash =>
    (Dict.get?_foldl_entries close.nodup _ hash).trans Option.or_none
  unfold loadChainFromStore
  rw [exec_bind_of_ok hquery]
  dsimp only
  rw [exec_modify_bind, exec_bind_of_ok hclose]
  dsimp only
  rw [exec_bind_of_ok hadd, if_neg (length_pos_of_mem (Dict.mem_entries.mpr hrecord)).ne']
  refine ⟨{ s₁ with blockRecords := records, heightsInCache := cached, peakHeight := some row.height }, ?_, rfl,
    fun i => (hlists.hashes i).trans Option.or_none, fun i => (hlists.summaries i).trans Option.or_none,
    fun hash => (hrecords hash).trans (hget hash)⟩
  have hfound : BlockchainInterface.blockRecord ⟨records, hashes, summaries⟩ peak = .ok row.block := by
    unfold BlockchainInterface.blockRecord
    rw [hrecords, hrecord]
  have hlength : hashes.entries.length = row.height + 1 := by
    rw [hlists.length fun i _ => rfl, Forest.length_path (congrArg (Option.map _) hrow)]
    exact Nat.zero_add _
  change exec (liftM (BlockchainInterface.blockRecord ⟨records, hashes, summaries⟩ peak) >>= _) _ = _
  rw [hfound, exec_lift_ok_bind, exec_modify_bind, (T.records hrow).2]
  change exec (liftM (pyAssert (decide (hashes.entries.length = row.height + 1)))) _ = _
  rw [hlength, decide_eq_true rfl]
  rfl

/-- What a node with two blocks has stored. -/
@[irreducible] def storedDb : Database := (receiveAll (sampleEnv fun _ _ => none) [sampleGenesis, sampleSecond]).db

lemma storedDb_rows : ∀ e ∈ storedDb.blockRecords.entries, (e.2.height = 0 ∨
      ((storedDb.blockRecords.get? e.2.prevHash).any fun prev => e.2.height = prev.height + 1) = true) ∧
      e.2.block.headerHash = e.1 ∧ e.2.block.height = e.2.height := by
  decide +kernel

def storedTable : BlockTable where
  db := storedDb
  parents {hash row} h := by
    rcases (storedDb_rows (hash, row) (Dict.mem_entries.mpr h)).1 with hzero | hprev
    · exact .inl hzero
    · obtain ⟨prev, hprev, hheight⟩ := (Option.any_eq_true _ _).mp hprev
      exact .inr ⟨prev, hprev, of_decide_eq_true hheight⟩
  records h := (storedDb_rows _ (Dict.mem_entries.mpr h)).2

theorem load_chain_lists_peak_second : storedTable.db.peakRow?.map (fun e => e.2.height) = some 1 ∧
    ∃ s', exec (loadChainFromStore (sampleEnv fun _ _ => none))
        { Node.new 100 100 with db := storedTable.db } = (.ok (), s') ∧
      s'.peakHeight = some 1 := by
  have hheight : storedTable.db.peakRow?.map (fun e => e.2.height) = some 1 := by decide +kernel
  obtain ⟨⟨peak, row⟩, hpeak, hrow⟩ := Option.map_eq_some_iff.mp hheight
  obtain ⟨s', hrun, hs', -⟩ := load_chain_lists_peak (sampleEnv fun _ _ => none) storedTable peak row hpeak
    { Node.new 100 100 with db := storedTable.db } rfl rfl
  exact ⟨hheight, s', hrun, hs'.trans (congrArg some hrow)⟩

end SectorChain.Proofs
