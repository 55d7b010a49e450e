import SectorChain.Consensus.BlockCache
import SectorChain.Proofs.MempoolRuns
import SectorChain.Proofs.PreValidationTrace

/-!
# What is left in the cache of block records

Cleaning stops at a gap, so records below it stay.
-/

namespace SectorChain.Proofs

open Lib List Dict

/-- The index lists the cached records by height. -/
structure IndexExact (s : Node) : Prop where
  listed : ∀ height headerHash, headerHash ∈ (s.heightsInCache.get? height).getD [] ↔
    ∃ r, s.blockRecords.get? headerHash = some r ∧ r.height = height
  nodup : ∀ height hashes, s.heightsInCache.get? height = some hashes → hashes.Nodup

/-- Also, records are cached under their hash, which determines the height. -/
structure CacheOk (heightOf : Bytes32 → ℕ) (s : Node) : Prop extends IndexExact s where
  keyed : ∀ k r, s.blockRecords.get? k = some r → heightOf k = r.height

variable {heightOf : Bytes32 → ℕ} {env : Env} {s s' : Node}

lemma CacheOk.congr (h : CacheOk heightOf s) (hrecords : s'.blockRecords = s.blockRecords)
    (hheights : s'.heightsInCache = s.heightsInCache) : CacheOk heightOf s' := by
  obtain ⟨⟨hlisted, hnodup⟩, hkeyed⟩ := h
  rw [← hrecords, ← hheights] at hlisted
  rw [← hheights] at hnodup
  rw [← hrecords] at hkeyed
  exact ⟨⟨hlisted, hnodup⟩, hkeyed⟩

lemma IndexExact.contains (h : IndexExact s) {k : Bytes32} {r : BlockRecord} (hr : s.blockRecords.get? k = some r) :
    s.heightsInCache.contains r.height = true := by
  obtain ⟨hashes, hget, -⟩ := Dict.exists_of_mem_getD ((h.listed r.height k).mpr ⟨r, hr, rfl⟩)
  exact Dict.contains_iff.mpr ⟨hashes, hget⟩

lemma CacheOk.addBlockRecord (h : CacheOk heightOf s) (r : BlockRecord) (hr : heightOf r.headerHash = r.height) :
    CacheOk heightOf (exec (addBlockRecord r) s).2 := by
  unfold SectorChain.addBlockRecord
  rw [exec_modify]
  refine ⟨⟨?_, ?_⟩, ?_⟩
  · intro height x
    rw [get?_set, get?_set]
    by_cases hx : x = r.headerHash
    · rw [if_pos hx]
      by_cases hheight : height = r.height
      · rw [if_pos hheight, hx, hheight]
        exact iff_of_true mem_insert_self ⟨r, rfl, rfl⟩
      rw [if_neg hheight, h.listed]
      refine iff_of_false ?_ ?_
      · rintro ⟨r', hr', rfl⟩
        rw [← h.keyed x r' hr', hx, hr] at hheight
        exact hheight rfl
      · rintro ⟨r', hr', rfl⟩
        cases hr'
        exact hheight rfl
    · rw [if_neg hx, ← h.listed]
      split
      · rename_i hheight
        rw [Option.getD_some, hheight, mem_insert_iff, or_iff_right hx]
      · rfl
  · intro height hashes hhashes
    rw [get?_set] at hhashes
    split at hhashes
    · cases hhashes
      cases hget : s.heightsInCache.get? r.height with
      | none => exact nodup_nil.insert
      | some hashes => exact (h.nodup _ _ hget).insert
    · exact h.nodup height hashes hhashes
  · intro k r' hr'
    rw [get?_set] at hr'
    split at hr'
    · rename_i hk
      cases hr'
      rw [hk]
      exact hr
    · exact h.keyed k r' hr'

lemma CacheOk.removeBlockRecord (h : CacheOk heightOf s) (x : Bytes32) :
    CacheOk heightOf (exec (removeBlockRecord x) s).2 := by
  cases hr : s.blockRecords.get? x with
  | none =>
    rw [removeBlockRecord_absent hr]
    exact h
  | some r =>
    have hmem := (h.listed r.height x).mpr ⟨r, hr, rfl⟩
    obtain ⟨hashes, hhashes⟩ := Dict.contains_iff.mp (h.contains hr)
    rw [hhashes] at hmem
    have hnodup := h.nodup _ _ hhashes
    rw [removeBlockRecord_present hr hhashes hmem]
    refine ⟨⟨?_, ?_⟩, ?_⟩
    · intro height y
      rw [get?_set, get?_erase]
      by_cases hy : y = x
      · rw [if_pos hy]
        refine iff_of_false ?_ (fun ⟨r', hr', _⟩ => (by cases hr'))
        rw [hy]
        split
        · exact hnodup.not_mem_erase
        rename_i hheight
        rw [h.listed]
        rintro ⟨r', hr', rfl⟩
        cases hr.symm.trans hr'
        exact hheight rfl
      · rw [if_neg hy, ← h.listed]
        split
        · rename_i hheight
          rw [hheight, hhashes]
          exact mem_erase_of_ne hy
        · rfl
    · intro height hashes' hhashes'
      rw [get?_set] at hhashes'
      split at hhashes'
      · cases hhashes'
        exact hnodup.erase x
      · exact h.nodup height hashes' hhashes'
    intro k r' hr'
    rw [get?_erase] at hr'
    split at hr'
    · cases hr'
    · exact h.keyed k r' hr'

lemma get?_recordsInRange {db : Database} {start stop : ℕ} {k : Bytes32} {r : BlockRecord}
    (h : (db.recordsInRange start stop).get? k = some r) : ∃ row, db.blockRecords.get? k = some row ∧ row.block = r := by
  have hstep : ∀ (ret : Dict Bytes32 BlockRecord) (e : Bytes32 × BlockRow),
      (if start ≤ e.2.height ∧ e.2.height ≤ stop then ret.set e.1 e.2.block else ret).get? k = some r →
        (e.1 = k ∧ e.2.block = r) ∨ ret.get? k = some r := by
    intro ret e hd
    split at hd
    · rw [get?_set] at hd
      split at hd
      · rename_i hk
        exact .inl ⟨hk.symm, Option.some.inj hd⟩
      · exact .inr hd
    · exact .inr hd
  rcases exists_of_foldl (Q := fun d : Dict Bytes32 BlockRecord => d.get? k = some r) hstep h with
    ⟨e, hmem, rfl, hrow⟩ | hempty
  · exact ⟨e.2, mem_entries.mp hmem, hrow⟩
  · cases hempty

lemma CacheOk.warmup (h : CacheOk heightOf s) (forkPoint : ℕ)
    (hrows : ∀ k row, s.db.blockRecords.get? k = some row → heightOf row.block.headerHash = row.block.height) :
    CacheOk heightOf (exec (warmup env forkPoint) s).2 := by
  have hadd : ∀ (es : List (Bytes32 × BlockRecord)) (s₁ : Node), CacheOk heightOf s₁ →
      (∀ e ∈ es, heightOf e.2.headerHash = e.2.height) →
      CacheOk heightOf (exec (es.forM fun e => SectorChain.addBlockRecord e.2) s₁).2 := by
    intro es
    induction es with
    | nil => exact fun _ h₁ _ => h₁
    | cons e es ih =>
      intro s₁ h₁ hes
      rw [forall_mem_cons] at hes
      exact ih _ (h₁.addBlockRecord e.2 hes.1) hes.2
  unfold SectorChain.warmup getBlockRecordsInRange
  rw [exec_get_bind]
  split
  · exact h
  obtain ⟨r, hrun, hok⟩ := query_cases
    (fun db => db.recordsInRange (forkPoint - env.constants.blocksCacheSize) forkPoint) s
  cases r with
  | error e =>
    rw [exec_bind_of_error hrun]
    exact h.congr rfl rfl
  | ok blockRecords =>
    rw [exec_bind_of_ok hrun]
    refine hadd _ { s with faults := s.faults.tail } (h.congr rfl rfl) ?_
    rintro ⟨k, r⟩ hmem
    have hget := mem_entries.mp hmem
    rw [hok _ rfl] at hget
    obtain ⟨row, hrow, rfl⟩ := get?_recordsInRange hget
    exact hrows k row hrow

lemma exec_forM_delBlockRecord {hashes : List Bytes32} (hnodup : hashes.Nodup)
    (hall : ∀ x ∈ hashes, s.blockRecords.contains x = true) :
    ∃ records, exec (hashes.forM delBlockRecord) s = (.ok (), { s with blockRecords := records }) ∧
      ∀ k, records.get? k = if k ∈ hashes then none else s.blockRecords.get? k := by
  induction hashes generalizing s with
  | nil => exact ⟨s.blockRecords, rfl, fun k => rfl⟩
  | cons x hashes ih =>
    rw [nodup_cons] at hnodup
    rw [forall_mem_cons] at hall
    have hstep : exec (delBlockRecord x) s = (.ok (), { s with blockRecords := s.blockRecords.erase x }) := by
      unfold delBlockRecord
      rw [exec_get_bind, if_pos hall.1]
      rfl
    obtain ⟨records, hrun, hget⟩ := ih (s := { s with blockRecords := s.blockRecords.erase x }) hnodup.2 (by
      intro y hy
      obtain ⟨r, hr⟩ := Dict.contains_iff.mp (hall.2 y hy)
      have hne : y ≠ x := fun heq => hnodup.1 (heq ▸ hy)
      exact Dict.contains_iff.mpr ⟨r, by rw [get?_erase, if_neg hne]; exact hr⟩)
    refine ⟨records, ?_, fun k => ?_⟩
    · rw [exec_forM_cons, exec_bind_of_ok hstep, hrun]
    · rw [hget]
      by_cases hk : k = x
      · simp [hk]
      · simp [hk]

lemma CacheOk.cleanRecordsAt (h : CacheOk heightOf s) (n : ℕ) :
    ∃ s', exec (cleanRecordsAt n) s = (.ok (s.heightsInCache.contains n), s') ∧ CacheOk heightOf s' ∧
      (∀ k r, s'.blockRecords.get? k = some r ↔ s.blockRecords.get? k = some r ∧ r.height ≠ n) ∧
      ∀ m, s'.heightsInCache.contains m = (s.heightsInCache.contains m && m ≠ n) := by
  unfold SectorChain.cleanRecordsAt
  rw [exec_get_bind]
  cases hget : s.heightsInCache.get? n with
  | none =>
    have hn : s.heightsInCache.contains n = false := by
      unfold Dict.contains
      rw [hget]
      rfl
    refine ⟨s, by rw [hn]; rfl, h, fun k r => ?_, fun m => ?_⟩
    · refine ⟨fun hr => ⟨hr, fun heq => ?_⟩, And.left⟩
      rw [← heq, h.contains hr] at hn
      cases hn
    · by_cases hm : m = n
      · rw [hm, hn, Bool.false_and]
      · rw [decide_eq_true hm, Bool.and_true]
  | some hashes =>
    have hmem : ∀ x, x ∈ hashes ↔ ∃ r, s.blockRecords.get? x = some r ∧ r.height = n := by
      intro x
      rw [← h.listed n x, hget]
      rfl
    obtain ⟨records, hrun, hrecords⟩ := exec_forM_delBlockRecord (h.nodup n hashes hget) fun x hx => by
      obtain ⟨r, hr, -⟩ := (hmem x).mp hx
      exact Dict.contains_iff.mpr ⟨r, hr⟩
    have hn : s.heightsInCache.contains n = true := Dict.contains_iff.mpr ⟨hashes, hget⟩
    have hleft : ∀ k r, records.get? k = some r ↔ s.blockRecords.get? k = some r ∧ r.height ≠ n := by
      intro k r
      rw [hrecords]
      split
      · rename_i hk
        obtain ⟨r', hr', hheight⟩ := (hmem k).mp hk
        refine iff_of_false (fun hr => (by cases hr)) ?_
        rintro ⟨hr, hne⟩
        cases hr.symm.trans hr'
        exact hne hheight
      · rename_i hk
        exact ⟨fun hr => ⟨hr, fun heq => hk ((hmem k).mpr ⟨r, hr, heq⟩)⟩, And.left⟩
    refine ⟨{ s with blockRecords := records, heightsInCache := s.heightsInCache.erase n }, ?_, ⟨⟨?_, ?_⟩, ?_⟩, hleft, ?_⟩
    · rw [exec_bind_of_ok hrun, hn]
      rfl
    · intro height x
      rw [get?_erase]
      simp only [hleft]
      split
      · rename_i hheight
        refine iff_of_false not_mem_nil ?_
        rintro ⟨r, ⟨-, hne⟩, heq⟩
        exact hne (heq.trans hheight)
      rename_i hheight
      rw [h.listed]
      constructor
      · rintro ⟨r, hr, rfl⟩
        exact ⟨r, ⟨hr, hheight⟩, rfl⟩
      · rintro ⟨r, ⟨hr, -⟩, heq⟩
        exact ⟨r, hr, heq⟩
    · intro height hashes' hhashes'
      rw [get?_erase] at hhashes'
      split at hhashes'
      · cases hhashes'
      · exact h.nodup height hashes' hhashes'
    · exact fun k r hr => h.keyed k r ((hleft k r).mp hr).1
    intro m
    unfold Dict.contains
    by_cases hm : m = n
    · rw [hm]
      simp
    · simp [hm]

def Covered (s : Node) (h n : ℕ) : Prop := ∀ k, h ≤ k → k ≤ n → s.heightsInCache.contains k = true

lemma CacheOk.cleanRecordsFrom (h : CacheOk heightOf s) (n : ℕ) :
    ∃ s', exec (cleanRecordsFrom n) s = (.ok (), s') ∧ CacheOk heightOf s' ∧ ∀ k r, s'.blockRecords.get? k = some r ↔
        s.blockRecords.get? k = some r ∧ ¬(r.height ≤ n ∧ Covered s r.height n) := by
  induction n generalizing s with
  | zero =>
    obtain ⟨s', hrun, hs', hrecords, -⟩ := h.cleanRecordsAt 0
    refine ⟨s', ?_, hs', fun k r => ?_⟩
    · unfold SectorChain.cleanRecordsFrom
      rw [exec_bind_of_ok hrun]
      rfl
    rw [hrecords]
    refine and_congr_right fun hr => not_congr ⟨fun hzero => ?_, fun hle => Nat.le_zero.mp hle.1⟩
    refine ⟨hzero.le, fun m hm hm' => ?_⟩
    rw [show m = r.height by omega]
    exact h.contains hr
  | succ n ih =>
    obtain ⟨s₁, hrun, hs₁, hrecords, hheights⟩ := h.cleanRecordsAt (n + 1)
    unfold SectorChain.cleanRecordsFrom
    rw [exec_bind_of_ok hrun]
    cases hn : s.heightsInCache.contains (n + 1) with
    | false =>
      refine ⟨s₁, rfl, hs₁, fun k r => ?_⟩
      rw [hrecords]
      refine and_congr_right fun hr => iff_of_true (fun heq => ?_) fun hcovered => ?_
      · rw [← heq, h.contains hr] at hn
        cases hn
      · rw [hcovered.2 (n + 1) hcovered.1 le_rfl] at hn
        cases hn
    | true =>
      obtain ⟨s', hrest, hs', hleft⟩ := ih hs₁
      refine ⟨s', hrest, hs', fun k r => ?_⟩
      rw [hleft, hrecords, and_assoc]
      refine and_congr_right fun _ => ?_
      have hcovered : Covered s₁ r.height n ↔ Covered s r.height n := by
        refine forall_congr' fun m => forall_congr' fun _ => forall_congr' fun hm => ?_
        rw [hheights, decide_eq_true (show m ≠ n + 1 by omega), Bool.and_true]
      rw [hcovered, ← not_or, not_congr]
      constructor
      · rintro (heq | ⟨hle, hrest⟩)
        · refine ⟨heq.le, fun m hm hm' => ?_⟩
          rw [show m = n + 1 by omega]
          exact hn
        refine ⟨by omega, fun m hm hm' => ?_⟩
        rcases Nat.lt_or_ge n m with hlt | hge
        · rw [show m = n + 1 by omega]
          exact hn
        · exact hrest m hm hge
      · rintro ⟨hle, hrest⟩
        rcases Nat.lt_or_ge n r.height with hlt | hge
        · exact .inl (by omega)
        · exact .inr ⟨hge, fun m hm hm' => hrest m hm (by omega)⟩

inductive BlockCacheCall where
  | addBlockRecord (blockRecord : BlockRecord)
  | removeBlockRecord (headerHash : Bytes32)
  | warmup (forkPoint : ℕ)
  | cleanBlockRecord (height : ℤ)
  | cleanBlockRecords

def BlockCacheCall.run (env : Env) : BlockCacheCall → NodeM Unit
  | .addBlockRecord blockRecord => SectorChain.addBlockRecord blockRecord
  | .removeBlockRecord headerHash => SectorChain.removeBlockRecord headerHash
  | .warmup forkPoint => SectorChain.warmup env forkPoint
  | .cleanBlockRecord height => SectorChain.cleanBlockRecord height
  | .cleanBlockRecords => SectorChain.cleanBlockRecords env

def BlockCacheCall.Sound (heightOf : Bytes32 → ℕ) (s : Node) : BlockCacheCall → Prop
  | .addBlockRecord blockRecord => heightOf blockRecord.headerHash = blockRecord.height
  | .warmup _ => ∀ k row, s.db.blockRecords.get? k = some row → heightOf row.block.headerHash = row.block.height
  | _ => True

/-- The nodes that start with an empty cache and touch it with the calls only. Calls may raise. -/
inductive BlockCacheRun (env : Env) (heightOf : Bytes32 → ℕ) : Node → Prop where
  | start (s : Node) : s.blockRecords = .empty → s.heightsInCache = .empty → BlockCacheRun env heightOf s
  | call (s : Node) (c : BlockCacheCall) : BlockCacheRun env heightOf s → c.Sound heightOf s →
      BlockCacheRun env heightOf (exec (c.run env) s).2
  | other (s s' : Node) : BlockCacheRun env heightOf s → s'.blockRecords = s.blockRecords →
      s'.heightsInCache = s.heightsInCache → BlockCacheRun env heightOf s'

def Cleaned (height : ℤ) (r : Except PyError Unit × Node) : Prop :=
  r.1 = .ok () ∧ ∀ k record, r.2.blockRecords.get? k = some record → height < record.height

/-- From each cached record up to the height, all heights are listed. -/
def NoGap (s : Node) (height : ℤ) : Prop :=
  ∀ k record, s.blockRecords.get? k = some record → ∀ h : ℕ, record.height ≤ h → (h : ℤ) ≤ height →
    s.heightsInCache.contains h = true

lemma CacheOk.cleanBlockRecord (h : CacheOk heightOf s) (height : ℤ) :
    CacheOk heightOf (exec (cleanBlockRecord height) s).2 ∧
      (Cleaned height (exec (cleanBlockRecord height) s) ↔ height < 2 ^ 32 ∧ NoGap s height) := by
  unfold SectorChain.cleanBlockRecord
  by_cases hneg : height < 0
  · rw [if_pos hneg]
    refine ⟨h, iff_of_true ⟨rfl, fun k r _ => by omega⟩ ⟨by omega, fun k r _ m _ hm => by omega⟩⟩
  by_cases hbig : height < 2 ^ 32
  · rw [if_neg hneg, if_pos hbig]
    obtain ⟨n, rfl⟩ := Int.eq_ofNat_of_zero_le (not_lt.mp hneg)
    obtain ⟨s', hrun, hs', hleft⟩ := h.cleanRecordsFrom n
    rw [Int.toNat_natCast, hrun]
    refine ⟨hs', ?_⟩
    constructor
    · rintro ⟨-, hnone⟩
      refine ⟨hbig, fun k r hr m hm hm' => ?_⟩
      by_contra hgap
      have hkept := hnone k r ((hleft k r).mpr ⟨hr, fun hcovered => hgap (hcovered.2 m hm (by omega))⟩)
      omega
    rintro ⟨-, hgap⟩
    refine ⟨rfl, fun k r hr => ?_⟩
    obtain ⟨hr, hkept⟩ := (hleft k r).mp hr
    by_contra hle
    exact hkept ⟨by omega, fun m hm hm' => hgap k r hr m hm (by omega)⟩
  · rw [if_neg hneg, if_neg hbig]
    exact ⟨h, iff_of_false (fun hcleaned => (by cases hcleaned.1)) fun hlt => hbig hlt.1⟩

lemma CacheOk.cleanBlockRecords (h : CacheOk heightOf s) : CacheOk heightOf (exec (cleanBlockRecords env) s).2 := by
  unfold SectorChain.cleanBlockRecords
  rw [exec_get_bind]
  split
  · exact h
  cases s.getPeak with
  | error e => exact h
  | ok peak =>
    cases peak with
    | none => exact h
    | some peak =>
      change CacheOk heightOf (exec (if (peak.height : ℤ) - _ < 0 then _ else _) s).2
      split
      · exact h
      · exact (h.cleanBlockRecord _).1

lemma BlockCacheRun.cacheOk (hs : BlockCacheRun env heightOf s) : CacheOk heightOf s := by
  induction hs with
  | start s hrecords hheights =>
    refine CacheOk.congr (s := Node.new 0 0) ⟨⟨fun _ _ => ?_, fun _ _ hl => (by cases hl)⟩, fun _ _ hr => (by cases hr)⟩
      hrecords hheights
    exact iff_of_false not_mem_nil fun ⟨_, hr, _⟩ => (by cases hr)
  | call s c _ hsound ih =>
    cases c with
    | addBlockRecord blockRecord => exact ih.addBlockRecord blockRecord hsound
    | removeBlockRecord headerHash => exact ih.removeBlockRecord headerHash
    | warmup forkPoint => exact ih.warmup forkPoint hsound
    | cleanBlockRecord height => exact (ih.cleanBlockRecord height).1
    | cleanBlockRecords => exact ih.cleanBlockRecords
  | other s s' _ hrecords hheights ih => exact ih.congr hrecords hheights

/-- The index is exact after any calls, and cleaning removes all it should if and only if there is no gap. -/
theorem block_cache_cleaned_iff (env : Env) (heightOf : Bytes32 → ℕ) (s : Node) (hs : BlockCacheRun env heightOf s) :
    IndexExact s ∧
      (∀ height : ℤ, Cleaned height (exec (cleanBlockRecord height) s) ↔ height < 2 ^ 32 ∧ NoGap s height) ∧
      ∀ peak, s.getPeak = .ok (some peak) → env.constants.blocksCacheSize ≤ s.blockRecords.entries.length →
        let bound : ℤ := peak.height - env.constants.blocksCacheSize
        Cleaned bound (exec (cleanBlockRecords env) s) ↔ bound < 2 ^ 32 ∧ NoGap s bound := by
  have h := hs.cacheOk
  refine ⟨h.toIndexExact, fun height => (h.cleanBlockRecord height).2, ?_⟩
  intro peak hpeak hsize bound
  unfold SectorChain.cleanBlockRecords
  rw [exec_get_bind, if_neg (by omega), hpeak]
  change Cleaned bound (exec (if bound < 0 then _ else SectorChain.cleanBlockRecord bound) s) ↔ _
  split
  · exact iff_of_true ⟨rfl, fun k r _ => by omega⟩ ⟨by omega, fun k r _ m _ hm => by omega⟩
  · exact (h.cleanBlockRecord bound).2

def lowRecord : BlockRecord := { samplePeak with headerHash := .ofNat 32 8, height := 0 }

def storedNode : Node :=
  { Node.new 100 100 with
    db := ⟨.empty, .empty, Dict.empty.set lowRecord.headerHash ⟨lowRecord.prevHash, 0, lowRecord, none, false⟩⟩
    peakHeight := some 5 }

def highNode : Node := (exec (addBlockRecord samplePeak) storedNode).2

def gapNode : Node := (exec (warmup (sampleEnv fun _ _ => none) 0) highNode).2

def sampleHeight (x : Bytes32) : ℕ := if x = .ofNat 32 7 then 5 else if x = .ofNat 32 6 then 4 else 0

lemma run_highNode : BlockCacheRun (sampleEnv fun _ _ => none) sampleHeight highNode :=
  .call storedNode (.addBlockRecord samplePeak) (.start storedNode rfl rfl) (if_pos rfl)

def belowPeak : BlockRecord := { samplePeak with headerHash := .ofNat 32 6, height := 4 }

def twoRecordNode : Node := (exec (addBlockRecord belowPeak) highNode).2

theorem block_cache_cleaned_two : twoRecordNode.blockRecords.entries.length = 2 ∧ IndexExact twoRecordNode ∧
    Cleaned 5 (exec (cleanBlockRecord 5) twoRecordNode) := by
  obtain ⟨hexact, hclean, -⟩ := block_cache_cleaned_iff (sampleEnv fun _ _ => none) sampleHeight twoRecordNode
    (.call highNode (.addBlockRecord belowPeak) run_highNode rfl)
  refine ⟨by decide +kernel, hexact, (hclean 5).mpr ⟨by decide, fun k r hr h hle hle' => ?_⟩⟩
  have hall : ∀ e ∈ twoRecordNode.blockRecords.entries, 4 ≤ e.2.height := by decide +kernel
  have hlow : 4 ≤ r.height := hall (k, r) (mem_entries.mpr hr)
  obtain rfl | rfl : h = 4 ∨ h = 5 := by omega
  · decide +kernel
  · decide +kernel

/-- Cleaning up to height 5 leaves the record at height 0 below a gap. -/
theorem low_record_left_below_gap : BlockCacheRun (sampleEnv fun _ _ => none) sampleHeight gapNode ∧
      ¬Cleaned 5 (exec (cleanBlockRecord 5) gapNode) := by
  constructor
  · refine .call highNode (.warmup 0) run_highNode fun k row hrow => ?_
    change ((Dict.empty : Dict Bytes32 BlockRow).set lowRecord.headerHash _).get? k = some row at hrow
    rw [get?_set] at hrow
    split at hrow
    · cases hrow
      decide
    · cases hrow
  · rintro ⟨-, hnone⟩
    have hleft : (exec (cleanBlockRecord 5) gapNode).2.blockRecords.get? lowRecord.headerHash = some lowRecord := by
      decide +kernel
    exact absurd (hnone _ _ hleft) (by decide)

end SectorChain.Proofs
