import SectorChain.Wallet.WalletStateManager
import SectorChain.Lib.Except
import Mathlib.Data.Finset.Lattice.Lemmas

/-!
# Keys that were used are not handed out again

The used rows are those below a bound.
-/

namespace SectorChain.Proofs.Keys

open Lib WalletStateManager WalletPuzzleStore List
open DerivationPath (record)

variable {env : WalletEnv} {store : WalletPuzzleStore} {s s' : WalletStateManager}
variable {p : DerivationRecord → Bool → Prop} {records : List DerivationRecord}
variable {index id : ℕ}

lemma getUnusedDerivationPath_eq_some (h : store.getUnusedDerivationPath = some index) :
    (∃ row ∈ store.derivationPaths, row.used = false ∧ row.record.index = index) ∧
      ∀ row ∈ store.derivationPaths, row.used = false → index ≤ row.record.index := by
  obtain ⟨hmem, hle⟩ := min?_eq_some_iff.mp h
  obtain ⟨row, hrow, hindex⟩ := mem_map.mp hmem
  obtain ⟨hrow, hunused⟩ := mem_filter.mp hrow
  refine ⟨⟨row, hrow, of_decide_eq_true hunused, hindex⟩, fun r hr hu => hle _ ?_⟩
  exact mem_map.mpr ⟨r, mem_filter.mpr ⟨hr, decide_eq_true hu⟩, rfl⟩

lemma getUnusedDerivationPath_eq_none (h : store.getUnusedDerivationPath = none) :
    ∀ row ∈ store.derivationPaths, row.used = true := by
  intro row hrow
  have hnil := map_eq_nil_iff.mp (min?_eq_none_iff.mp h)
  have hused := filter_eq_nil_iff.mp hnil row hrow
  simpa using hused

lemma getLastDerivationPath_eq_some {last : ℕ} (h : store.getLastDerivationPath = some last) :
    (∃ row ∈ store.derivationPaths, row.record.index = last) ∧ ∀ row ∈ store.derivationPaths, row.record.index ≤ last := by
  obtain ⟨hmem, hle⟩ := max?_eq_some_iff.mp h
  exact ⟨mem_map.mp hmem, fun row hrow => hle _ (mem_map_of_mem hrow)⟩

lemma getLastDerivationPath_eq_none (h : store.getLastDerivationPath = none) : store.derivationPaths = [] :=
  map_eq_nil_iff.mp (max?_eq_none_iff.mp h)

lemma mem_addDerivationPaths {row : DerivationPath} : row ∈ (store.addDerivationPaths records).derivationPaths ↔
      row ∈ store.derivationPaths ∨ ∃ r ∈ records, row = ⟨r, false⟩ := by
  change row ∈ store.derivationPaths ++ records.map (⟨·, false⟩) ↔ _
  rw [mem_append, mem_map]
  simp only [eq_comm]

lemma addDerivationPaths_addDerivationPaths (records records' : List DerivationRecord) :
    (store.addDerivationPaths records).addDerivationPaths records' = store.addDerivationPaths (records ++ records') := by
  unfold addDerivationPaths
  congr 1
  · rw [map_append, append_assoc]
  · ext puzzleHash
    simp

lemma map_record_setUsedUpTo (index : ℕ) :
    (store.setUsedUpTo index).derivationPaths.map record = store.derivationPaths.map record := by
  change (store.derivationPaths.map _).map _ = _
  rw [map_map]
  refine map_congr_left fun row _ => ?_
  simp only [Function.comp_apply]
  split
  · rfl
  · rfl

lemma forall_mem_setUsedUpTo : (∀ row ∈ (store.setUsedUpTo index).derivationPaths, p row.record row.used) ↔
      ∀ row ∈ store.derivationPaths, p row.record (row.used || decide (row.record.index ≤ index)) := by
  change (∀ row ∈ store.derivationPaths.map _, _) ↔ _
  rw [forall_mem_map]
  refine forall₂_congr fun row _ => ?_
  split
  · rename_i hle
    simp [hle]
  · rename_i hgt
    simp [hgt]

lemma exists_mem_setUsedUpTo {p : DerivationRecord → Prop} :
    (∃ row ∈ (store.setUsedUpTo index).derivationPaths, p row.record) ↔
      ∃ row ∈ store.derivationPaths, p row.record := by
  have hrecords : ∀ rows : List DerivationPath, (∃ row ∈ rows, p row.record) ↔ ∃ r ∈ rows.map record, p r := by simp
  rw [hrecords, hrecords, map_record_setUsedUpTo]

lemma startIndex_of_records {store' : WalletPuzzleStore} (fromZero : Bool) (id : ℕ)
    (h : store'.derivationPaths.map record = store.derivationPaths.map record) :
    startIndex store' fromZero id = startIndex store fromZero id := by
  have hlast : ∀ t : WalletPuzzleStore, t.getLastDerivationPathForWallet id =
      (((t.derivationPaths.map record).filter fun r => r.walletId = id).map
        DerivationRecord.index).max? := by
    intro t
    rw [filter_map, map_map]
    rfl
  unfold startIndex
  rw [hlast, hlast, h]

lemma startIndex_addDerivationPaths (fromZero : Bool) (h : ∀ r ∈ records, r.walletId ≠ id) :
    startIndex (store.addDerivationPaths records) fromZero id = startIndex store fromZero id := by
  have hnew : (records.map fun r => (⟨r, false⟩ : DerivationPath)).filter
      (fun row => decide (row.record.walletId = id)) = [] := by
    rw [filter_eq_nil_iff]
    intro row hrow
    obtain ⟨r, hr, rfl⟩ := mem_map.mp hrow
    simpa using h r hr
  unfold startIndex getLastDerivationPathForWallet addDerivationPaths
  rw [filter_append, hnew, append_nil]

lemma startIndex_spec (store : WalletPuzzleStore) (id : ℕ) :
    (∀ row ∈ store.derivationPaths, row.record.walletId = id → row.record.index < startIndex store false id) ∧
      (startIndex store false id = 0 ∨ ∃ row ∈ store.derivationPaths, row.record.walletId = id ∧
        row.record.index + 1 = startIndex store false id) := by
  unfold startIndex
  cases hlast : store.getLastDerivationPathForWallet id with
  | none =>
    have hnil := map_eq_nil_iff.mp (max?_eq_none_iff.mp hlast)
    refine ⟨fun row hrow hid => ?_, .inl rfl⟩
    exact absurd (decide_eq_true hid) (filter_eq_nil_iff.mp hnil row hrow)
  | some last =>
    obtain ⟨hmem, hle⟩ := max?_eq_some_iff.mp hlast
    obtain ⟨row, hrow, hindex⟩ := mem_map.mp hmem
    obtain ⟨hrow, hid⟩ := mem_filter.mp hrow
    refine ⟨fun r hr hwallet => Nat.lt_succ_of_le (hle _ ?_), .inr ⟨row, hrow, of_decide_eq_true hid, ?_⟩⟩
    · exact mem_map.mpr ⟨r, mem_filter.mpr ⟨hr, decide_eq_true hwallet⟩, rfl⟩
    · exact congrArg (· + 1) hindex

/-- The records that are added for one wallet. -/
structure PathsOf (env : WalletEnv) (start stop walletId : ℕ) (target : TargetWallet)
    (paths : List DerivationRecord) : Prop where
  wallet : ∀ r ∈ paths, r.walletId = walletId
  pooling : target = .pooling → paths = []
  hd : ∀ type puzzleForPk, target = .hd type puzzleForPk → ∀ i, i ∈ paths.map DerivationRecord.index ↔
    start ≤ i ∧ i < stop ∧ ∀ j, start ≤ j → j ≤ i → (puzzleForPk (env.getPublicKey j)).isSome

lemma hdDerivationPaths_range (id : ℕ) (type : WalletType) (toPuzzle : Bytes → Option SExp) {start n : ℕ}
    (hfits : n = 0 ∨ start + n ≤ 2 ^ 32) :
    ∃ paths, hdDerivationPaths env id type toPuzzle (List.range' start n) = .ok paths ∧
      (∀ r ∈ paths, r.walletId = id) ∧ ∀ i, i ∈ paths.map DerivationRecord.index ↔
        start ≤ i ∧ i < start + n ∧ ∀ j, start ≤ j → j ≤ i → (toPuzzle (env.getPublicKey j)).isSome := by
  induction n generalizing start with
  | zero => exact ⟨[], rfl, forall_mem_nil _, fun i => by simp; omega⟩
  | succ n ih =>
    obtain ⟨paths, hpaths, hwallet, hindices⟩ := @ih (start + 1) (.inr (by omega))
    rw [range'_succ, hdDerivationPaths, toUint32, if_pos (by omega)]
    simp only [ok_bind]
    cases hpuzzle : toPuzzle (env.getPublicKey start) with
    | none =>
      refine ⟨[], rfl, forall_mem_nil _, fun i => ⟨fun hi => (by cases hi), fun ⟨hle, _, hall⟩ => ?_⟩⟩
      have := hall start (Nat.le_refl _) hle
      rw [hpuzzle] at this
      cases this
    | some puzzle =>
      rw [hpaths]
      refine ⟨_, rfl, forall_mem_cons.mpr ⟨rfl, hwallet⟩, fun i => ?_⟩
      rw [map_cons, mem_cons, hindices]
      constructor
      · rintro (rfl | ⟨hle, hlt, hall⟩)
        · refine ⟨Nat.le_refl _, by omega, fun j hle hge => ?_⟩
          obtain rfl := Nat.le_antisymm hle hge
          rw [hpuzzle]
          rfl
        refine ⟨by omega, by omega, fun j hj hi => ?_⟩
        rcases Nat.eq_or_lt_of_le hj with rfl | hj
        · rw [hpuzzle]
          rfl
        · exact hall j hj hi
      · rintro ⟨hle, hlt, hall⟩
        rcases Nat.eq_or_lt_of_le hle with rfl | hlt'
        · exact .inl rfl
        · exact .inr ⟨hlt', by omega, fun j hj hi => hall j (by omega) hi⟩

lemma derivationPaths_range (env : WalletEnv) (id : ℕ) (target : TargetWallet) (start : ℕ) {stop : ℕ}
    (hfits : stop ≤ 2 ^ 32) :
    ∃ paths, derivationPaths env id target (List.range' start (stop - start)) = .ok paths ∧
      PathsOf env start stop id target paths := by
  cases target with
  | pooling => exact ⟨[], rfl, forall_mem_nil _, fun _ => rfl, fun _ _ h => (by cases h)⟩
  | rateLimited rlInfo =>
    refine ⟨_, rfl, ?_, fun h => (by cases h), fun _ _ h => (by cases h)⟩
    split
    · exact forall_mem_nil _
    cases rlInfo with
    | uninitialized => exact forall_mem_nil _
    | initialized user userPubkey adminPubkey puzzle =>
      unfold rlDerivationPaths
      dsimp only
      split
      · exact forall_mem_nil _
      · exact forall_mem_singleton.mpr rfl
  | hd type toPuzzle =>
    have hend : stop - start = 0 ∨ start + (stop - start) ≤ 2 ^ 32 := by omega
    obtain ⟨paths, hpaths, hwallet, hindices⟩ := hdDerivationPaths_range id type toPuzzle hend
    refine ⟨paths, hpaths, hwallet, fun h => (by cases h), fun _ _ h i => ?_⟩
    cases h
    rw [hindices]
    refine and_congr_right fun hle => and_congr_left fun _ => ?_
    omega

/-- What the loop over the wallets adds. -/
structure Added (env : WalletEnv) (store : WalletPuzzleStore) (fromZero : Bool) (stop : ℕ)
    (targets : List (ℕ × TargetWallet)) (new : List DerivationRecord) : Prop where
  wallet : ∀ r ∈ new, r.walletId ∈ targets.map Prod.fst
  paths : ∀ target ∈ targets, PathsOf env (startIndex store fromZero target.1) stop target.1 target.2
    (new.filter fun r => r.walletId = target.1)

lemma exec_createForWallet (env : WalletEnv) (s : WalletStateManager) (fromZero : Bool) {stop : ℕ}
    (target : ℕ × TargetWallet) (hfits : stop ≤ 2 ^ 32) :
    ∃ paths, exec (createForWallet env fromZero stop target) s =
        (.ok (), { s with puzzleStore := s.puzzleStore.addDerivationPaths paths }) ∧
      PathsOf env (startIndex s.puzzleStore fromZero target.1) stop target.1 target.2 paths := by
  obtain ⟨paths, hpaths, hof⟩ :=
    derivationPaths_range env target.1 target.2 (startIndex s.puzzleStore fromZero target.1) hfits
  refine ⟨paths, ?_, hof⟩
  unfold createForWallet
  simp only [exec_get_bind, hpaths, exec_lift_ok_bind, exec_modify]

lemma exec_createForWallets (env : WalletEnv) (s : WalletStateManager) (fromZero : Bool) {stop : ℕ}
    {targets : List (ℕ × TargetWallet)} (hnodup : (targets.map Prod.fst).Nodup) (hfits : stop ≤ 2 ^ 32) :
    ∃ new, exec (targets.forM (createForWallet env fromZero stop)) s =
        (.ok (), { s with puzzleStore := s.puzzleStore.addDerivationPaths new }) ∧
      Added env s.puzzleStore fromZero stop targets new := by
  induction targets generalizing s with
  | nil =>
    refine ⟨[], ?_, forall_mem_nil _, forall_mem_nil _⟩
    have hnone : s.puzzleStore.addDerivationPaths [] = s.puzzleStore := by
      unfold addDerivationPaths
      rw [map_nil, append_nil, map_nil, toFinset_nil, Finset.union_empty]
    rw [hnone]
    rfl
  | cons target targets ih =>
    obtain ⟨hfresh, hnodup⟩ := nodup_cons.mp hnodup
    obtain ⟨paths, hpaths, hof⟩ := exec_createForWallet env s fromZero target hfits
    obtain ⟨new, hnew, hwallet, hadded⟩ := ih { s with puzzleStore := s.puzzleStore.addDerivationPaths paths } hnodup
    refine ⟨paths ++ new, ?_, ?_, ?_⟩
    · rw [exec_forM_cons, exec_bind_of_ok hpaths, hnew, addDerivationPaths_addDerivationPaths]
    · intro r hr
      rcases mem_append.mp hr with hr | hr
      · exact mem_cons.mpr (.inl (hof.wallet r hr))
      · exact mem_cons.mpr (.inr (hwallet r hr))
    -- the records of one wallet come from its own round
    refine forall_mem_cons.mpr ⟨?_, fun other hother => ?_⟩
    · have hold : paths.filter (fun r => decide (r.walletId = target.1)) = paths :=
        filter_eq_self.mpr fun r hr => decide_eq_true (hof.wallet r hr)
      have hrest : new.filter (fun r => decide (r.walletId = target.1)) = [] :=
        filter_eq_nil_iff.mpr fun r hr h => hfresh (of_decide_eq_true h ▸ hwallet r hr)
      rw [filter_append, hold, hrest, append_nil]
      exact hof
    have hne : ∀ r ∈ paths, r.walletId ≠ other.1 := by
      intro r hr h
      rw [hof.wallet r hr] at h
      exact hfresh (h ▸ mem_map_of_mem hother)
    have hold : paths.filter (fun r => decide (r.walletId = other.1)) = [] :=
      filter_eq_nil_iff.mpr fun r hr h => hne r hr (of_decide_eq_true h)
    have hpaths' := hadded other hother
    rw [startIndex_addDerivationPaths fromZero hne] at hpaths'
    rw [filter_append, hold]
    exact hpaths'

def createdStore (store : WalletPuzzleStore) (new : List DerivationRecord) : WalletPuzzleStore :=
  if firstUnused store > 0 then (store.addDerivationPaths new).setUsedUpTo (firstUnused store - 1)
  else store.addDerivationPaths new

lemma exec_createMorePuzzleHashes (env : WalletEnv) (s : WalletStateManager) (fromZero : Bool)
    (hfits : firstUnused s.puzzleStore + s.toGenerate env ≤ 2 ^ 32) :
    ∃ new, exec (createMorePuzzleHashes env fromZero) s =
        (.ok (), { s with puzzleStore := createdStore s.puzzleStore new }) ∧
      Added env s.puzzleStore fromZero (firstUnused s.puzzleStore + s.toGenerate env) s.wallets.entries new := by
  obtain ⟨new, hnew, hadded⟩ := exec_createForWallets env s fromZero s.wallets.nodup hfits
  refine ⟨new, ?_, hadded⟩
  unfold createMorePuzzleHashes createdStore
  rw [exec_get_bind, exec_bind_of_ok hnew]
  split
  · rfl
  · rfl

/-- The used rows are those below the bound, which is not far above all rows. -/
structure UsedBelow (store : WalletPuzzleStore) (bound : ℕ) : Prop where
  used : ∀ row ∈ store.derivationPaths, row.used = true ↔ row.record.index < bound
  near : bound = 0 ∨ ∃ row ∈ store.derivationPaths, bound ≤ row.record.index + 1

variable {bound : ℕ}

lemma UsedBelow.le_unused (h : UsedBelow store bound)
    (hindex : store.getUnusedDerivationPath = some index) : bound ≤ index := by
  obtain ⟨⟨row, hrow, hunused, rfl⟩, -⟩ := getUnusedDerivationPath_eq_some hindex
  by_contra hlt
  have := (h.used row hrow).mpr (Nat.lt_of_not_le hlt)
  rw [hunused] at this
  cases this

lemma UsedBelow.setUsedUpTo (h : UsedBelow store bound) (hrow : ∃ row ∈ store.derivationPaths, row.record.index = index) :
    UsedBelow (store.setUsedUpTo index) (max bound (index + 1)) where
  used := by
    refine (forall_mem_setUsedUpTo (p := fun r used => used = true ↔ r.index < max bound (index + 1))).mpr ?_
    intro row hrow
    rw [Bool.or_eq_true, decide_eq_true_eq, h.used row hrow]
    omega
  near := by
    refine .inr ((exists_mem_setUsedUpTo (p := fun r => max bound (index + 1) ≤ r.index + 1)).mpr ?_)
    obtain ⟨row, hrow, rfl⟩ := hrow
    rcases h.near with rfl | ⟨top, htop, hle⟩
    · exact ⟨row, hrow, by simp⟩
    · rcases Nat.le_total (row.record.index) (top.record.index) with hcmp | hcmp
      · exact ⟨top, htop, by omega⟩
      · exact ⟨row, hrow, by omega⟩

lemma forall_mem_createdStore {new : List DerivationRecord} :
    (∀ row ∈ (createdStore store new).derivationPaths, p row.record row.used) ↔
      (∀ row ∈ store.derivationPaths, p row.record (row.used || decide (row.record.index < firstUnused store))) ∧
        ∀ r ∈ new, p r (decide (r.index < firstUnused store)) := by
  have hadd : ∀ q : DerivationRecord → Bool → Prop,
      (∀ row ∈ (store.addDerivationPaths new).derivationPaths, q row.record row.used) ↔
        (∀ row ∈ store.derivationPaths, q row.record row.used) ∧ ∀ r ∈ new, q r false := by
    intro q
    change (∀ row ∈ store.derivationPaths ++ new.map (⟨·, false⟩), _) ↔ _
    rw [forall_mem_append, forall_mem_map]
  unfold createdStore
  split
  · have hbelow : ∀ i, i ≤ firstUnused store - 1 ↔ i < firstUnused store := fun i => by omega
    refine forall_mem_setUsedUpTo.trans
      ((hadd fun r used => p r (used || decide (r.index ≤ firstUnused store - 1))).trans ?_)
    simp only [hbelow, Bool.false_or]
  · have hnone : ∀ i, ¬ i < firstUnused store := fun i => by omega
    rw [hadd]
    simp only [hnone, decide_false, Bool.or_false]

lemma exists_mem_createdStore {new : List DerivationRecord} {p : DerivationRecord → Prop}
    (h : ∃ row ∈ store.derivationPaths, p row.record) :
    ∃ row ∈ (createdStore store new).derivationPaths, p row.record := by
  by_contra hnone
  push Not at hnone
  obtain ⟨row, hrow, hp⟩ := h
  exact (forall_mem_createdStore (p := fun r _ => ¬ p r)).mp hnone |>.1 row hrow hp

/-- No new row has an index that is used, if all rows of the store are. -/
def Clear (store : WalletPuzzleStore) (new : List DerivationRecord) : Prop :=
  store.getUnusedDerivationPath = none → ∀ row ∈ store.derivationPaths, ∀ r ∈ new, row.record.index < r.index

lemma UsedBelow.created (h : UsedBelow store bound) {new : List DerivationRecord} (hclear : Clear store new) :
    ∃ bound', bound ≤ bound' ∧ UsedBelow (createdStore store new) bound' := by
  cases hunused : store.getUnusedDerivationPath with
  | some unused =>
    have hfirst : firstUnused store = unused := by
      unfold firstUnused
      rw [hunused]
      rfl
    have hbound := h.le_unused hunused
    obtain ⟨⟨top, htop, -, htop'⟩, hmin⟩ := getUnusedDerivationPath_eq_some hunused
    refine ⟨unused, hbound, ?_, .inr ?_⟩
    · refine (forall_mem_createdStore (p := fun r used => used = true ↔ r.index < unused)).mpr ⟨?_, ?_⟩
      · intro row hrow
        rw [Bool.or_eq_true, decide_eq_true_eq, h.used row hrow]
        omega
      · intro r _
        rw [hfirst, decide_eq_true_eq]
    · exact exists_mem_createdStore (p := fun r => unused ≤ r.index + 1) ⟨top, htop, by omega⟩
  | none =>
    have hall := getUnusedDerivationPath_eq_none hunused
    cases hlast : store.getLastDerivationPath with
    | none =>
      -- an empty table: all new rows are unused
      have hrows := getLastDerivationPath_eq_none hlast
      have hfirst : firstUnused store = 0 := by
        unfold firstUnused
        rw [hunused, hlast]
        rfl
      have hzero : bound = 0 := by
        rcases h.near with hzero | ⟨row, hrow, -⟩
        · exact hzero
        · rw [hrows] at hrow
          cases hrow
      refine ⟨bound, Nat.le_refl _, ?_, .inl hzero⟩
      refine (forall_mem_createdStore (p := fun r used => used = true ↔ r.index < bound)).mpr ⟨?_, ?_⟩
      · rw [hrows]
        exact forall_mem_nil _
      · intro r _
        rw [hfirst, hzero, decide_eq_true_eq]
    | some last =>
      obtain ⟨⟨top, htop, rfl⟩, hmax⟩ := getLastDerivationPath_eq_some hlast
      have hfirst : firstUnused store = top.record.index := by
        unfold firstUnused
        rw [hunused, hlast]
        rfl
      have hbound : bound ≤ top.record.index + 1 := by
        rcases h.near with rfl | ⟨row, hrow, hle⟩
        · exact Nat.zero_le _
        · exact hle.trans (Nat.succ_le_succ (hmax row hrow))
      refine ⟨top.record.index + 1, hbound, ?_, .inr ?_⟩
      · refine (forall_mem_createdStore (p := fun r used => used = true ↔ r.index < top.record.index + 1)).mpr ⟨?_, ?_⟩
        · intro row hrow
          have hle := hmax row hrow
          rw [hall row hrow]
          exact iff_of_true rfl (Nat.lt_succ_of_le hle)
        · intro r hr
          have hlt := hclear hunused top htop r hr
          rw [decide_eq_true_eq]
          omega
      · exact exists_mem_createdStore (p := fun r => top.record.index + 1 ≤ r.index + 1) ⟨top, htop, Nat.le_refl _⟩

/-- No wallet would add a row for an index that has one. A rate limited wallet adds its one row again. -/
def Level (env : WalletEnv) (s : WalletStateManager) : Prop :=
  ∀ target ∈ s.wallets.entries, target.2 = .pooling ∨ ∃ type puzzleForPk, target.2 = .hd type puzzleForPk ∧
    ((∀ row ∈ s.puzzleStore.derivationPaths, row.record.index < startIndex s.puzzleStore false target.1) ∨
      puzzleForPk (env.getPublicKey (startIndex s.puzzleStore false target.1)) = none)

/-- `Level` only looks at the records. -/
lemma Level.of_records (h : Level env s) {store : WalletPuzzleStore} (hrecords : store.derivationPaths.map
      record = s.puzzleStore.derivationPaths.map record) :
    Level env { s with puzzleStore := store } := by
  intro target htarget
  rcases h target htarget with hpooling | ⟨type, toPuzzle, htype, hlevel⟩
  · exact .inl hpooling
  refine .inr ⟨type, toPuzzle, htype, ?_⟩
  rw [startIndex_of_records false target.1 hrecords]
  refine hlevel.imp_left fun hrows row hrow => ?_
  have hmem : row.record ∈ s.puzzleStore.derivationPaths.map record := hrecords ▸ mem_map_of_mem hrow
  obtain ⟨row', hrow', heq⟩ := mem_map.mp hmem
  exact heq ▸ hrows row' hrow'

variable {stop : ℕ} {new : List DerivationRecord}

lemma Level.mem_new (h : Level env s) (hadded : Added env s.puzzleStore false stop s.wallets.entries new)
    {r : DerivationRecord} (hr : r ∈ new) :
    (∀ row ∈ s.puzzleStore.derivationPaths, row.record.index < r.index) ∧ r.index < stop := by
  obtain ⟨target, htarget, hid⟩ := mem_map.mp (hadded.wallet r hr)
  have hpaths := hadded.paths target htarget
  have hmem : r ∈ new.filter fun r => r.walletId = target.1 := mem_filter.mpr ⟨hr, decide_eq_true hid.symm⟩
  rcases h target htarget with hpooling | ⟨type, toPuzzle, htype, hlevel⟩
  · rw [hpaths.pooling hpooling] at hmem
    cases hmem
  obtain ⟨hle, hlt, hall⟩ := (hpaths.hd type toPuzzle htype r.index).mp (mem_map_of_mem hmem)
  refine ⟨fun row hrow => ?_, hlt⟩
  rcases hlevel with hrows | hnone
  · exact (hrows row hrow).trans_le hle
  · have := hall _ (Nat.le_refl _) hle
    rw [hnone] at this
    cases this

lemma Level.clear (h : Level env s) (hadded : Added env s.puzzleStore false stop s.wallets.entries new) :
    Clear s.puzzleStore new :=
  fun _ row hrow _ hr => (h.mem_new hadded hr).1 row hrow

lemma map_record_createdStore (store : WalletPuzzleStore) (new : List DerivationRecord) :
    (createdStore store new).derivationPaths.map record =
      (store.addDerivationPaths new).derivationPaths.map record := by
  unfold createdStore
  split
  · exact map_record_setUsedUpTo _
  · rfl

lemma PathsOf.startIndex_addDerivationPaths {type : WalletType} {toPuzzle : Bytes → Option SExp}
    (h : PathsOf env (startIndex store false id) stop id (.hd type toPuzzle)
      (new.filter fun r => r.walletId = id)) :
    max (startIndex store false id) stop ≤ startIndex (store.addDerivationPaths new) false id ∨
      toPuzzle (env.getPublicKey (startIndex (store.addDerivationPaths new) false id)) = none := by
  have hpaths := h.hd type toPuzzle rfl
  obtain ⟨hlast, hnear⟩ := startIndex_spec (store.addDerivationPaths new) id
  generalize startIndex (store.addDerivationPaths new) false id = next at hlast hnear ⊢
  obtain ⟨hold, hold'⟩ := startIndex_spec store id
  generalize startIndex store false id = start at hpaths hold hold' ⊢
  -- the rows of the wallet are those it had and those that are new
  have hle : start ≤ next := by
    rcases hold' with rfl | ⟨row, hrow, hid, rfl⟩
    · exact Nat.zero_le _
    · exact hlast row (mem_addDerivationPaths.mpr (.inl hrow)) hid
  have hnext : ∀ i, i ∈ (new.filter fun r => r.walletId = id).map DerivationRecord.index → i < next := by
    intro i hi
    obtain ⟨r, hr, rfl⟩ := mem_map.mp hi
    obtain ⟨hr, hid⟩ := mem_filter.mp hr
    exact hlast ⟨r, false⟩ (mem_addDerivationPaths.mpr (.inr ⟨r, hr, rfl⟩)) (of_decide_eq_true hid)
  have hall : ∀ j, start ≤ j → j < next → (toPuzzle (env.getPublicKey j)).isSome := by
    intro j hj hlt
    rcases hnear with rfl | ⟨row, hrow, hid, rfl⟩
    · cases hlt
    rcases mem_addDerivationPaths.mp hrow with hrow | ⟨r, hr, rfl⟩
    · have := hold row hrow hid
      omega
    · have hmem : r ∈ new.filter fun r => r.walletId = id := mem_filter.mpr ⟨hr, decide_eq_true hid⟩
      exact ((hpaths r.index).mp (mem_map_of_mem hmem)).2.2 j hj (Nat.le_of_lt_succ hlt)
  cases hpuzzle : toPuzzle (env.getPublicKey next) with
  | none => exact .inr rfl
  | some puzzle =>
    refine .inl (max_le hle (Nat.le_of_not_lt fun hlt => Nat.lt_irrefl next (hnext next ?_)))
    refine (hpaths next).mpr ⟨hle, hlt, fun j hj hle => ?_⟩
    rcases Nat.eq_or_lt_of_le hle with rfl | hlt
    · rw [hpuzzle]
      rfl
    · exact hall j hj hlt

lemma Level.created (h : Level env s) (hadded : Added env s.puzzleStore false stop s.wallets.entries new) :
    Level env { s with puzzleStore := createdStore s.puzzleStore new } := by
  refine Level.of_records (s := { s with puzzleStore := s.puzzleStore.addDerivationPaths new }) ?_
    (map_record_createdStore _ _)
  intro target htarget
  rcases h target htarget with hpooling | ⟨type, toPuzzle, htype, hlevel⟩
  · exact .inl hpooling
  refine .inr ⟨type, toPuzzle, htype, ?_⟩
  have hpaths := hadded.paths target htarget
  rw [htype] at hpaths
  rcases hpaths.startIndex_addDerivationPaths with hmax | hnone
  · rcases hlevel with hrows | hnone
    · refine .inl fun row hrow => ?_
      rcases mem_addDerivationPaths.mp hrow with hrow | ⟨r, hr, rfl⟩
      · exact (hrows row hrow).trans_le ((le_max_left _ _).trans hmax)
      · exact (h.mem_new hadded hr).2.trans_le ((le_max_right _ _).trans hmax)
    -- without a puzzle nothing is added
    have hother : ∀ r ∈ new, r.walletId ≠ target.1 := by
      intro r hr hid
      have hmem : r ∈ new.filter fun r => r.walletId = target.1 := mem_filter.mpr ⟨hr, decide_eq_true hid⟩
      obtain ⟨hle, -, hall⟩ := (hpaths.hd type toPuzzle rfl r.index).mp (mem_map_of_mem hmem)
      have := hall _ (Nat.le_refl _) hle
      rw [hnone] at this
      cases this
    refine .inr ?_
    rw [startIndex_addDerivationPaths false hother]
    exact hnone
  · exact .inr hnone

inductive KeyOp where
  | getUnused (walletId : ℕ)
  | createMore (fromZero : Bool)
  | addWallet (wallet : TargetWallet) (walletId : ℕ) (createPuzzleHashes : Bool)
  /-- A coin with a puzzle hash arrives. -/
  | coinArrives (puzzleHash : Bytes32)

/-- Returns the index that is handed out. -/
def KeyOp.run (env : WalletEnv) : KeyOp → WalletM (Option ℕ)
  | getUnused walletId => do
    let record ← getUnusedDerivationRecord env walletId
    return some record.index
  | createMore fromZero => do
    createMorePuzzleHashes env fromZero
    return none
  | addWallet wallet walletId createPuzzleHashes => do
    addNewWallet env wallet walletId createPuzzleHashes
    return none
  | coinArrives puzzleHash => do
    markDerivationIndex puzzleHash
    return none

def Fits (env : WalletEnv) (s : WalletStateManager) : Prop :=
  s.puzzleStore.getLastDerivationPath.getD 0 + 2 * s.toGenerate env ≤ 2 ^ 32

instance : Decidable (Fits env s) := inferInstanceAs (Decidable (_ ≤ _))

/-- `create_more_puzzle_hashes` finds an unused row or an empty table, or it has no index to add again. -/
def CreateRegular (env : WalletEnv) (fromZero : Bool) (s : WalletStateManager) : Prop :=
  (∃ row ∈ s.puzzleStore.derivationPaths, row.used = false) ∨ s.puzzleStore.derivationPaths = [] ∨
    fromZero = false ∧ Level env s

/-- Two indices are unused. -/
def Spare (store : WalletPuzzleStore) : Prop :=
  ∃ row ∈ store.derivationPaths, ∃ row' ∈ store.derivationPaths,
    row.used = false ∧ row'.used = false ∧ row.record.index < row'.record.index

instance : Decidable (Spare store) :=
  inferInstanceAs (Decidable (∃ row ∈ store.derivationPaths, ∃ row' ∈ store.derivationPaths, _))

/-- An operation does not add a row again for the last index while all rows are used. -/
def KeyOp.Regular (env : WalletEnv) (s : WalletStateManager) : KeyOp → Prop
  | getUnused _ => Fits env s ∧ (Spare s.puzzleStore ∨ Level env s)
  | createMore fromZero => Fits env s ∧ CreateRegular env fromZero s
  | addWallet wallet walletId createPuzzleHashes =>
    createPuzzleHashes = true → Fits env s ∧ CreateRegular env false { s with wallets := s.wallets.set walletId wallet }
  | coinArrives _ => True

lemma firstUnused_le (store : WalletPuzzleStore) : firstUnused store ≤ store.getLastDerivationPath.getD 0 := by
  unfold firstUnused
  cases hunused : store.getUnusedDerivationPath with
  | none => exact Nat.le_refl _
  | some unused =>
    obtain ⟨⟨row, hrow, -, hindex⟩, -⟩ := getUnusedDerivationPath_eq_some hunused
    cases hlast : store.getLastDerivationPath with
    | none =>
      rw [getLastDerivationPath_eq_none hlast] at hrow
      cases hrow
    | some last =>
      obtain ⟨-, hmax⟩ := getLastDerivationPath_eq_some hlast
      exact hindex ▸ hmax row hrow

lemma Fits.create (h : Fits env s) : firstUnused s.puzzleStore + s.toGenerate env ≤ 2 ^ 32 := by
  have hle := firstUnused_le s.puzzleStore
  unfold Fits at h
  omega

lemma UsedBelow.createMore (h : UsedBelow s.puzzleStore bound) {fromZero : Bool}
    (hfits : firstUnused s.puzzleStore + s.toGenerate env ≤ 2 ^ 32) (hregular : CreateRegular env fromZero s) :
    ∃ s', exec (createMorePuzzleHashes env fromZero) s = (.ok (), s') ∧
      ∃ bound', bound ≤ bound' ∧ UsedBelow s'.puzzleStore bound' := by
  obtain ⟨new, hrun, hadded⟩ := exec_createMorePuzzleHashes env s fromZero hfits
  refine ⟨_, hrun, h.created ?_⟩
  rcases hregular with ⟨row, hrow, hunused⟩ | hempty | ⟨rfl, hlevel⟩
  · intro hnone
    have := getUnusedDerivationPath_eq_none hnone row hrow
    rw [hunused] at this
    cases this
  · intro _
    rw [hempty]
    exact forall_mem_nil _
  · exact hlevel.clear hadded

/-- The bound moves up, and behind the key that is handed out. -/
def MovesUp (bound : ℕ) (result : Except PyError DerivationRecord × WalletStateManager) : Prop :=
  ∃ bound', bound ≤ bound' ∧ UsedBelow result.2.puzzleStore bound' ∧
    ∀ record, result.1 = .ok record → bound ≤ record.index ∧ record.index < bound'

lemma getDerivationRecord_eq_some {record : DerivationRecord}
    (h : store.getDerivationRecord index id = some record) :
    record.index = index ∧ ∃ row ∈ store.derivationPaths, row.record = record := by
  obtain ⟨row, hfind, hrow⟩ := Option.map_eq_some_iff.mp h
  have hprop := find?_some hfind
  rw [decide_eq_true_eq] at hprop
  exact ⟨hrow ▸ hprop.1, row, mem_of_find?_eq_some hfind, hrow⟩

lemma getLastDerivationPath_setUsedUpTo (index : ℕ) :
    (store.setUsedUpTo index).getLastDerivationPath = store.getLastDerivationPath := by
  have hlast : ∀ t : WalletPuzzleStore, t.getLastDerivationPath =
      ((t.derivationPaths.map record).map DerivationRecord.index).max? := by
    intro t
    rw [map_map]
    rfl
  rw [hlast, hlast, map_record_setUsedUpTo]

lemma Spare.exists_unused (h : Spare store) (hindex : store.getUnusedDerivationPath = some index) :
    ∃ row ∈ (store.setUsedUpTo index).derivationPaths, row.used = false := by
  obtain ⟨row, hrow, row', hrow', hunused, hunused', hlt⟩ := h
  obtain ⟨-, hmin⟩ := getUnusedDerivationPath_eq_some hindex
  have hle := hmin row hrow hunused
  refine ⟨row', mem_map.mpr ⟨row', hrow', if_neg ?_⟩, hunused'⟩
  omega

lemma UsedBelow.takeUnused (h : UsedBelow s.puzzleStore bound) (id : ℕ)
    (hfits : s.puzzleStore.getLastDerivationPath.getD 0 + s.toGenerate env ≤ 2 ^ 32)
    (hcase : Spare s.puzzleStore ∨ Level env s) : MovesUp bound (exec (takeUnusedDerivationRecord env id) s) := by
  unfold takeUnusedDerivationRecord
  rw [exec_get_bind]
  cases hunused : s.puzzleStore.getUnusedDerivationPath with
  | none => exact ⟨bound, Nat.le_refl _, h, fun record hrecord => (by cases hrecord)⟩
  | some unused =>
    rw [assertSome, exec_lift_ok_bind, exec_get_bind]
    cases hrecord : s.puzzleStore.getDerivationRecord unused id with
    | none => exact ⟨bound, Nat.le_refl _, h, fun record hrecord => (by cases hrecord)⟩
    | some record =>
      obtain ⟨hindex, row, hrow, hrow'⟩ := getDerivationRecord_eq_some hrecord
      rw [assertSome, exec_lift_ok_bind, exec_modify_bind, hindex]
      have hbound := h.le_unused hunused
      have hmarked := h.setUsedUpTo ⟨row, hrow, by rw [hrow', hindex]⟩
      have hregular : CreateRegular env false { s with puzzleStore := s.puzzleStore.setUsedUpTo unused } := by
        rcases hcase with hspare | hlevel
        · exact .inl (hspare.exists_unused hunused)
        · exact .inr (.inr ⟨rfl, hlevel.of_records (map_record_setUsedUpTo unused)⟩)
      have hle := firstUnused_le (s.puzzleStore.setUsedUpTo unused)
      rw [getLastDerivationPath_setUsedUpTo] at hle
      obtain ⟨s', hrun, bound', hbound', hused⟩ :=
        hmarked.createMore ((Nat.add_le_add_right hle _).trans hfits) hregular
      rw [exec_bind_of_ok hrun]
      refine ⟨bound', (le_max_left _ _).trans hbound', hused, fun record' hrecord' => ?_⟩
      cases hrecord'
      exact hindex ▸ ⟨hbound, (le_max_right _ _).trans hbound'⟩

lemma Level.last_le (h : Level env s)
    (hadded : Added env s.puzzleStore false (firstUnused s.puzzleStore + s.toGenerate env) s.wallets.entries new) :
    (createdStore s.puzzleStore new).getLastDerivationPath.getD 0 ≤
      s.puzzleStore.getLastDerivationPath.getD 0 + s.toGenerate env := by
  have hle := firstUnused_le s.puzzleStore
  have hold : ∀ row ∈ s.puzzleStore.derivationPaths, row.record.index ≤ s.puzzleStore.getLastDerivationPath.getD 0 := by
    intro row hrow
    cases hlast : s.puzzleStore.getLastDerivationPath with
    | none =>
      rw [getLastDerivationPath_eq_none hlast] at hrow
      cases hrow
    | some last => exact (getLastDerivationPath_eq_some hlast).2 row hrow
  have hall : ∀ row ∈ (createdStore s.puzzleStore new).derivationPaths,
      row.record.index ≤ s.puzzleStore.getLastDerivationPath.getD 0 + s.toGenerate env := by
    refine (forall_mem_createdStore (p := fun r _ => r.index ≤ _)).mpr ⟨fun row hrow => ?_, fun r hr => ?_⟩
    · exact (hold row hrow).trans (Nat.le_add_right _ _)
    · have hlt := (h.mem_new hadded hr).2
      omega
  cases hlast : (createdStore s.puzzleStore new).getLastDerivationPath with
  | none => exact Nat.zero_le _
  | some last =>
    obtain ⟨⟨row, hrow, rfl⟩, -⟩ := getLastDerivationPath_eq_some hlast
    exact hall row hrow

lemma UsedBelow.getUnused (h : UsedBelow s.puzzleStore bound) (id : ℕ) (hfits : Fits env s)
    (hcase : Spare s.puzzleStore ∨ Level env s) : MovesUp bound (exec (getUnusedDerivationRecord env id) s) := by
  unfold getUnusedDerivationRecord
  rw [exec_get_bind]
  split
  · -- all rows are used, so the wallets have to be level
    rename_i hnone
    have hlevel : Level env s := by
      refine hcase.resolve_left fun ⟨row, hrow, _, _, hunused, _⟩ => ?_
      have := getUnusedDerivationPath_eq_none hnone row hrow
      rw [hunused] at this
      cases this
    obtain ⟨new, hrun, hadded⟩ := exec_createMorePuzzleHashes env s false hfits.create
    obtain ⟨bound', hbound', hused⟩ := h.created (hlevel.clear hadded)
    rw [exec_bind_of_ok hrun]
    have hfits' : (createdStore s.puzzleStore new).getLastDerivationPath.getD 0 + s.toGenerate env ≤ 2 ^ 32 := by
      have := hlevel.last_le hadded
      unfold Fits at hfits
      omega
    have hcreated : UsedBelow ({ s with puzzleStore := createdStore s.puzzleStore new } : WalletStateManager).puzzleStore
      bound' := hused
    obtain ⟨bound'', hle, hused', hrecord⟩ := hcreated.takeUnused id hfits' (.inr (hlevel.created hadded))
    refine ⟨bound'', hbound'.trans hle, hused', fun record hok => ?_⟩
    obtain ⟨hge, hlt⟩ := hrecord record hok
    exact ⟨hbound'.trans hge, hlt⟩
  · refine h.takeUnused id ?_ hcase
    unfold Fits at hfits
    omega

def usedIndices (store : WalletPuzzleStore) : Set ℕ :=
  {index | ∃ row ∈ store.derivationPaths, row.used = true ∧ row.record.index = index}

def handedOut : Except PyError (Option ℕ) → List ℕ
  | .ok (some index) => [index]
  | _ => []

/-- States with the indices marked as used and those handed out, the last one first. -/
inductive Reached (env : WalletEnv) (Ok : WalletStateManager → KeyOp → Prop) :
    WalletStateManager → Set ℕ → List ℕ → Prop
  | start (s : WalletStateManager) (h : s.puzzleStore = .new) : Reached env Ok s ∅ []
  | step {s : WalletStateManager} {marked : Set ℕ} {handed : List ℕ} (h : Reached env Ok s marked handed) (op : KeyOp)
      (hop : Ok s op) : Reached env Ok (exec (op.run env) s).2
        (marked ∪ usedIndices (exec (op.run env) s).2.puzzleStore) (handedOut (exec (op.run env) s).1 ++ handed)

/-- One bound is above all that was marked and handed out, and below all that is unused. -/
structure Bounded (s : WalletStateManager) (marked : Set ℕ) (handed : List ℕ) (bound : ℕ) : Prop where
  below : UsedBelow s.puzzleStore bound
  marked : ∀ index ∈ marked, index < bound
  handed : ∀ index ∈ handed, index < bound

lemma UsedBelow.usedIndices_lt (h : UsedBelow store bound) : ∀ index ∈ usedIndices store, index < bound := by
  rintro index ⟨row, hrow, hused, rfl⟩
  exact (h.used row hrow).mp hused

lemma UsedBelow.run (h : UsedBelow s.puzzleStore bound) {op : KeyOp} (hop : op.Regular env s) :
    ∃ bound', bound ≤ bound' ∧ UsedBelow (exec (op.run env) s).2.puzzleStore bound' ∧
      ∀ index ∈ handedOut (exec (op.run env) s).1, bound ≤ index ∧ index < bound' := by
  cases op with
  | getUnused id =>
    obtain ⟨bound', hle, hused, hrecord⟩ := h.getUnused id hop.1 hop.2
    unfold KeyOp.run
    rw [exec_bind]
    generalize exec (getUnusedDerivationRecord env id) s = result at hused hrecord ⊢
    obtain ⟨outcome, s'⟩ := result
    cases outcome with
    | ok record => exact ⟨bound', hle, hused, forall_mem_singleton.mpr (hrecord record rfl)⟩
    | error e => exact ⟨bound', hle, hused, forall_mem_nil _⟩
  | createMore fromZero =>
    obtain ⟨s', hrun, bound', hle, hused⟩ := h.createMore hop.1.create hop.2
    unfold KeyOp.run
    rw [exec_bind_of_ok hrun]
    exact ⟨bound', hle, hused, forall_mem_nil _⟩
  | addWallet wallet id createPuzzleHashes =>
    unfold KeyOp.run addNewWallet
    cases createPuzzleHashes with
    | false => exact ⟨bound, Nat.le_refl _, h, forall_mem_nil _⟩
    | true =>
      obtain ⟨hfits, hregular⟩ := hop rfl
      have hset : UsedBelow ({ s with wallets := s.wallets.set id wallet } : WalletStateManager).puzzleStore
        bound := h
      obtain ⟨s', hrun, bound', hle, hused⟩ := hset.createMore hfits.create hregular
      have hadd : exec (addNewWallet env wallet id true) s = (.ok (), s') := hrun
      unfold addNewWallet at hadd
      rw [exec_bind_of_ok hadd]
      exact ⟨bound', hle, hused, forall_mem_nil _⟩
  | coinArrives puzzleHash =>
    unfold KeyOp.run markDerivationIndex
    rw [exec_modify_bind]
    cases hindex : s.puzzleStore.indexForPuzzleHash puzzleHash with
    | none => exact ⟨bound, Nat.le_refl _, h, forall_mem_nil _⟩
    | some index =>
      obtain ⟨row, hfind, hrow⟩ := Option.map_eq_some_iff.mp hindex
      exact ⟨_, le_max_left _ _, h.setUsedUpTo ⟨row, mem_of_find?_eq_some hfind, hrow⟩, forall_mem_nil _⟩

lemma Reached.bounded {marked : Set ℕ} {handed : List ℕ}
    (h : Reached env (fun s op => op.Regular env s) s marked handed) :
    handed.Pairwise (· > ·) ∧ ∃ bound, Bounded s marked handed bound := by
  induction h with
  | start s hnew =>
    refine ⟨.nil, 0, ⟨?_, .inl rfl⟩, fun _ h => (by cases h), forall_mem_nil _⟩
    rw [hnew]
    exact forall_mem_nil _
  | @step s marked handed _ op hop ih =>
    obtain ⟨hsorted, bound, hbelow, hmarked, hhanded⟩ := ih
    obtain ⟨bound', hle, hused, hindex⟩ := hbelow.run hop
    refine ⟨?_, bound', hused, ?_, ?_⟩
    · refine pairwise_append.mpr ⟨?_, hsorted, fun i hi j hj => (hhanded j hj).trans_le (hindex i hi).1⟩
      unfold handedOut
      split
      · exact pairwise_singleton _ _
      · exact .nil
    · rintro i (hi | hi)
      · exact (hmarked i hi).trans_le hle
      · exact hused.usedIndices_lt i hi
    · intro i hi
      rcases mem_append.mp hi with hi | hi
      · exact (hindex i hi).2
      · exact (hhanded i hi).trans_le hle

/-- Keys are never reused as long as no row is added again for the last index while all rows are used. -/
theorem handed_out_keys_are_new {marked : Set ℕ} {handed : List ℕ}
    (h : Reached env (fun s op => op.Regular env s) s marked handed) :
    handed.Pairwise (· > ·) ∧ ∀ id record s', (KeyOp.getUnused id).Regular env s →
      exec (getUnusedDerivationRecord env id) s = (.ok record, s') →
        record.index ∉ marked ∧ ∀ index ∈ handed, index < record.index := by
  obtain ⟨hsorted, bound, hbelow, hmarked, hhanded⟩ := h.bounded
  refine ⟨hsorted, fun id record s' hregular hrun => ?_⟩
  obtain ⟨bound', -, -, hrecord⟩ := hbelow.getUnused id hregular.1 hregular.2
  have hle : bound ≤ record.index := (hrecord record (by rw [hrun])).1
  refine ⟨fun hmem => Nat.lt_irrefl _ ((hmarked _ hmem).trans_le hle), fun i hi => (hhanded i hi).trans_le hle⟩

def keyEnv : WalletEnv where
  stdHash bs := ⟨List.replicate 31 0 ++ [bs.getLastD 0], by simp⟩
  getPublicKey index := [UInt8.ofNat index]
  initialNumPublicKeys := 2
  initialNumPublicKeysNewWallet := 2

def keyWallet : TargetWallet := .hd .STANDARD_WALLET fun pubkey => some (.atom pubkey)

def keyState : WalletStateManager where
  wallets := Dict.empty.set 1 keyWallet
  newWallet := false
  puzzleStore := .new
  coinStore := .new
  unconfirmedForWallet := .empty
  tradeRecords := []
  peak := none
  costOfSingleTx := none

def after (ops : List KeyOp) : WalletStateManager := ops.foldl (fun s op => (exec (op.run keyEnv) s).2) keyState

def keyRecord (index : ℕ) : DerivationRecord :=
  ⟨index, (SExp.atom (keyEnv.getPublicKey index)).treeHash keyEnv.stdHash, keyEnv.getPublicKey index, .STANDARD_WALLET, 1⟩

theorem handed_out_keys_are_new_second :
    (exec (getUnusedDerivationRecord keyEnv 1) (after [.createMore false, .getUnused 1])).1 = .ok (keyRecord 1) ∧
      1 ∉ ∅ ∪ usedIndices (after [.createMore false]).puzzleStore ∪
        usedIndices (after [.createMore false, .getUnused 1]).puzzleStore ∧ ∀ index ∈ [0], index < 1 := by
  have hrun : (exec (getUnusedDerivationRecord keyEnv 1) (after [.createMore false, .getUnused 1])).1 =
      .ok (keyRecord 1) := by decide +kernel
  have hstart : Reached keyEnv (fun s op => op.Regular keyEnv s) keyState ∅ [] := .start _ rfl
  have hcreated := hstart.step (.createMore false) ⟨by decide +kernel, .inr (.inl rfl)⟩
  have hspare : Spare (after [.createMore false]).puzzleStore := by decide +kernel
  have hhanded := hcreated.step (.getUnused 1) ⟨by decide +kernel, .inl hspare⟩
  have hspare' : Spare (after [.createMore false, .getUnused 1]).puzzleStore := by decide +kernel
  have hnew := (handed_out_keys_are_new hhanded).2 1 (keyRecord 1) _ ⟨by decide +kernel, .inl hspare'⟩ (exec_eq_of_fst hrun)
  exact ⟨hrun, hnew⟩

/-- A coin marks the last key as used, a second wallet is added, and the first wallet gets the key again. -/
theorem used_key_is_handed_out_again :
    ∃ s marked handed record s', Reached keyEnv (fun _ _ => True) s marked handed ∧
      exec (getUnusedDerivationRecord keyEnv 1) s = (.ok record, s') ∧ record.index ∈ marked := by
  have hstart : Reached keyEnv (fun _ _ => True) keyState ∅ [] := .start _ rfl
  have hcreated := hstart.step (.createMore false) trivial
  have hmarked := hcreated.step (.coinArrives (keyRecord 1).puzzleHash) trivial
  have hadded := hmarked.step (.addWallet keyWallet 2 true) trivial
  have hrun : (exec (getUnusedDerivationRecord keyEnv 1)
      (after [.createMore false, .coinArrives (keyRecord 1).puzzleHash, .addWallet keyWallet 2 true])).1 =
      .ok (keyRecord 1) := by decide +kernel
  have hused : (⟨keyRecord 1, true⟩ : DerivationPath) ∈
      (after [.createMore false, .coinArrives (keyRecord 1).puzzleHash]).puzzleStore.derivationPaths := by
    decide +kernel
  exact ⟨_, _, _, keyRecord 1, _, hadded, exec_eq_of_fst hrun, .inl (.inr ⟨_, hused, rfl, rfl⟩)⟩

end SectorChain.Proofs.Keys
