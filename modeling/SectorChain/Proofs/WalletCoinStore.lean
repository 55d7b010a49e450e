import SectorChain.Wallet.WalletCoinStore
import SectorChain.Lib.Ledger

/-!
# The coin store of the wallet follows its history

The two caches say what the table says.
-/

namespace SectorChain.Proofs.WalletCoins

open Lib WalletCoinStore List

/-- The two operations that a block makes on the store. -/
inductive CoinOp where
  | add (record : WalletCoinRecord)
  | setSpent (coinName : Bytes32) (height : ℕ)

namespace CoinOp

def height : CoinOp → ℕ
  | add record => record.confirmedBlockHeight
  | setSpent _ height => height

def run (stdHash : Bytes → Bytes32) : CoinOp → WalletCoinStoreM Unit
  | add record => WalletCoinStore.addCoinRecord stdHash record
  | setSpent coinName height => do
    let _ ← WalletCoinStore.setSpent stdHash coinName height

/-- What a block adds is not spent. -/
def Plain : CoinOp → Prop
  | add record => record.spent = false ∧ record.spentBlockHeight = 0
  | setSpent _ _ => True

/-- A coin is added once, as an unspent one, and spent once, not below its height. -/
def Regular (stdHash : Bytes → Bytes32) (s : WalletCoinStore) : CoinOp → Prop
  | add record => s.coinRecord.get? (record.name stdHash) = none ∧ record.spent = false ∧ record.spentBlockHeight = 0
  | setSpent coinName height => ∃ r, s.coinRecord.get? coinName = some r ∧ r.spent = false ∧
      r.confirmedBlockHeight ≤ height

end CoinOp

variable {hash : Bytes → Bytes32} {s s' : WalletCoinStore} {record : WalletCoinRecord} {height : ℤ}
variable {es : List (Bytes32 × WalletCoinRecord)} {o : CoinOp}
variable {history : List CoinOp} {r : WalletCoinRecord} {rows : Dict Bytes32 WalletCoinRecord} {t : WalletCoinStore}

variable (cache : Dict ℕ (Dict Bytes32 WalletCoinRecord)) (w : ℕ) (k : Bytes32)

def unspentOf : Option WalletCoinRecord :=
  (cache.get? w).bind fun coins => coins.get? k

lemma unspentOf_set (w w' : ℕ) (coins : Dict Bytes32 WalletCoinRecord)
    (k : Bytes32) : unspentOf (cache.set w coins) w' k = if w' = w then coins.get? k else unspentOf cache w' k := by
  unfold unspentOf
  rw [Dict.get?_set]
  by_cases hw : w' = w
  · simp [hw]
  · simp [hw]

lemma unspentOf_eq_getD : unspentOf cache w k = ((cache.get? w).getD .empty).get? k := by
  unfold unspentOf
  cases cache.get? w with
  | none => rfl
  | some coins => rfl

lemma unspentOf_enterUnspent : unspentOf (enterUnspent hash cache record) w k =
      if w = record.walletId ∧ k = record.name hash then some record else unspentOf cache w k := by
  unfold enterUnspent
  rw [unspentOf_set, Dict.get?_set]
  by_cases hw : w = record.walletId
  · rw [hw, unspentOf_eq_getD]
    simp
  · rw [if_neg hw, if_neg fun h => hw h.1]

lemma unspentOf_unspentAfter : unspentOf (unspentAfter hash cache record) w k =
      if w = record.walletId ∧ k = record.name hash then if record.spent then none else some record
      else unspentOf cache w k := by
  unfold unspentAfter
  dsimp only
  cases hentry : cache.get? record.walletId with
  | none =>
    have hnone : unspentOf cache record.walletId k = none := by
      unfold unspentOf
      rw [hentry]
      rfl
    cases hspent : record.spent with
    | true =>
      by_cases hw : w = record.walletId
      · simp [hw, hnone]
      · simp [hw]
    | false =>
      rw [if_neg (by decide), unspentOf_set, Dict.get?_set]
      by_cases hw : w = record.walletId
      · simp [hw, hnone]
      · simp [hw]
  | some coins =>
    have hcoins : unspentOf cache record.walletId k = coins.get? k := by
      unfold unspentOf
      rw [hentry]
      rfl
    rw [unspentOf_set]
    by_cases hw : w = record.walletId
    · subst hw
      rw [hcoins]
      cases hspent : record.spent with
      | false => simp [Dict.get?_set]
      | true =>
        by_cases hmem : coins.contains (record.name hash) = true
        · simp [hmem]
        have hnot : coins.get? (record.name hash) = none := by
          unfold Dict.contains at hmem
          simpa using hmem
        by_cases hk : k = record.name hash
        · simp [hmem, hk, hnot]
        · simp [hmem, hk]
    · rw [if_neg hw, if_neg fun h => hw h.1]

/-- Both caches say what the table says. -/
structure Coherent (stdHash : Bytes → Bytes32) (s : WalletCoinStore) : Prop where
  keyed : ∀ k r, s.coinRecord.get? k = some r → r.name stdHash = k
  cached : ∀ k, s.coinRecordCache.get? k = s.coinRecord.get? k
  unspent : ∀ w k, unspentOf s.unspentCoinWalletCache w k =
    (s.coinRecord.get? k).filter fun r => !r.spent && decide (r.walletId = w)

lemma coherent_new : Coherent hash .new where
  keyed k r h := by cases h
  cached k := rfl
  unspent w k := rfl

lemma Coherent.addCoinRecord (h : Coherent hash s) (record : WalletCoinRecord)
    (hwallet : ∀ r, s.coinRecord.get? (record.name hash) = some r → r.walletId = record.walletId) :
    ∃ s', exec (WalletCoinStore.addCoinRecord hash record) s = (.ok (), s') ∧ Coherent hash s' ∧
      s'.coinRecord = s.coinRecord.set (record.name hash) record := by
  refine ⟨_, rfl, ⟨fun k r hr => ?_, fun k => ?_, fun w k => ?_⟩, rfl⟩
  · rw [Dict.get?_set] at hr
    split at hr
    · rename_i hk
      obtain rfl := Option.some.inj hr
      exact hk.symm
    · exact h.keyed k r hr
  · rw [Dict.get?_set, Dict.get?_set, h.cached]
  rw [unspentOf_unspentAfter, Dict.get?_set, h.unspent]
  by_cases hk : k = record.name hash
  · by_cases hw : w = record.walletId
    · subst hk hw
      cases hspent : record.spent with
      | true => simp [Option.filter_some, hspent]
      | false => simp [Option.filter_some, hspent]
    -- another wallet has no record of this name
    have hother : (s.coinRecord.get? k).filter (fun r => !r.spent && decide (r.walletId = w)) = none := by
      rw [Option.filter_eq_none_iff]
      intro r hr
      have := hwallet r (hk ▸ hr)
      simp [this, Ne.symm hw]
    rw [if_neg fun h => hw h.1, hother, if_pos hk]
    simp [Option.filter_some, Ne.symm hw]
  · simp [hk]

/-- After a pass over rows each cache has, of the rows it takes, what `f` makes of them. -/
structure Passed (es : List (Bytes32 × WalletCoinRecord)) (p : WalletCoinRecord → Bool) (q : ℕ → WalletCoinRecord → Bool)
    (f : WalletCoinRecord → WalletCoinRecord) (t t' : WalletCoinStore) : Prop where
  rows : t'.coinRecord = t.coinRecord
  cache : ∀ k, t'.coinRecordCache.get? k = (((es.lookup k).filter p).map f).or (t.coinRecordCache.get? k)
  unspent : ∀ w k, unspentOf t'.unspentCoinWalletCache w k =
    (((es.lookup k).filter (q w)).map f).or (unspentOf t.unspentCoinWalletCache w k)

lemma passed_foldl {step : WalletCoinStore → WalletCoinRecord → WalletCoinStore} {p : WalletCoinRecord → Bool}
    {q : ℕ → WalletCoinRecord → Bool} {f : WalletCoinRecord → WalletCoinRecord}
    (hrows : ∀ t r, (step t r).coinRecord = t.coinRecord)
    (hcache : ∀ t r k, (step t r).coinRecordCache.get? k =
      if k = r.name hash ∧ p r = true then some (f r) else t.coinRecordCache.get? k)
    (hunspent : ∀ t r w k, unspentOf (step t r).unspentCoinWalletCache w k =
      if k = r.name hash ∧ q w r = true then some (f r) else unspentOf t.unspentCoinWalletCache w k)
    (hnodup : (es.map Prod.fst).Nodup) (hkeyed : ∀ e ∈ es, e.2.name hash = e.1) (t : WalletCoinStore) :
    Passed es p q f t ((es.map Prod.snd).foldl step t) := by
  rw [foldl_map]
  refine ⟨?_, fun k => ?_, fun w k => ?_⟩
  · exact List.foldlRecOn (motive := fun u => u.coinRecord = t.coinRecord) es _ rfl
      fun u hu e _ => (hrows u e.2).trans hu
  · apply Dict.read_foldl_entries (fun u : WalletCoinStore => u.coinRecordCache.get? k) p f hnodup
    intro e he u
    rw [← hkeyed e he]
    exact hcache u e.2 k
  · apply Dict.read_foldl_entries (fun u : WalletCoinStore => unspentOf u.unspentCoinWalletCache w k) (q w) f hnodup
    intro e he u
    rw [← hkeyed e he]
    exact hunspent u e.2 w k

lemma passed_cacheRow (hnodup : (es.map Prod.fst).Nodup) (hkeyed : ∀ e ∈ es, e.2.name hash = e.1)
    (t : WalletCoinStore) : Passed es (fun _ => true) (fun w r => !r.spent && decide (r.walletId = w)) id t
      ((es.map Prod.snd).foldl (cacheRow hash) t) := by
  refine passed_foldl (fun t r => ?_) (fun t r k => ?_) (fun t r w k => ?_) hnodup hkeyed t
  · rfl
  · simp [cacheRow, Dict.get?_set]
  unfold cacheRow
  cases hspent : r.spent with
  | true => simp
  | false =>
    rw [if_pos rfl, unspentOf_enterUnspent]
    simp [eq_comm, and_comm]

lemma Coherent.rebuildWalletCache (h : Coherent hash s) :
    Coherent hash (rebuildWalletCache hash s) ∧ (rebuildWalletCache hash s).coinRecord = s.coinRecord := by
  obtain ⟨hrows, hcache, hunspent⟩ := passed_cacheRow s.coinRecord.nodup
    (fun e he => h.keyed e.1 e.2 (Dict.mem_entries.mp he))
    { s with coinRecordCache := .empty, unspentCoinWalletCache := .empty }
  have hrows' : (WalletCoinStore.rebuildWalletCache hash s).coinRecord = s.coinRecord := hrows
  refine ⟨⟨fun k r hr => ?_, fun k => ?_, fun w k => ?_⟩, hrows'⟩
  · exact h.keyed k r (hrows' ▸ hr)
  · rw [hrows']
    refine (hcache k).trans (Option.or_none.trans (Option.map_id_apply.trans ?_))
    change (s.coinRecord.get? k).filter _ = _
    cases s.coinRecord.get? k with
    | none => rfl
    | some r => rfl
  · rw [hrows']
    exact (hunspent w k).trans (Option.or_none.trans Option.map_id_apply)

/-- Each wallet that spent a coin above the height has an entry in the cache of unspent coins. -/
def HasEntries (s : WalletCoinStore) (height : ℤ) : Prop :=
  ∀ k r, s.coinRecordCache.get? k = some r → r.spentBlockHeight > height →
    (s.unspentCoinWalletCache.get? r.walletId).isSome = true

def undone (stdHash : Bytes → Bytes32) (height : ℤ) (t : WalletCoinStore) (r : WalletCoinRecord) : WalletCoinStore :=
  if r.spentBlockHeight > height then
    { t with
      coinRecordCache := t.coinRecordCache.set (r.name stdHash) r.unspend
      unspentCoinWalletCache := enterUnspent stdHash t.unspentCoinWalletCache r.unspend }
  else t

lemma exec_rollbackRecord {queue : List WalletCoinRecord} : exec (rollbackRecord hash height queue r) t =
      if r.spentBlockHeight > height ∧ t.unspentCoinWalletCache.get? r.walletId = none then
        (.error .keyError, { t with coinRecordCache := t.coinRecordCache.set (r.name hash) r.unspend })
      else (.ok (if r.confirmedBlockHeight > height then queue ++ [r] else queue), undone hash height t r) := by
  unfold rollbackRecord undone
  by_cases hspent : r.spentBlockHeight > height
  · unfold unspendRecord
    simp only [hspent, if_true, true_and]
    cases hentry : t.unspentCoinWalletCache.get? r.walletId with
    | none => simp [exec_bind, hentry]
    | some coins =>
      simp only [exec_bind, exec_modify, exec_get, hentry, exec_pure, reduceCtorEq, if_false, enterUnspent]
      have hid : r.unspend.walletId = r.walletId := rfl
      rw [hid, hentry]
      rfl
  · simp [hspent]

lemma isSome_undone (t : WalletCoinStore) (r : WalletCoinRecord)
    (h : r.spentBlockHeight > height → (t.unspentCoinWalletCache.get? r.walletId).isSome = true) (w : ℕ) :
    ((undone hash height t r).unspentCoinWalletCache.get? w).isSome = (t.unspentCoinWalletCache.get? w).isSome := by
  unfold undone
  split
  · rename_i hspent
    unfold enterUnspent
    rw [Dict.get?_set]
    split
    · rename_i hw
      rw [hw]
      exact (h hspent).symm
    · rfl
  · rfl

lemma exec_rollbackLoop {rs queue : List WalletCoinRecord} {t : WalletCoinStore} :
    if ∀ r ∈ rs, r.spentBlockHeight > height → (t.unspentCoinWalletCache.get? r.walletId).isSome = true then
      exec (rs.foldlM (rollbackRecord hash height) queue) t =
        (.ok (queue ++ rs.filter fun r => r.confirmedBlockHeight > height), rs.foldl (undone hash height) t)
    else (exec (rs.foldlM (rollbackRecord hash height) queue) t).1 = .error .keyError := by
  induction rs generalizing queue t with
  | nil => simp
  | cons r rs ih =>
    rw [foldlM_cons, exec_bind, exec_rollbackRecord]
    by_cases hfirst : r.spentBlockHeight > height → (t.unspentCoinWalletCache.get? r.walletId).isSome = true
    · have hgo : ¬(r.spentBlockHeight > height ∧ t.unspentCoinWalletCache.get? r.walletId = none) := by
        rintro ⟨hspent, hnone⟩
        have := hfirst hspent
        rw [hnone] at this
        cases this
      rw [if_neg hgo]
      have hih := @ih (if r.confirmedBlockHeight > height then queue ++ [r] else queue) (undone hash height t r)
      simp only [isSome_undone t r hfirst] at hih
      by_cases hrest : ∀ r' ∈ rs, r'.spentBlockHeight > height →
          (t.unspentCoinWalletCache.get? r'.walletId).isSome = true
      · rw [if_pos hrest] at hih
        rw [if_pos (forall_mem_cons.mpr ⟨hfirst, hrest⟩)]
        dsimp only
        rw [hih]
        by_cases hconfirmed : r.confirmedBlockHeight > height
        · simp [hconfirmed]
        · simp [hconfirmed]
      · rw [if_neg hrest] at hih
        rw [if_neg fun h => hrest (forall_mem_cons.mp h).2]
        exact hih
    · rw [if_neg fun h => hfirst (forall_mem_cons.mp h).1]
      push Not at hfirst
      have hnone : t.unspentCoinWalletCache.get? r.walletId = none := by simpa using hfirst.2
      rw [if_pos ⟨hfirst.1, hnone⟩]

def rolledBack (height : ℤ) (r : WalletCoinRecord) : WalletCoinRecord :=
  if r.spentBlockHeight > height then r.unspend else r

lemma rolledBack_name (r : WalletCoinRecord) : (rolledBack height r).name hash = r.name hash := by
  unfold rolledBack
  split
  · rfl
  · rfl

lemma get?_rollbackRows (rows : Dict Bytes32 WalletCoinRecord) (k : Bytes32) : (rollbackRows height rows).get? k =
      ((rows.get? k).filter fun r => r.confirmedBlockHeight ≤ height).map (rolledBack height) := by
  unfold rollbackRows
  rw [Dict.get?_mapVals, Dict.get?_filter]
  rfl

lemma passed_undone (hnodup : (es.map Prod.fst).Nodup) (hkeyed : ∀ e ∈ es, e.2.name hash = e.1)
    (t : WalletCoinStore) : Passed es (fun r => r.spentBlockHeight > height)
      (fun w r => r.spentBlockHeight > height ∧ r.walletId = w) WalletCoinRecord.unspend t
      ((es.map Prod.snd).foldl (undone hash height) t) := by
  refine passed_foldl (fun t r => ?_) (fun t r k => ?_) (fun t r w k => ?_) hnodup hkeyed t
  · unfold undone
    split
    · rfl
    · rfl
  · unfold undone
    split
    · rename_i hspent
      simp [Dict.get?_set, hspent]
    · rename_i hspent
      simp [hspent]
  unfold undone
  split
  · rename_i hspent
    rw [unspentOf_enterUnspent, show r.unspend.name hash = r.name hash from rfl,
      show r.unspend.walletId = r.walletId from rfl]
    simp [hspent, eq_comm, and_comm]
  · rename_i hspent
    simp [hspent]

def dropped (stdHash : Bytes → Bytes32) (t : WalletCoinStore) (r : WalletCoinRecord) : WalletCoinStore :=
  { t with
    coinRecordCache := t.coinRecordCache.erase (r.name stdHash)
    unspentCoinWalletCache := match t.unspentCoinWalletCache.get? r.walletId with
      | some coins => t.unspentCoinWalletCache.set r.walletId
          (if coins.contains (r.name stdHash) then coins.erase (r.name stdHash) else coins)
      | none => t.unspentCoinWalletCache }

lemma exec_deleteRecord {r' : WalletCoinRecord} (h : t.coinRecordCache.get? (r.name hash) = some r') :
    exec (deleteRecord hash r) t = (.ok (), dropped hash t r) := by
  have hcontains : t.coinRecordCache.contains (r.name hash) = true := Dict.contains_iff.mpr ⟨r', h⟩
  unfold deleteRecord
  simp only [exec_bind, exec_get, hcontains, Bool.not_true, Bool.false_eq_true, if_false, exec_modify]
  rfl

lemma unspentOf_dropped (t : WalletCoinStore) (r : WalletCoinRecord) (w : ℕ) (k : Bytes32) :
    unspentOf (dropped hash t r).unspentCoinWalletCache w k =
      if w = r.walletId ∧ k = r.name hash then none else unspentOf t.unspentCoinWalletCache w k := by
  have hcache : (dropped hash t r).unspentCoinWalletCache =
      unspentAfter hash t.unspentCoinWalletCache (r.spendAt 0) := by
    change _ = match t.unspentCoinWalletCache.get? r.walletId with | some coins => _ | none => _
    unfold dropped
    cases t.unspentCoinWalletCache.get? r.walletId with
    | none => rfl
    | some coins => rfl
  rw [hcache, unspentOf_unspentAfter]
  rfl

lemma exec_deleteLoop {rs : List WalletCoinRecord} (hnodup : (rs.map (WalletCoinRecord.name hash)).Nodup)
    (hmem : ∀ r ∈ rs, ∃ r', t.coinRecordCache.get? (r.name hash) = some r') :
    exec (rs.forM (deleteRecord hash)) t = (.ok (), rs.foldl (dropped hash) t) ∧
    (rs.foldl (dropped hash) t).coinRecord = t.coinRecord ∧
    (∀ k, (rs.foldl (dropped hash) t).coinRecordCache.get? k =
      if ∃ r ∈ rs, r.name hash = k then none else t.coinRecordCache.get? k) ∧
    ∀ w k, unspentOf (rs.foldl (dropped hash) t).unspentCoinWalletCache w k =
      if ∃ r ∈ rs, r.walletId = w ∧ r.name hash = k then none else unspentOf t.unspentCoinWalletCache w k := by
  induction rs generalizing t with
  | nil => exact ⟨rfl, rfl, fun k => by simp, fun w k => by simp⟩
  | cons r rs ih =>
    rw [map_cons, nodup_cons] at hnodup
    have hcache : ∀ k, (dropped hash t r).coinRecordCache.get? k =
        if k = r.name hash then none else t.coinRecordCache.get? k :=
      fun k => Dict.get?_erase t.coinRecordCache (r.name hash) k
    have hrest : ∀ r' ∈ rs, ∃ r'', (dropped hash t r).coinRecordCache.get? (r'.name hash) = some r'' := by
      intro r' hr'
      have hne : r'.name hash ≠ r.name hash := fun h => hnodup.1 (h ▸ mem_map_of_mem hr')
      rw [hcache, if_neg hne]
      exact hmem r' (mem_cons_of_mem r hr')
    obtain ⟨hrun, hrows, hget, hunspent⟩ := ih hnodup.2 hrest
    obtain ⟨r', hr'⟩ := hmem r mem_cons_self
    refine ⟨?_, hrows, fun k => ?_, fun w k => ?_⟩
    · rw [exec_forM_cons, exec_bind_of_ok (exec_deleteRecord hr')]
      exact hrun
    · rw [foldl_cons, hget, hcache]
      by_cases hk : k = r.name hash
      · simp [hk]
      · have hk' : ¬r.name hash = k := fun h => hk h.symm
        simp [hk, hk']
    rw [foldl_cons, hunspent, unspentOf_dropped]
    by_cases hk : w = r.walletId ∧ k = r.name hash
    · simp [hk]
    · have hk' : ¬(r.walletId = w ∧ r.name hash = k) := fun h => hk ⟨h.1.symm, h.2.symm⟩
      simp [hk, hk']

lemma hasEntries_of_ok (hok : (exec (WalletCoinStore.rollbackToBlock hash height) s).1 = .ok ()) : HasEntries s height := by
  have hloop := @exec_rollbackLoop hash height (s.coinRecordCache.entries.map Prod.snd) [] s
  intro k r hr hspent
  by_contra hnone
  have hall : ¬∀ r ∈ s.coinRecordCache.entries.map Prod.snd, r.spentBlockHeight > height →
      (s.unspentCoinWalletCache.get? r.walletId).isSome = true :=
    fun hall => hnone (hall r (mem_map.mpr ⟨(k, r), Dict.mem_entries.mpr hr, rfl⟩) hspent)
  rw [if_neg hall] at hloop
  unfold WalletCoinStore.rollbackToBlock at hok
  rw [exec_get_bind, exec_bind_of_error (exec_eq_of_fst hloop)] at hok
  cases hok

lemma Coherent.name_of_mem (h : Coherent hash s) {e : Bytes32 × WalletCoinRecord}
    (he : e ∈ s.coinRecordCache.entries) : e.2.name hash = e.1 :=
  h.keyed e.1 e.2 ((h.cached e.1).symm.trans (Dict.mem_entries.mp he))

lemma Coherent.nodup_names (h : Coherent hash s) :
    ((s.coinRecordCache.entries.map Prod.snd).map (WalletCoinRecord.name hash)).Nodup := by
  have heq : s.coinRecordCache.entries.map (WalletCoinRecord.name hash ∘ Prod.snd) =
      s.coinRecordCache.entries.map Prod.fst := map_congr_left fun _ he => h.name_of_mem he
  rw [map_map, heq]
  exact s.coinRecordCache.nodup

def deleteQueue (s : WalletCoinStore) (height : ℤ) : List WalletCoinRecord :=
  (s.coinRecordCache.entries.map Prod.snd).filter fun r => r.confirmedBlockHeight > height

lemma Coherent.mem_records (h : Coherent hash s) :
    r ∈ s.coinRecordCache.entries.map Prod.snd ↔ s.coinRecord.get? (r.name hash) = some r := by
  constructor
  · intro hr
    obtain ⟨e, he, rfl⟩ := mem_map.mp hr
    rw [h.name_of_mem he, ← h.cached]
    exact Dict.mem_entries.mp he
  · intro hr
    exact mem_map.mpr ⟨_, Dict.mem_entries.mpr ((h.cached _).trans hr), rfl⟩

lemma Coherent.mem_deleteQueue (h : Coherent hash s) :
    r ∈ deleteQueue s height ↔ s.coinRecord.get? (r.name hash) = some r ∧ r.confirmedBlockHeight > height := by
  unfold deleteQueue
  rw [mem_filter, decide_eq_true_eq, h.mem_records]

lemma Coherent.exists_deleteQueue (h : Coherent hash s) (P : WalletCoinRecord → Prop) (k : Bytes32) :
    (∃ r ∈ deleteQueue s height, P r ∧ r.name hash = k) ↔
      ∃ r, s.coinRecord.get? k = some r ∧ r.confirmedBlockHeight > height ∧ P r := by
  constructor
  · rintro ⟨r, hr, hP, rfl⟩
    exact ⟨r, (h.mem_deleteQueue.mp hr).1, (h.mem_deleteQueue.mp hr).2, hP⟩
  · rintro ⟨r, hr, hconfirmed, hP⟩
    obtain rfl := h.keyed k r hr
    exact ⟨r, h.mem_deleteQueue.mpr ⟨hr, hconfirmed⟩, hP, rfl⟩

lemma Coherent.rollbackToBlock (h : Coherent hash s) (hentries : HasEntries s height) :
    ∃ s', exec (WalletCoinStore.rollbackToBlock hash height) s = (.ok (), s') ∧ Coherent hash s' ∧
      s'.coinRecord = rollbackRows height s.coinRecord := by
  have hloop := @exec_rollbackLoop hash height (s.coinRecordCache.entries.map Prod.snd) [] s
  have hall : ∀ r ∈ s.coinRecordCache.entries.map Prod.snd, r.spentBlockHeight > height →
      (s.unspentCoinWalletCache.get? r.walletId).isSome = true := by
    intro r hr
    obtain ⟨e, he, rfl⟩ := mem_map.mp hr
    exact hentries e.1 e.2 (Dict.mem_entries.mp he)
  rw [if_pos hall] at hloop
  obtain ⟨hrows, hcache, hunspent⟩ := @passed_undone hash height _ s.coinRecordCache.nodup
    (fun _ he => h.name_of_mem he) s
  have hlookup : ∀ k, s.coinRecordCache.entries.lookup k = s.coinRecord.get? k := h.cached
  simp only [hlookup, h.cached] at hcache hunspent
  generalize (s.coinRecordCache.entries.map Prod.snd).foldl (undone hash height) s = t at *
  have hmem : ∀ r ∈ deleteQueue s height, ∃ r', t.coinRecordCache.get? (r.name hash) = some r' := by
    intro r hr
    rw [hcache, (h.mem_deleteQueue.mp hr).1]
    cases ((some r).filter fun r => decide (r.spentBlockHeight > height)).map WalletCoinRecord.unspend with
    | none => exact ⟨r, rfl⟩
    | some r' => exact ⟨r', rfl⟩
  have hnodup : ((deleteQueue s height).map (WalletCoinRecord.name hash)).Nodup :=
    h.nodup_names.sublist (filter_sublist.map _)
  obtain ⟨hrun, hrows', hcache', hunspent'⟩ := exec_deleteLoop hnodup hmem
  generalize (deleteQueue s height).foldl (dropped hash) t = t' at *
  rw [hrows] at hrows'
  have hdeleted : ∀ k, (∃ r ∈ deleteQueue s height, r.name hash = k) ↔
      ∃ r, s.coinRecord.get? k = some r ∧ r.confirmedBlockHeight > height := by
    simpa using h.exists_deleteQueue (fun _ => True)
  refine ⟨{ t' with coinRecord := rollbackRows height t'.coinRecord }, ?_,
    ⟨fun k r hr => ?_, fun k => ?_, fun w k => ?_⟩, ?_⟩
  · unfold WalletCoinStore.rollbackToBlock
    rw [exec_get_bind, exec_bind_of_ok hloop]
    change exec ((deleteQueue s height).forM (deleteRecord hash) >>= _) t = _
    rw [exec_bind_of_ok hrun, exec_modify]
  · rw [get?_rollbackRows, hrows'] at hr
    obtain ⟨r', hr', rfl⟩ := Option.map_eq_some_iff.mp hr
    rw [rolledBack_name]
    exact h.keyed k r' (Option.filter_eq_some_iff.mp hr').1
  · rw [get?_rollbackRows, hrows', hcache', hcache]
    simp only [hdeleted]
    cases s.coinRecord.get? k with
    | none => simp
    | some r =>
      by_cases hconfirmed : r.confirmedBlockHeight > height
      · simp [Option.filter_some, hconfirmed, Int.not_le.mpr hconfirmed]
      · by_cases hspent : r.spentBlockHeight > height
        · simp [Option.filter_some, hconfirmed, Int.not_lt.mp hconfirmed, rolledBack, hspent]
        · simp [Option.filter_some, hconfirmed, Int.not_lt.mp hconfirmed, rolledBack, hspent]
  · rw [get?_rollbackRows, hrows', hunspent', hunspent, h.unspent]
    simp only [h.exists_deleteQueue]
    cases s.coinRecord.get? k with
    | none => simp
    | some r =>
      by_cases hw : r.walletId = w
      · by_cases hconfirmed : r.confirmedBlockHeight > height
        · simp [Option.filter_some, hconfirmed, Int.not_le.mpr hconfirmed, hw]
        · by_cases hspent : r.spentBlockHeight > height
          · simp [Option.filter_some, hconfirmed, Int.not_lt.mp hconfirmed, rolledBack, hspent, hw,
              WalletCoinRecord.unspend]
          · simp [Option.filter_some, hconfirmed, Int.not_lt.mp hconfirmed, rolledBack, hspent, hw]
      have hid : (rolledBack height r).walletId = r.walletId := by
        unfold rolledBack
        split
        · rfl
        · rfl
      by_cases hconfirmed : r.confirmedBlockHeight > height
      · simp [Option.filter_some, hconfirmed, Int.not_le.mpr hconfirmed, hw]
      · simp [Option.filter_some, hconfirmed, Int.not_lt.mp hconfirmed, hid, hw]
  · exact congrArg (rollbackRows height) hrows'

/-- The fields of a record that do not change. -/
abbrev CoinInfo := Coin × Bool × WalletType × ℕ

variable {L : Ledger Bytes32 CoinInfo}

def coinInfo (r : WalletCoinRecord) : CoinInfo := (r.coin, r.coinbase, r.walletType, r.walletId)

def coinEntry (r : WalletCoinRecord) : Entry CoinInfo :=
  ⟨coinInfo r, r.confirmedBlockHeight, if r.spent then some r.spentBlockHeight else none⟩

def ledgerOf (rows : Dict Bytes32 WalletCoinRecord) : Ledger Bytes32 CoinInfo := fun k =>
  (rows.get? k).map coinEntry

def CoinOp.event (stdHash : Bytes → Bytes32) : CoinOp → Event Bytes32 CoinInfo
  | add record => .create record.confirmedBlockHeight (record.name stdHash) (coinInfo record)
  | setSpent coinName height => .spend height coinName

lemma CoinOp.event_height (o : CoinOp) : (o.event hash).height = o.height := by
  cases o with
  | add record => rfl
  | setSpent coinName height => rfl

lemma ledgerOf_set (rows : Dict Bytes32 WalletCoinRecord) (k : Bytes32) (r : WalletCoinRecord) :
    ledgerOf (rows.set k r) = Function.update (ledgerOf rows) k (some (coinEntry r)) := by
  funext k'
  unfold ledgerOf
  rw [Dict.get?_set]
  by_cases hk : k' = k
  · subst hk
    rw [if_pos rfl, Function.update_self]
    rfl
  · rw [if_neg hk, Function.update_of_ne hk]

lemma ledgerOf_rollbackRows (rows : Dict Bytes32 WalletCoinRecord) :
    ledgerOf (rollbackRows height rows) = Ledger.rollback height (ledgerOf rows) := by
  funext k
  unfold ledgerOf Ledger.rollback
  dsimp only
  rw [get?_rollbackRows]
  cases rows.get? k with
  | none => rfl
  | some r =>
    have hcreated : (coinEntry r).created = r.confirmedBlockHeight := rfl
    rw [Option.map_some]
    dsimp only
    rw [hcreated]
    by_cases hconfirmed : (r.confirmedBlockHeight : ℤ) ≤ height
    · unfold coinEntry rolledBack
      by_cases habove : (r.spentBlockHeight : ℤ) > height
      · cases hspent : r.spent with
        | true => simp [Option.filter_some, hconfirmed, habove, WalletCoinRecord.unspend, coinInfo]
        | false => simp [Option.filter_some, hconfirmed, habove, WalletCoinRecord.unspend, coinInfo]
      · have hle : (r.spentBlockHeight : ℤ) ≤ height := Int.not_lt.mp habove
        cases hspent : r.spent with
        | true => simp [Option.filter_some, hconfirmed, habove, hle, hspent]
        | false => simp [Option.filter_some, hconfirmed, habove, hspent]
    · simp [Option.filter_some, hconfirmed]

/-- A coin that is not spent has no height at which it was spent. -/
def Unmarked (rows : Dict Bytes32 WalletCoinRecord) : Prop :=
  ∀ k r, rows.get? k = some r → r.spent = false → r.spentBlockHeight = 0

lemma Unmarked.set (h : Unmarked rows) {k : Bytes32}
    (hr : r.spent = false → r.spentBlockHeight = 0) : Unmarked (rows.set k r) := by
  intro k' r' hr' hspent
  rw [Dict.get?_set] at hr'
  split at hr'
  · obtain rfl := Option.some.inj hr'
    exact hr hspent
  · exact h k' r' hr' hspent

lemma Unmarked.rollbackRows (h : Unmarked rows) : Unmarked (rollbackRows height rows) := by
  intro k r hr hspent
  rw [get?_rollbackRows] at hr
  obtain ⟨r', hr', rfl⟩ := Option.map_eq_some_iff.mp hr
  have hrow := (Option.filter_eq_some_iff.mp hr').1
  by_cases habove : (r'.spentBlockHeight : ℤ) > height
  · rw [rolledBack, if_pos habove]
    rfl
  · rw [rolledBack, if_neg habove] at hspent ⊢
    exact h k r' hrow hspent

lemma rows_eq_of_ledgerOf {rows' : Dict Bytes32 WalletCoinRecord} (h : Unmarked rows) (h' : Unmarked rows')
    (heq : ledgerOf rows = ledgerOf rows') (k : Bytes32) : rows.get? k = rows'.get? k := by
  have hk : (rows.get? k).map coinEntry = (rows'.get? k).map coinEntry := congrFun heq k
  cases hr : rows.get? k with
  | none =>
    rw [hr] at hk
    exact (Option.map_eq_none_iff.mp hk.symm).symm
  | some r =>
    rw [hr] at hk
    obtain ⟨r', hr', hentry⟩ := Option.map_eq_some_iff.mp hk.symm
    have hunmarked := h k r hr
    have hunmarked' := h' k r' hr'
    obtain ⟨coin, confirmed, spentHeight, spent, coinbase, type, id⟩ := r
    obtain ⟨coin', confirmed', spentHeight', spent', coinbase', type', id'⟩ := r'
    cases spent with
    | true =>
      cases spent' with
      | true => simp_all [coinEntry, coinInfo]
      | false => simp [coinEntry, coinInfo] at hentry
    | false =>
      cases spent' with
      | true => simp [coinEntry, coinInfo] at hentry
      | false => simp_all [coinEntry, coinInfo]

structure SameStore (s s' : WalletCoinStore) : Prop where
  coinRecord : ∀ k, s.coinRecord.get? k = s'.coinRecord.get? k
  coinRecordCache : ∀ k, s.coinRecordCache.get? k = s'.coinRecordCache.get? k
  unspent : ∀ w k, unspentOf s.unspentCoinWalletCache w k = unspentOf s'.unspentCoinWalletCache w k

lemma Coherent.sameStore (h : Coherent hash s) (h' : Coherent hash s')
    (heq : ∀ k, s.coinRecord.get? k = s'.coinRecord.get? k) : SameStore s s' where
  coinRecord := heq
  coinRecordCache k := by rw [h.cached, h'.cached, heq]
  unspent w k := by rw [h.unspent, h'.unspent, heq]

/-- A store whose table is what a history made of it. -/
structure Follows (stdHash : Bytes → Bytes32) (s : WalletCoinStore) (history : List CoinOp) : Prop where
  coherent : Coherent stdHash s
  unmarked : Unmarked s.coinRecord
  plain : ∀ o ∈ history, o.Plain
  replay : Ledger.replay (history.map (CoinOp.event stdHash)) Ledger.empty = some (ledgerOf s.coinRecord)

lemma Coherent.run (h : Coherent hash s) (hunmarked : Unmarked s.coinRecord)
    (ho : o.Regular hash s) : ∃ s', exec (o.run hash) s = (.ok (), s') ∧ Coherent hash s' ∧
      Unmarked s'.coinRecord ∧ Ledger.step (ledgerOf s.coinRecord) (o.event hash) = some (ledgerOf s'.coinRecord) := by
  cases o with
  | add record =>
    obtain ⟨hnone, hspent, hzero⟩ := ho
    obtain ⟨s', hrun, hcoherent, hrows⟩ := h.addCoinRecord record fun r hr => by
      rw [hnone] at hr
      cases hr
    refine ⟨s', hrun, hcoherent, hrows ▸ hunmarked.set fun _ => hzero, ?_⟩
    rw [hrows, ledgerOf_set]
    have hempty : ledgerOf s.coinRecord (record.name hash) = none := by
      unfold ledgerOf
      rw [hnone]
      rfl
    change Ledger.create _ _ _ = _
    unfold Ledger.create
    rw [hempty]
    simp [coinEntry, hspent]
  | setSpent coinName height =>
    obtain ⟨r, hr, hspent, hle⟩ := ho
    have hname : (r.spendAt height).name hash = coinName := h.keyed coinName r hr
    obtain ⟨s', hrun, hcoherent, hrows⟩ := h.addCoinRecord (r.spendAt height) fun r' hr' => by
      rw [hname, hr] at hr'
      obtain rfl := Option.some.inj hr'
      rfl
    have hget : WalletCoinStore.getCoinRecord s coinName = some r := by
      unfold WalletCoinStore.getCoinRecord
      rw [h.cached, hr]
      rfl
    refine ⟨s', ?_, hcoherent, hrows ▸ hunmarked.set fun hs => (by cases hs), ?_⟩
    · unfold CoinOp.run WalletCoinStore.setSpent
      simp only [exec_bind, exec_get, hget, assertSome, exec_lift, hrun, exec_pure]
    have hentry : ledgerOf s.coinRecord coinName = some ⟨coinInfo r, r.confirmedBlockHeight, none⟩ := by
      unfold ledgerOf
      rw [hr]
      simp [coinEntry, hspent]
    rw [hrows, ledgerOf_set, hname]
    exact Ledger.step_spend hentry hle

lemma regular_of_step (hplain : o.Plain)
    (hstep : Ledger.step (ledgerOf s.coinRecord) (o.event hash) = some L) : o.Regular hash s := by
  cases o with
  | add record =>
    obtain ⟨hnone, -⟩ := Ledger.create_eq_some
      (show Ledger.create _ (ledgerOf s.coinRecord) (record.name hash, coinInfo record) = some L from hstep)
    exact ⟨Option.map_eq_none_iff.mp hnone, hplain⟩
  | setSpent coinName height =>
    obtain ⟨v, created, hk, hle, -⟩ := Ledger.step_spend_eq_some hstep
    obtain ⟨r, hr, hentry⟩ := Option.map_eq_some_iff.mp hk
    have hspent : r.spent = false := by
      cases hs : r.spent with
      | false => rfl
      | true => simp [coinEntry, hs] at hentry
    obtain rfl : r.confirmedBlockHeight = created := congrArg Entry.created hentry
    exact ⟨r, hr, hspent, hle⟩

lemma Coherent.forM_run (h : Coherent hash s) (hunmarked : Unmarked s.coinRecord) (hplain : ∀ o ∈ history, o.Plain)
    (hreplay : Ledger.replay (history.map (CoinOp.event hash)) (ledgerOf s.coinRecord) = some L) :
    ∃ s', exec (history.forM (CoinOp.run hash)) s = (.ok (), s') ∧ Coherent hash s' ∧
      Unmarked s'.coinRecord ∧ ledgerOf s'.coinRecord = L := by
  induction history generalizing s with
  | nil =>
    cases hreplay
    exact ⟨s, rfl, h, hunmarked, rfl⟩
  | cons o history ih =>
    obtain ⟨L₁, hstep, hreplay⟩ := Option.bind_eq_some_iff.mp hreplay
    have hregular := regular_of_step (hplain o mem_cons_self) hstep
    obtain ⟨s₁, hrun, hcoherent, hunmarked', hstep'⟩ := h.run hunmarked hregular
    obtain rfl := Option.some.inj (hstep.symm.trans hstep')
    obtain ⟨s', hrest, hs'⟩ := ih hcoherent hunmarked' (fun o' ho' => hplain o' (mem_cons_of_mem o ho')) hreplay
    exact ⟨s', (exec_forM_cons _ _ _ _).trans ((exec_bind_of_ok hrun).trans hrest), hs'⟩

/-- A store that a wallet reaches, with the operations that were not rolled back. -/
inductive Reached (stdHash : Bytes → Bytes32) : WalletCoinStore → List CoinOp → Prop where
  | new : Reached stdHash .new []
  | op {s s' : WalletCoinStore} {history : List CoinOp} {o : CoinOp} (h : Reached stdHash s history)
      (hregular : o.Regular stdHash s) (hrun : exec (o.run stdHash) s = (.ok (), s')) :
      Reached stdHash s' (history ++ [o])
  | rollback {s s' : WalletCoinStore} {history : List CoinOp} {height : ℤ} (h : Reached stdHash s history)
      (hentries : HasEntries s height) (hrun : exec (WalletCoinStore.rollbackToBlock stdHash height) s = (.ok (), s')) :
      Reached stdHash s' (history.filter fun o => o.height ≤ height)
  | restart {s : WalletCoinStore} {history : List CoinOp} (h : Reached stdHash s history) :
      Reached stdHash (rebuildWalletCache stdHash s) history

lemma Follows.replay_filter (h : Follows hash s history) (height : ℤ) :
    Ledger.replay ((history.filter fun o => o.height ≤ height).map (CoinOp.event hash)) Ledger.empty =
      some (Ledger.rollback height (ledgerOf s.coinRecord)) := by
  have hfilter := Ledger.replay_filter (f := height) h.replay
  have hmap : (history.map (CoinOp.event hash)).filter (fun e => decide ((e.height : ℤ) ≤ height)) =
      (history.filter fun o => o.height ≤ height).map (CoinOp.event hash) := by
    rw [filter_map]
    congr 1
    exact filter_congr fun o _ => by simp [CoinOp.event_height]
  rw [hmap] at hfilter
  exact hfilter

lemma Reached.follows (h : Reached hash s history) : Follows hash s history := by
  induction h with
  | new => exact ⟨coherent_new, fun k r hr => (by cases hr), forall_mem_nil _, rfl⟩
  | op h hregular hrun ih =>
    obtain ⟨s₁, hrun', hcoherent, hunmarked, hstep⟩ := ih.coherent.run ih.unmarked hregular
    obtain rfl := (Prod.mk.inj (hrun.symm.trans hrun')).2
    refine ⟨hcoherent, hunmarked, ?_, ?_⟩
    · intro o ho
      rcases mem_append.mp ho with ho | ho
      · exact ih.plain o ho
      · obtain rfl := mem_singleton.mp ho
        cases o with
        | add record => exact hregular.2
        | setSpent coinName height => trivial
    · rw [map_append, Ledger.replay_append, ih.replay, Option.bind_some]
      unfold Ledger.replay
      rw [map_singleton, foldlM_cons, hstep]
      rfl
  | rollback h hentries hrun ih =>
    obtain ⟨s₁, hrun', hcoherent, hrows⟩ := ih.coherent.rollbackToBlock hentries
    obtain rfl := (Prod.mk.inj (hrun.symm.trans hrun')).2
    refine ⟨hcoherent, hrows ▸ ih.unmarked.rollbackRows, fun o ho => ih.plain o (mem_filter.mp ho).1, ?_⟩
    rw [hrows, ledgerOf_rollbackRows]
    exact ih.replay_filter _
  | restart h ih =>
    obtain ⟨hcoherent, hrows⟩ := ih.coherent.rebuildWalletCache
    exact ⟨hcoherent, hrows ▸ ih.unmarked, ih.plain, hrows ▸ ih.replay⟩

/-- A rollback returns exactly if each wallet that spent above the height has an entry, and leaves what a replay
leaves. -/
theorem coin_store_rolls_back {history : List CoinOp} (h : Reached hash s history) : Coherent hash s ∧ ∀ height : ℤ,
      ((exec (WalletCoinStore.rollbackToBlock hash height) s).1 = .ok () ↔ HasEntries s height) ∧
      ∀ s', exec (WalletCoinStore.rollbackToBlock hash height) s = (.ok (), s') → Coherent hash s' ∧
        ∃ replayed, exec ((history.filter fun o => o.height ≤ height).forM (CoinOp.run hash)) .new =
          (.ok (), replayed) ∧ SameStore s' replayed := by
  have hfollows := h.follows
  refine ⟨hfollows.coherent, fun height => ⟨⟨hasEntries_of_ok, fun hentries => ?_⟩, fun s' hrun => ?_⟩⟩
  · obtain ⟨s', hrun, -⟩ := hfollows.coherent.rollbackToBlock hentries
    rw [hrun]
  have hentries : HasEntries s height := hasEntries_of_ok (by rw [hrun])
  have hrolled := (Reached.rollback h hentries hrun).follows
  have hempty : ledgerOf (WalletCoinStore.new).coinRecord = Ledger.empty := rfl
  obtain ⟨replayed, hreplayed, hcoherent, hunmarked, hledger⟩ := coherent_new.forM_run
    (fun k r hr => (by cases hr)) hrolled.plain (hempty ▸ hrolled.replay)
  refine ⟨hrolled.coherent, replayed, hreplayed, hrolled.coherent.sameStore hcoherent ?_⟩
  exact rows_eq_of_ledgerOf hrolled.unmarked hunmarked hledger.symm

def plainHash (bs : Bytes) : Bytes32 := .ofNat 32 (beNat bs)

lemma five_lt_limit : 5 < 2 ^ 64 := by decide

def sampleRecord : WalletCoinRecord :=
  ⟨⟨.ofNat 32 1, .ofNat 32 2, 5, five_lt_limit⟩, 1, 0, false, false, .COLOURED_COIN, 2⟩

def receivedStore : WalletCoinStore := (exec (WalletCoinStore.addCoinRecord plainHash sampleRecord) .new).2

def spentStore : WalletCoinStore :=
  (exec ((CoinOp.setSpent (sampleRecord.name plainHash) 2).run plainHash) receivedStore).2

lemma reached_spentStore : Reached plainHash spentStore
    [.add sampleRecord, .setSpent (sampleRecord.name plainHash) 2] := by
  have hreceived : Reached plainHash receivedStore ([] ++ [.add sampleRecord]) := .op .new ⟨rfl, rfl, rfl⟩ rfl
  have hregular : (CoinOp.setSpent (sampleRecord.name plainHash) 2).Regular plainHash receivedStore :=
    ⟨sampleRecord, Dict.get?_set_self .empty _ _, rfl, by decide⟩
  obtain ⟨s', hrun, -⟩ := hreceived.follows.coherent.run hreceived.follows.unmarked hregular
  have hs' : exec ((CoinOp.setSpent (sampleRecord.name plainHash) 2).run plainHash) receivedStore =
      (.ok (), spentStore) := by
    unfold spentStore
    rw [hrun]
  exact .op hreceived hregular hs'

theorem coin_store_rolls_back_spent : (exec (WalletCoinStore.rollbackToBlock plainHash 1) spentStore).1 = .ok () ∧
    HasEntries spentStore 1 := by
  have hok : (exec (WalletCoinStore.rollbackToBlock plainHash 1) spentStore).1 = .ok () := by decide +kernel
  exact ⟨hok, ((coin_store_rolls_back reached_spentStore).2 1).1.mp hok⟩

/-- After a restart the wallet that spent its only coin has no entry, and the same rollback raises. -/
theorem rollback_raises_after_restart : Reached plainHash (rebuildWalletCache plainHash spentStore)
      [.add sampleRecord, .setSpent (sampleRecord.name plainHash) 2] ∧
    (exec (WalletCoinStore.rollbackToBlock plainHash 1) (rebuildWalletCache plainHash spentStore)).1 = .error .keyError :=
  ⟨.restart reached_spentStore, by decide +kernel⟩

def coinsOf (rs : List WalletCoinRecord) : Set Coin := {c | ∃ r ∈ rs, r.coin = c}

/-- The records confirmed and not spent up to a height. -/
def unspentThen (s : WalletCoinStore) (height : ℕ) : List WalletCoinRecord :=
  (s.coinRecordCache.entries.map Prod.snd).filter fun r =>
    r.confirmedBlockHeight ≤ height ∧ ¬(r.spent = true ∧ r.spentBlockHeight ≤ height)

lemma Coherent.mem_unspentThen (h : Coherent hash s) {height : ℕ} : r ∈ unspentThen s height ↔
    s.coinRecord.get? (r.name hash) = some r ∧ r.confirmedBlockHeight ≤ height ∧
      ¬(r.spent = true ∧ r.spentBlockHeight ≤ height) := by
  unfold unspentThen
  rw [mem_filter, h.mem_records, decide_eq_true_eq]

lemma Coherent.coinsOf_rollback (h : Coherent hash s) {height : ℕ}
    (hrun : exec (WalletCoinStore.rollbackToBlock hash height) s = (.ok (), s')) :
    coinsOf (unspentThen s height) = coinsOf (getUnspentCoinsAtHeight s' none) := by
  obtain ⟨s₁, hrun', hcoherent, hrows⟩ := h.rollbackToBlock (hasEntries_of_ok (by rw [hrun]))
  obtain rfl := (Prod.mk.inj (hrun.symm.trans hrun')).2
  have hmem : ∀ {r}, r ∈ getUnspentCoinsAtHeight s' none ↔
      (rollbackRows height s.coinRecord).get? (r.name hash) = some r ∧ r.spent = false := by
    intro r
    unfold getUnspentCoinsAtHeight
    rw [mem_filter, hcoherent.mem_records, hrows, decide_eq_true_eq]
  ext c
  constructor
  · rintro ⟨r, hr, rfl⟩
    obtain ⟨hrow, hconfirmed, hspent⟩ := h.mem_unspentThen.mp hr
    refine ⟨rolledBack height r, hmem.mpr ⟨?_, ?_⟩, ?_⟩
    · rw [rolledBack_name, get?_rollbackRows, hrow]
      simp [Option.filter_some, hconfirmed]
    · unfold rolledBack
      split
      · rfl
      · simpa using fun hs => hspent ⟨hs, by omega⟩
    · unfold rolledBack
      split
      · rfl
      · rfl
  · rintro ⟨r', hr', rfl⟩
    obtain ⟨hrow, hspent⟩ := hmem.mp hr'
    rw [get?_rollbackRows] at hrow
    obtain ⟨r, hr, rfl⟩ := Option.map_eq_some_iff.mp hrow
    obtain ⟨hr, hconfirmed⟩ := Option.filter_eq_some_iff.mp hr
    rw [rolledBack_name] at hr
    refine ⟨r, h.mem_unspentThen.mpr ⟨hr, by simpa using hconfirmed, ?_⟩, ?_⟩
    · rintro ⟨hs, hle⟩
      rw [rolledBack, if_neg (by omega), hs] at hspent
      cases hspent
    · unfold rolledBack
      split
      · rfl
      · rfl

/-- The coins listed for a height are right exactly if no unspent coin was confirmed later. -/
theorem unspent_at_height_iff {history : List CoinOp} (h : Reached hash s history) (height : ℕ) :
    (coinsOf (getUnspentCoinsAtHeight s (some height)) = coinsOf (unspentThen s height) ∧
      ∀ s', exec (WalletCoinStore.rollbackToBlock hash height) s = (.ok (), s') →
        coinsOf (getUnspentCoinsAtHeight s (some height)) = coinsOf (getUnspentCoinsAtHeight s' none)) ↔
    ∀ r ∈ getUnspentCoinsAtHeight s none, r.confirmedBlockHeight ≤ height := by
  have hcoherent := h.follows.coherent
  constructor
  · rintro ⟨heq, -⟩ r hr
    obtain ⟨hr, hspent⟩ := mem_filter.mp hr
    have hspent' : r.spent = false := by simpa using hspent
    have hlisted : r.coin ∈ coinsOf (getUnspentCoinsAtHeight s (some height)) :=
      ⟨r, mem_filter.mpr ⟨hr, by simp [hspent']⟩, rfl⟩
    obtain ⟨r', hr', hcoin⟩ := heq ▸ hlisted
    obtain ⟨hrow, hconfirmed, -⟩ := hcoherent.mem_unspentThen.mp hr'
    have hname : r'.name hash = r.name hash := congrArg (Coin.name hash) hcoin
    rw [hname, hcoherent.mem_records.mp hr] at hrow
    obtain rfl := Option.some.inj hrow
    exact hconfirmed
  · intro hconfirmed
    have heq : getUnspentCoinsAtHeight s (some height) = unspentThen s height := by
      refine filter_congr fun r hr => ?_
      cases hspent : r.spent with
      | true => simp [and_comm]
      | false =>
        have := hconfirmed r (mem_filter.mpr ⟨hr, by simpa using hspent⟩)
        simp [this]
    exact ⟨congrArg coinsOf heq, fun s' hrun => heq ▸ hcoherent.coinsOf_rollback hrun⟩

theorem unspent_at_height_iff_spent : coinsOf (getUnspentCoinsAtHeight spentStore (some 1)) =
    coinsOf (unspentThen spentStore 1) :=
  ((unspent_at_height_iff reached_spentStore 1).mpr (by decide +kernel)).1

/-- A coin confirmed at height 1 is listed for height 0. -/
theorem unspent_at_height_unconfirmed : Reached plainHash receivedStore [.add sampleRecord] ∧
    sampleRecord ∈ getUnspentCoinsAtHeight receivedStore (some 0) ∧ sampleRecord.confirmedBlockHeight = 1 ∧
    (exec (WalletCoinStore.rollbackToBlock plainHash 0) receivedStore).1 = .ok () ∧
    getUnspentCoinsAtHeight (exec (WalletCoinStore.rollbackToBlock plainHash 0) receivedStore).2 none = [] :=
  ⟨.op .new ⟨rfl, rfl, rfl⟩ rfl, by decide +kernel⟩

end SectorChain.Proofs.WalletCoins
