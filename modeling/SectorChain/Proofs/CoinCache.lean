import SectorChain.Proofs.MempoolRuns

/-!
# The cache of the coin store

As long as every call returns, the cache holds nothing but rows.
-/

namespace SectorChain.Proofs

open Lib List

variable {env : Env} {s s' : Node}

/-- Rows are stored under the names of their coins, and cached records are rows. -/
structure Coherent (env : Env) (s : Node) : Prop where
  names : ∀ k r, s.db.coinRecord.get? k = some r → r.coin.name env.stdHash = k
  cache : s.coinRecordCache.Within s.db.coinRecord.get?

lemma exec_update_ok {f : Database → Except PyError Database} {a : Unit} (h : exec (Node.update f) s = (.ok a, s')) :
    f s.db = .ok s'.db ∧ s'.coinRecordCache = s.coinRecordCache := by
  unfold Node.update Node.statement at h
  rw [exec_mk] at h
  obtain ⟨db, saved, faults, cc, bc, ph, br, hc, hh, ses⟩ := s
  cases hf : f db with
  | ok db' =>
    rcases faults with _ | ⟨_ | fault, faults⟩
    all_goals simp only [hf] at h; cases h
    all_goals exact ⟨rfl, rfl⟩
  | error e =>
    rcases faults with _ | ⟨_ | fault, faults⟩
    all_goals simp only [hf] at h; cases h

lemma exec_coinCacheEvict (s : Node) (name : Bytes32) :
    ∃ cache, exec (coinCacheEvict name) s = (.ok (), { s with coinRecordCache := cache }) ∧
      ∀ k, cache.peek k = if k = name then none else s.coinRecordCache.peek k := by
  unfold coinCacheEvict
  have hget : exec (coinCacheGet name) s = (.ok (s.coinRecordCache.peek name),
      { s with coinRecordCache := (s.coinRecordCache.get name).2 }) := by
    unfold coinCacheGet
    rw [exec_mk, ← LruCache.get_fst]
  rw [exec_bind_of_ok hget]
  cases hname : s.coinRecordCache.peek name with
  | none =>
    refine ⟨_, rfl, fun k => ?_⟩
    rw [LruCache.peek_get]
    split
    · rename_i hk
      rw [hk, hname]
    · rfl
  | some r =>
    rw [Option.isSome_some, if_pos rfl]
    unfold coinCacheRemove
    rw [exec_mk]
    rw [LruCache.peek_get, hname]
    refine ⟨_, rfl, fun k => ?_⟩
    rw [LruCache.peek_remove, LruCache.peek_get]

lemma preserves_getCoinRecord (k : Bytes32) : Preserves (Coherent env) (getCoinRecord env k) := by
  intro s a s' hs h
  obtain ⟨r, cache, faults, hrun, -, hcache, -⟩ := getCoinRecord_cases env k s
  rw [hrun] at h
  obtain ⟨-, rfl⟩ := Prod.mk.inj h
  refine ⟨hs.names, fun k' c hc => ?_⟩
  rcases hcache k' c hc with hold | ⟨rfl, hrow, -⟩
  · exact hs.cache k' c hold
  · change s.db.coinRecord.get? (c.coin.name env.stdHash) = some c
    rw [hs.names k c hrow]
    exact hrow

lemma exec_addCoinRecord_ok {record : CoinRecord} {allowReplace : Bool} {a : Unit}
    (h : exec (addCoinRecord env record allowReplace) s = (.ok a, s')) :
    s'.db.coinRecord = s.db.coinRecord.set (record.coin.name env.stdHash) record ∧
      (∀ k, s'.coinRecordCache.peek k =
        if k = record.coin.name env.stdHash then none else s.coinRecordCache.peek k) ∧
      (allowReplace = false → s.db.coinRecord.get? (record.coin.name env.stdHash) = none) := by
  unfold addCoinRecord at h
  obtain ⟨cache, hevict, hpeek⟩ := exec_coinCacheEvict s (record.coin.name env.stdHash)
  rw [exec_bind_of_ok hevict] at h
  obtain ⟨hinsert, hcache⟩ := exec_update_ok h
  unfold insertCoinRecord at hinsert
  split at hinsert
  · cases hinsert
  · rename_i hnew
    refine ⟨by rw [← Except.ok.inj hinsert], fun k => by rw [hcache]; exact hpeek k, fun hreplace => ?_⟩
    simpa [hreplace, Dict.contains] using hnew

lemma preserves_addCoinRecord (record : CoinRecord) (allowReplace : Bool) :
    Preserves (Coherent env) (addCoinRecord env record allowReplace) := by
  intro s a s' hs h
  obtain ⟨hrows, hcache, -⟩ := exec_addCoinRecord_ok h
  constructor
  · intro k r hr
    rw [hrows, Dict.get?_set] at hr
    split at hr
    · rename_i hk
      cases hr
      exact hk.symm
    · exact hs.names k r hr
  · intro k c hc
    rw [hcache] at hc
    split at hc
    · cases hc
    · rename_i hk
      rw [hrows, Dict.get?_set_of_ne _ _ hk]
      exact hs.cache k c hc

lemma preserves_setSpent (k : Bytes32) (index : ℕ) : Preserves (Coherent env) (setSpent env k index) := by
  refine preserves_bind (preserves_getCoinRecord k) fun r => ?_
  cases r with
  | none => exact preserves_throw _
  | some current =>
    refine preserves_bind (preserves_lift _) fun _ => ?_
    exact preserves_bind (preserves_addCoinRecord _ _) fun _ => preserves_pure _

/-- What the new records and the spends of a block preserve, the block preserves. -/
lemma preserves_newBlock {P : Node → Prop} {block : FullBlock}
    (hadd : ∀ timestamp coinbase coin, Preserves P (addCoinRecord env (newCoinRecord block timestamp coinbase coin) false))
    (hspend : ∀ k, Preserves P (setSpent env k block.height)) (txAdditions : List Coin) (txRemovals : List Bytes32) :
    Preserves P (newBlock env block txAdditions txRemovals) := by
  unfold newBlock
  cases block.foliageTransactionBlock with
  | none => exact preserves_pure _
  | some foliageTransactionBlock =>
    refine preserves_bind (preserves_forM fun coin => hadd _ _ coin) fun _ => ?_
    refine preserves_bind (preserves_lift _) fun includedRewardCoins => ?_
    refine preserves_bind (preserves_lift _) fun _ => ?_
    refine preserves_bind (preserves_forM fun coin => hadd _ _ coin) fun _ => ?_
    refine preserves_bind (preserves_foldlM (fun total k => ?_) 0) fun totalAmountSpent => preserves_lift _
    exact preserves_bind (hspend k) fun amount => preserves_pure _

variable (index : ℤ) (blockIndex : ℤ)

/-- The record of a coin after a rollback, if the coin stays. -/
def patch (r : CoinRecord) : CoinRecord :=
  if r.spentBlockIndex > blockIndex then r.unspend else r

lemma patch_coin (r : CoinRecord) : (patch index r).coin = r.coin := by
  unfold patch
  split <;> rfl

def rolledBack (r : Option CoinRecord) : Option CoinRecord :=
  (r.filter fun r => r.confirmedBlockIndex ≤ blockIndex).map (patch blockIndex)

/-- A loop over records of the cache each step of which replaces the entry of its own key. -/
lemma exec_forM_cached {action : Bytes32 × CoinRecord → NodeM Unit}
    {before after : Bytes32 × CoinRecord → Option CoinRecord} {items : List (Bytes32 × CoinRecord)}
    (hnodup : (items.map Prod.fst).Nodup) (hbefore : ∀ e ∈ items, s.coinRecordCache.peek e.1 = before e)
    (hstep : ∀ e ∈ items, ∀ s : Node, s.coinRecordCache.peek e.1 = before e →
      ∃ cache, exec (action e) s = (.ok (), { s with coinRecordCache := cache }) ∧
        ∀ k, cache.peek k = if k = e.1 then after e else s.coinRecordCache.peek k) :
    ∃ cache, exec (items.forM action) s = (.ok (), { s with coinRecordCache := cache }) ∧
      (∀ e ∈ items, cache.peek e.1 = after e) ∧
      ∀ k, k ∉ items.map Prod.fst → cache.peek k = s.coinRecordCache.peek k := by
  induction items generalizing s with
  | nil => exact ⟨s.coinRecordCache, rfl, fun e he => absurd he not_mem_nil, fun _ _ => rfl⟩
  | cons e items ih =>
    rw [map_cons, nodup_cons] at hnodup
    have hne : ∀ e' ∈ items, e'.1 ≠ e.1 := fun e' he' heq => hnodup.1 (heq ▸ mem_map_of_mem he')
    obtain ⟨hbefore_e, hbefore⟩ := forall_mem_cons.mp hbefore
    obtain ⟨hstep_e, hstep⟩ := forall_mem_cons.mp hstep
    obtain ⟨cache₁, hrun₁, hpeek₁⟩ := hstep_e s hbefore_e
    obtain ⟨cache, hrun, hitems, hother⟩ := ih (s := { s with coinRecordCache := cache₁ }) hnodup.2
      (fun e' he' => (hpeek₁ e'.1).trans ((if_neg (hne e' he')).trans (hbefore e' he'))) hstep
    refine ⟨cache, ?_, forall_mem_cons.mpr ⟨?_, hitems⟩, fun k hk => ?_⟩
    · rw [exec_forM_cons, exec_bind_of_ok hrun₁, hrun]
    · rw [hother e.1 hnodup.1, hpeek₁, if_pos rfl]
    · rw [map_cons, mem_cons, not_or] at hk
      rw [hother k hk.2, hpeek₁, if_neg hk.1]

lemma exec_unspendCached (e : Bytes32 × CoinRecord) (s : Node) (hname : e.2.coin.name env.stdHash = e.1)
    (hitem : s.coinRecordCache.peek e.1 = some e.2) :
    ∃ cache, exec (if e.2.spentBlockIndex > index then coinCachePut (e.2.coin.name env.stdHash) e.2.unspend
        else pure ()) s = (.ok (), { s with coinRecordCache := cache }) ∧
      ∀ k, cache.peek k = if k = e.1 then some (patch index e.2) else s.coinRecordCache.peek k := by
  unfold patch
  split
  · refine ⟨s.coinRecordCache.put (e.2.coin.name env.stdHash) e.2.unspend, rfl, ?_⟩
    rw [hname]
    exact LruCache.peek_put_of_mem _ hitem
  refine ⟨s.coinRecordCache, rfl, fun k => ?_⟩
  split
  · rename_i hk
    rw [hk, hitem]
  · rfl

lemma exec_removeCached {key : Bytes32} {record : CoinRecord} (s : Node)
    (hitem : s.coinRecordCache.peek key = some record) :
    ∃ cache, exec (coinCacheRemove key) s = (.ok (), { s with coinRecordCache := cache }) ∧
      ∀ k, cache.peek k = if k = key then none else s.coinRecordCache.peek k := by
  refine ⟨s.coinRecordCache.remove key, ?_, fun k => LruCache.peek_remove _ _ k⟩
  unfold coinCacheRemove
  rw [exec_mk, hitem]

/-- The part of `rollbackToBlock` after the cache was patched. -/
def rollbackTable : NodeM Unit := do
  Node.update fun db => .ok (deleteConfirmedAbove blockIndex db)
  Node.update fun db => .ok (unspendAbove blockIndex db)

lemma exec_rollbackToBlock (hname : ∀ k r, s.coinRecordCache.peek k = some r → r.coin.name env.stdHash = k) :
    ∃ cache, exec (rollbackToBlock env index) s = exec (rollbackTable index) { s with coinRecordCache := cache } ∧
      ∀ k, cache.peek k = rolledBack index (s.coinRecordCache.peek k) := by
  set items := s.coinRecordCache.cache.entries with hitems
  have hmem : ∀ e, e ∈ items ↔ s.coinRecordCache.peek e.1 = some e.2 := fun e => Dict.mem_entries
  have hnodup : (items.map Prod.fst).Nodup := s.coinRecordCache.cache.nodup
  obtain ⟨cache₁, hrun₁, hpatched, hother₁⟩ := exec_forM_cached hnodup (fun e he => (hmem e).mp he)
    fun e he s hitem => exec_unspendCached index e s (hname e.1 e.2 ((hmem e).mp he)) hitem
  have hkept : ((items.filter fun e => e.2.confirmedBlockIndex > index).map Prod.fst).Nodup :=
    hnodup.sublist (filter_sublist.map Prod.fst)
  obtain ⟨cache₂, hrun₂, hremoved, hother₂⟩ := exec_forM_cached (s := { s with coinRecordCache := cache₁ }) hkept
    (fun e he => hpatched e (mem_of_mem_filter he)) fun e _ s hitem => exec_removeCached s hitem
  refine ⟨cache₂, ?_, fun k => ?_⟩
  · unfold rollbackToBlock
    rw [exec_get_bind, exec_bind_of_ok hrun₁, exec_bind_of_ok hrun₂]
    rfl
  cases hk : s.coinRecordCache.peek k with
  | none =>
    have hkey : k ∉ items.map Prod.fst := by
      intro hkey
      obtain ⟨e, he, rfl⟩ := mem_map.mp hkey
      rw [(hmem e).mp he] at hk
      cases hk
    rw [hother₂ k fun h => hkey ((filter_sublist.map Prod.fst).subset h)]
    exact (hother₁ k hkey).trans hk
  | some r =>
    have hkr : (k, r) ∈ items := (hmem (k, r)).mpr hk
    unfold rolledBack
    rw [Option.filter_some]
    split
    · rename_i hlow
      rw [hother₂ k]
      · exact hpatched (k, r) hkr
      · intro hkey
        obtain ⟨e, he, rfl⟩ := mem_map.mp hkey
        obtain ⟨he, hhigh⟩ := mem_filter.mp he
        obtain rfl := Option.some.inj (((hmem e).mp he).symm.trans hk)
        exact absurd (of_decide_eq_true hlow) (of_decide_eq_true hhigh).not_ge
    · rename_i hhigh
      exact hremoved (k, r) (mem_filter.mpr ⟨hkr, decide_eq_true (lt_of_not_ge fun h => hhigh (decide_eq_true h))⟩)

lemma rollbackToBlock_ok {a : Unit} (hs : Coherent env s) (h : exec (rollbackToBlock env index) s = (.ok a, s'))
    (k : Bytes32) : s'.db.coinRecord.get? k = rolledBack index (s.db.coinRecord.get? k) ∧
      s'.coinRecordCache.peek k = rolledBack index (s.coinRecordCache.peek k) := by
  obtain ⟨cache, hrun, hpeek⟩ := exec_rollbackToBlock index fun k r hr => hs.names k r (hs.cache k r hr)
  rw [hrun] at h
  obtain ⟨_, s₁, hdelete, hunspend⟩ := exec_bind_ok.mp h
  obtain ⟨hdb₁, hcache₁⟩ := exec_update_ok hdelete
  obtain ⟨hdb₂, hcache₂⟩ := exec_update_ok hunspend
  rw [hcache₂, hcache₁, ← Except.ok.inj hdb₂, ← Except.ok.inj hdb₁]
  exact ⟨(Dict.get?_mapVals _ _ _).trans (congrArg _ (Dict.get?_filter _ _ _)), hpeek k⟩

lemma preserves_rollbackToBlock : Preserves (Coherent env) (rollbackToBlock env index) := by
  intro s a s' hs h
  constructor
  · intro k r hr
    rw [(rollbackToBlock_ok index hs h k).1] at hr
    obtain ⟨r₀, hfilter, rfl⟩ := Option.map_eq_some_iff.mp hr
    rw [patch_coin]
    exact hs.names k r₀ (Option.filter_eq_some_iff.mp hfilter).1
  intro k c hc
  rw [(rollbackToBlock_ok index hs h k).2] at hc
  obtain ⟨c₀, hfilter, rfl⟩ := Option.map_eq_some_iff.mp hc
  obtain ⟨hcached, hlow⟩ := Option.filter_eq_some_iff.mp hfilter
  rw [(rollbackToBlock_ok index hs h k).1, hs.cache k c₀ hcached]
  exact Option.map_eq_some_iff.mpr ⟨c₀, Option.filter_eq_some_iff.mpr ⟨rfl, hlow⟩, rfl⟩

/-- A call on the coin store. -/
inductive StoreCall where
  | newBlock (block : FullBlock) (txAdditions : List Coin) (txRemovals : List Bytes32)
  | rollbackToBlock (blockIndex : ℤ)
  | getCoinRecord (coinName : Bytes32)

def StoreCall.run (env : Env) : StoreCall → NodeM Unit
  | .newBlock block txAdditions txRemovals => SectorChain.newBlock env block txAdditions txRemovals
  | .rollbackToBlock blockIndex => SectorChain.rollbackToBlock env blockIndex
  | .getCoinRecord coinName => do let _ ← SectorChain.getCoinRecord env coinName

/-- Calls one after the other, all of which return. -/
inductive StoreRun (env : Env) : Node → Node → Prop where
  | start (s : Node) : StoreRun env s s
  | call (c : StoreCall) (s s₁ s' : Node) : StoreRun env s s₁ → exec (c.run env) s₁ = (.ok (), s') → StoreRun env s s'

lemma StoreCall.preserves (c : StoreCall) : Preserves (Coherent env) (c.run env) := by
  cases c with
  | newBlock block txAdditions txRemovals =>
    exact preserves_newBlock (fun _ _ _ => preserves_addCoinRecord _ _) (fun k => preserves_setSpent k _) _ _
  | rollbackToBlock index => exact preserves_rollbackToBlock index
  | getCoinRecord coinName => exact preserves_bind (preserves_getCoinRecord coinName) fun _ => preserves_pure _

lemma StoreRun.coherent (h : StoreRun env s s') (hs : Coherent env s) : Coherent env s' := by
  induction h with
  | start s => exact hs
  | call c s s₁ s' _ hcall ih => exact c.preserves s₁ () s' (ih hs) hcall

/-- After any calls on a store that started with an empty cache, a coin is looked up as its row. -/
theorem coin_cache_transparent (env : Env) (capacity : ℕ) (s₀ s s' : Node) (hcache : s₀.coinRecordCache = .new capacity)
    (hnames : ∀ k r, s₀.db.coinRecord.get? k = some r → r.coin.name env.stdHash = k) (hrun : StoreRun env s₀ s)
    (coinName : Bytes32) (record : Option CoinRecord) (h : exec (getCoinRecord env coinName) s = (.ok record, s')) :
    record = s.db.coinRecord.get? coinName := by
  have hs : Coherent env s := hrun.coherent ⟨hnames, hcache ▸ LruCache.within_new capacity _⟩
  obtain ⟨r, cache, faults, hget, -, -, hok⟩ := getCoinRecord_cases env coinName s
  rw [hget] at h
  obtain ⟨rfl, -⟩ := Prod.mk.inj h
  rw [hok record rfl]
  cases hcached : s.coinRecordCache.peek coinName with
  | none => rfl
  | some c => exact (hs.cache coinName c hcached).symm

def readNode : Node :=
  (exec (StoreCall.run (sampleEnv fun _ _ => none) (.getCoinRecord (sampleCoin.name sampleHash))) sampleNode).2

def rewoundNode : Node := (exec (StoreCall.run (sampleEnv fun _ _ => none) (.rollbackToBlock (-1))) readNode).2

/-- The lookup fills the cache, and the rollback empties it. -/
theorem coin_cache_transparent_rewound : (readNode.coinRecordCache.peek (sampleCoin.name sampleHash)).isSome ∧
      none = rewoundNode.db.coinRecord.get? (sampleCoin.name sampleHash) := by
  have hruns : (exec (StoreCall.run (sampleEnv fun _ _ => none)
          (.getCoinRecord (sampleCoin.name sampleHash))) sampleNode).1 = .ok () ∧
      (exec (StoreCall.run (sampleEnv fun _ _ => none) (.rollbackToBlock (-1))) readNode).1 = .ok () ∧
      (exec (getCoinRecord (sampleEnv fun _ _ => none) (sampleCoin.name sampleHash)) rewoundNode).1 = .ok none ∧
      (readNode.coinRecordCache.peek (sampleCoin.name sampleHash)).isSome := by
    decide +kernel
  obtain ⟨hread, hrewound, hget, hcached⟩ := hruns
  have hrun : StoreRun (sampleEnv fun _ _ => none) sampleNode rewoundNode :=
    .call _ _ readNode _ (.call _ _ sampleNode _ (.start sampleNode) (exec_eq_of_fst hread)) (exec_eq_of_fst hrewound)
  exact ⟨hcached, coin_cache_transparent (sampleEnv fun _ _ => none) 100 sampleNode rewoundNode _ rfl
    (fun k r hr => (get?_nodeWith hr).2) hrun _ none (exec_eq_of_fst hget)⟩

variable {index} {record : CoinRecord} {table : Dict Bytes32 CoinRecord}

/-- A rollback of the store to the height leaves the table. -/
structure RestoredBy (env : Env) (index : ℤ) (table : Dict Bytes32 CoinRecord) (s : Node) : Prop where
  coherent : Coherent env s
  unspent : ∀ {k r}, s.db.coinRecord.get? k = some r → r.spent = false → r.spentBlockIndex = 0
  back : ∀ k, rolledBack index (s.db.coinRecord.get? k) = table.get? k

lemma RestoredBy.add (hs : RestoredBy env index table s) {allowReplace : Bool} {a : Unit}
    (h : exec (addCoinRecord env record allowReplace) s = (.ok a, s'))
    (hunspent : record.spent = false → record.spentBlockIndex = 0)
    (hback : rolledBack index (some record) = rolledBack index (s.db.coinRecord.get? (record.coin.name env.stdHash))) :
    RestoredBy env index table s' := by
  refine ⟨preserves_addCoinRecord _ _ s a s' hs.coherent h, fun {k r} hr => ?_, fun k => ?_⟩
  · rw [(exec_addCoinRecord_ok h).1, Dict.get?_set] at hr
    split at hr
    · cases hr
      exact hunspent
    · exact hs.unspent hr
  · rw [(exec_addCoinRecord_ok h).1, Dict.get?_set]
    split
    · rename_i hk
      rw [hback, hk, hs.back]
    · exact hs.back k

lemma patch_spentAt {height : ℕ} (h : index < height) {r : CoinRecord} (hspent : r.spent = false)
    (hzero : r.spentBlockIndex = 0) : patch index { r with spentBlockIndex := height, spent := true } = patch index r := by
  have hr : r.unspend = r := by
    cases r
    simp_all [CoinRecord.unspend]
  unfold patch
  rw [if_pos h, hr, ite_self]
  exact hr

lemma RestoredBy.getCoinRecord (hs : RestoredBy env index table s) {k : Bytes32} {r : Option CoinRecord}
    (h : exec (getCoinRecord env k) s = (.ok r, s')) : RestoredBy env index table s' ∧ r = s'.db.coinRecord.get? k := by
  have hcoherent := preserves_getCoinRecord k s r s' hs.coherent h
  obtain ⟨r', cache, faults, hrun, -, -, hr⟩ := getCoinRecord_cases env k s
  obtain ⟨rfl, rfl⟩ := Prod.mk.inj (hrun.symm.trans h)
  refine ⟨⟨hcoherent, hs.unspent, hs.back⟩, (hr r rfl).trans ?_⟩
  cases hcached : s.coinRecordCache.peek k with
  | none => rfl
  | some c => exact (hs.coherent.cache k c hcached).symm

/-- A rollback further back forgets the one before. -/
lemma rolledBack_rolledBack {other : ℤ} (h : index ≤ other) (r : Option CoinRecord) :
    rolledBack index (rolledBack other r) = rolledBack index r := by
  have hpatch : ∀ r, patch index (patch other r) = patch index r := by
    intro r
    unfold patch
    split
    · rename_i hspent
      rw [if_pos (lt_of_le_of_lt h hspent)]
      exact ite_self r.unspend
    · rfl
  cases r with
  | none => rfl
  | some r =>
    unfold rolledBack
    rw [Option.filter_some, Option.filter_some]
    split
    · rename_i hlow
      have hkeep : ((patch other r).confirmedBlockIndex : ℤ) = r.confirmedBlockIndex := by
        unfold patch
        split
        · rfl
        · rfl
      rw [Option.map_some, Option.filter_some, hkeep]
      split
      · exact congrArg some (hpatch r)
      · rfl
    · rename_i hhigh
      rw [if_neg fun hlow => hhigh (decide_eq_true ((of_decide_eq_true hlow).trans h))]
      rfl

section Above

variable {block : FullBlock} (hheight : index < block.height)
include hheight

lemma preserves_newCoin (timestamp : ℕ) (coinbase : Bool) (coin : Coin) :
    Preserves (RestoredBy env index table) (addCoinRecord env (newCoinRecord block timestamp coinbase coin) false) := by
  intro s a s' hs h
  refine hs.add h (fun _ => rfl) ?_
  rw [(exec_addCoinRecord_ok h).2.2 rfl, rolledBack, Option.filter_some, if_neg]
  · rfl
  · exact fun hle => hheight.not_ge (decide_eq_true_iff.mp hle)

lemma preserves_setSpent_above (k : Bytes32) : Preserves (RestoredBy env index table) (setSpent env k block.height) := by
  intro s amount s' hs h
  obtain ⟨r, s₁, hget, h⟩ := exec_bind_ok.mp h
  obtain ⟨hs₁, hr⟩ := hs.getCoinRecord hget
  cases r with
  | none => cases h
  | some current =>
    obtain ⟨_, s₂, hassert, h⟩ := exec_bind_ok.mp h
    obtain ⟨_, s₃, hadd, hreturn⟩ := exec_bind_ok.mp h
    cases hreturn
    obtain ⟨hunspent, rfl⟩ := exec_lift_eq.mp hassert
    have hspent : current.spent = false := (Bool.not_eq_true' _).mp (pyAssert_ok.mp hunspent)
    refine hs₁.add hadd (fun h => Bool.noConfusion h) ?_
    have hname := hs₁.coherent.names k current hr.symm
    dsimp only
    rw [hname, ← hr]
    unfold rolledBack
    simp only [Option.filter_some]
    split
    · exact congrArg some (patch_spentAt hheight hspent (hs₁.unspent hr.symm hspent))
    · rfl

end Above

/-- The calls that leave alone what was there at the height. -/
def StoreCall.Above (index : ℤ) : StoreCall → Prop
  | .newBlock block _ _ => index < block.height
  | .rollbackToBlock blockIndex => index ≤ blockIndex
  | .getCoinRecord _ => True

lemma StoreCall.Above.preserves {c : StoreCall} (hc : c.Above index) :
    Preserves (RestoredBy env index table) (c.run env) := by
  cases c with
  | newBlock block txAdditions txRemovals =>
    exact preserves_newBlock (preserves_newCoin hc) (preserves_setSpent_above hc) txAdditions txRemovals
  | rollbackToBlock other =>
    intro s a s' hs h
    have hrows := fun k => (rollbackToBlock_ok other hs.coherent h k).1
    refine ⟨preserves_rollbackToBlock other s a s' hs.coherent h, fun {k r} hr => ?_, fun k => ?_⟩
    · rw [hrows] at hr
      obtain ⟨r₀, hfilter, rfl⟩ := Option.map_eq_some_iff.mp hr
      have hzero := hs.unspent (Option.filter_eq_some_iff.mp hfilter).1
      unfold patch
      split
      · exact fun _ => rfl
      · exact hzero
    · rw [hrows, rolledBack_rolledBack hc, hs.back]
  | getCoinRecord coinName =>
    intro s a s' hs h
    obtain ⟨r, s₁, hget, hreturn⟩ := exec_bind_ok.mp h
    cases hreturn
    exact (hs.getCoinRecord hget).1

lemma RestoredBy.run (hs : RestoredBy env index table s) {calls : List StoreCall} (hcalls : ∀ c ∈ calls, c.Above index)
    (hrun : exec (calls.forM (StoreCall.run env)) s = (.ok (), s')) : RestoredBy env index table s' := by
  induction calls generalizing s with
  | nil =>
    cases hrun
    exact hs
  | cons c calls ih =>
    obtain ⟨_, s₁, hcall, hrun⟩ := exec_bind_ok.mp hrun
    exact ih ((hcalls c mem_cons_self).preserves s () s₁ hs hcall) (fun c hc => hcalls c (mem_cons_of_mem _ hc)) hrun

/-- However many blocks were added above a height, and whatever was rolled back in between, a rollback to
the height leaves the table as it was. -/
theorem rollback_restores_coins (env : Env) (index : ℤ) (s₀ s s' : Node) (hs₀ : Coherent env s₀)
    (hrows : ∀ k r, s₀.db.coinRecord.get? k = some r → r.confirmedBlockIndex ≤ index ∧ r.spentBlockIndex ≤ index ∧
      (r.spent = false → r.spentBlockIndex = 0)) (calls : List StoreCall) (hcalls : ∀ c ∈ calls, c.Above index)
    (hrun : exec (calls.forM (StoreCall.run env)) s₀ = (.ok (), s))
    (hback : exec (rollbackToBlock env index) s = (.ok (), s')) (k : Bytes32) :
    s'.db.coinRecord.get? k = s₀.db.coinRecord.get? k := by
  have hstart : RestoredBy env index s₀.db.coinRecord s₀ := by
    refine ⟨hs₀, fun hr => (hrows _ _ hr).2.2, fun k => ?_⟩
    cases hr : s₀.db.coinRecord.get? k with
    | none => rfl
    | some r =>
      obtain ⟨hconfirmed, hspent, -⟩ := hrows k r hr
      rw [rolledBack, Option.filter_some, if_pos (decide_eq_true hconfirmed), Option.map_some, patch,
        if_neg hspent.not_gt]
  have hend := hstart.run hcalls hrun
  rw [(rollbackToBlock_ok index hend.coherent hback k).1, hend.back]

/-- The block spends the first of the two coins. -/
def spendingCall : StoreCall :=
  .newBlock { sampleSecond with rewardChainBlock := ⟨14, 2, two_lt_limit, true, []⟩ } [sampleChild]
    [sampleCoin.name sampleHash]

def spentNode : Node := (exec ([spendingCall].forM (StoreCall.run (sampleEnv fun _ _ => none))) sampleNode).2

/-- The spent coin is unspent again and its child is gone. -/
theorem rollback_restores_coins_spent :
    (spentNode.db.coinRecord.get? (sampleCoin.name sampleHash)).map CoinRecord.spent = some true ∧
      ∀ k, (exec (rollbackToBlock (sampleEnv fun _ _ => none) 1) spentNode).2.db.coinRecord.get? k =
        sampleNode.db.coinRecord.get? k := by
  have hruns : (exec ([spendingCall].forM (StoreCall.run (sampleEnv fun _ _ => none))) sampleNode).1 = .ok () ∧
      (exec (rollbackToBlock (sampleEnv fun _ _ => none) 1) spentNode).1 = .ok () ∧
      (spentNode.db.coinRecord.get? (sampleCoin.name sampleHash)).map CoinRecord.spent = some true ∧
      ∀ e ∈ sampleNode.db.coinRecord.entries, (e.2.confirmedBlockIndex : ℤ) ≤ 1 ∧ (e.2.spentBlockIndex : ℤ) ≤ 1 ∧
        (e.2.spent = false → e.2.spentBlockIndex = 0) := by
    decide +kernel
  obtain ⟨hrun, hback, hspent, hrows⟩ := hruns
  exact ⟨hspent, fun k => rollback_restores_coins _ 1 sampleNode spentNode _
    ⟨fun k r hr => (get?_nodeWith hr).2, LruCache.within_new 100 _⟩ (fun k r hr => hrows (k, r) (Dict.mem_entries.mpr hr))
    [spendingCall] (forall_mem_singleton.mpr (show (1 : ℤ) < (2 : ℕ) by decide))
    (exec_eq_of_fst hrun) (exec_eq_of_fst hback) k⟩

end SectorChain.Proofs
