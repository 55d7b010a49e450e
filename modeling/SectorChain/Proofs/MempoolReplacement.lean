import SectorChain.Proofs.MempoolRuns

/-!
# What may replace what

A full mempool asks for more than every item that makes room.
-/

namespace SectorChain.Proofs

open Lib List Dict

variable {Q : Type} [LinearOrder Q] {env : MempoolEnv Q} {m m' : Mempool Q}
variable {cost fees : ℕ} {item : MempoolItem} {l : List (Q × MempoolItem)} {m₁ : Mempool Q} {rate : Q}

/-- The replaced items go, then others to make room, and the item is entered. -/
structure Included (env : MempoolEnv Q) (newItem : MempoolItem) (replaced : List MempoolItem)
    (names : List Bytes32) (m m₁ m₂ m' : Mempool Q) : Prop where
  replaced : exec (replaced.forM (Mempool.removeFromPool env)) m = (.ok (), m₁)
  shrunk₁ : Shrunk m m₁
  shrunk₂ : Shrunk m₁ m₂
  indexed₂ : Indexed env m₂
  room : m₂.atFullCapacity newItem.cost = false
  evicted : ∀ e ∈ m₁.inOrder, e ∉ m₂.inOrder → Evicted env newItem.cost m₁ e
  inserted : m' = Mempool.insertItem env newItem newItem.additions names m₂

lemma addToPool_cases {newItem : MempoolItem} {additions : List Coin} {coins : Dict Bytes32 Coin}
    {r : Except PyError Unit} (hrun : exec (Mempool.addToPool env newItem additions coins) m = (r, m')) :
    (∃ e, exec (Mempool.makeRoom env newItem.cost (m.spends.entries.length + 1)) m = (.error e, m') ∧ r = .error e) ∨
      (r = .ok () ∧ ∃ m₁, exec (Mempool.makeRoom env newItem.cost (m.spends.entries.length + 1)) m = (.ok (), m₁) ∧
        m' = Mempool.insertItem env newItem additions coins.keys m₁) := by
  unfold Mempool.addToPool at hrun
  rw [exec_get_bind] at hrun
  rcases exec_bind_cases hrun with ⟨e, hroom, rfl⟩ | ⟨_, m₁, hroom, hrun⟩
  · exact .inl ⟨e, hroom, rfl⟩
  · cases hrun
    exact .inr ⟨rfl, m₁, hroom, rfl⟩

lemma includeItem_cases (h : Indexed env m) {newItem : MempoolItem} {replaced : List MempoolItem}
    (hreplaced : ∀ item ∈ replaced, Known m item) {coins : Dict Bytes32 Coin} {r : Except PyError Unit}
    (hrun : exec (includeItem env newItem replaced coins) m = (r, m')) :
    (Shrunk m m' ∧ Indexed env m' ∧ ∃ e, r = .error e) ∨
      (r = .ok () ∧ ∃ m₁ m₂, Included env newItem replaced coins.keys m m₁ m₂ m') := by
  unfold includeItem at hrun
  rcases exec_bind_cases hrun with ⟨e, hfirst, rfl⟩ | ⟨_, m₁, hfirst, hrun⟩
  · obtain ⟨hs, h'⟩ := removeAll_shrunk h hreplaced hfirst
    exact .inl ⟨hs, h', e, rfl⟩
  obtain ⟨hs₁, h₁⟩ := removeAll_shrunk h hreplaced hfirst
  rcases addToPool_cases hrun with ⟨e, hroom, rfl⟩ | ⟨rfl, m₂, hroom, rfl⟩
  · obtain ⟨hs₂, h₂, -⟩ := makeRoom_cases h₁ hroom
    exact .inl ⟨IsTrans.trans _ _ _ hs₁ hs₂, h₂, e, rfl⟩
  obtain ⟨hs₂, h₂, hok⟩ := makeRoom_cases h₁ hroom
  obtain ⟨hfull, hevicted⟩ := hok rfl
  exact .inr ⟨rfl, m₁, m₂, hfirst, hs₁, hs₂, h₂, hfull, hevicted, rfl⟩

lemma get?_foldl_set {κ ν α : Type} [DecidableEq κ] (key : α → κ) (v : ν) (l : List α) (d : Dict κ ν)
    (k : κ) : (l.foldl (fun d a => d.set (key a) v) d).get? k =
      if k ∈ l.map key then some v else d.get? k := by
  induction l generalizing d with
  | nil => rfl
  | cons a l ih =>
    rw [foldl_cons, ih, get?_set, map_cons]
    by_cases hmem : k ∈ l.map key
    · rw [if_pos hmem, if_pos (mem_cons_of_mem _ hmem)]
    · by_cases ha : k = key a
      · rw [if_neg hmem, if_pos ha, if_pos (mem_cons.mpr (.inl ha))]
      · rw [if_neg hmem, if_neg ha, if_neg fun h => (mem_cons.mp h).elim ha hmem]

/-- The tables of items are in step. `npcOf` are the conditions that a name stands for. -/
structure Tracked (env : MempoolEnv Q) (npcOf : Bytes32 → NPCResult) (m : Mempool Q) : Prop where
  indexed : Indexed env m
  npc : ∀ {k item}, m.spends.get? k = some item → item.npcResult = npcOf item.name
  known : ∀ {k item}, m.removals.get? k = some item → Known m item
  spent : ∀ {k item}, m.removals.get? k = some item → k ∈ spentNames item ∧ item.npcResult = npcOf item.name

variable {npcOf : Bytes32 → NPCResult}

lemma Tracked.of_shrunk (h : Tracked env npcOf m) (hs : Shrunk m m') (hindexed : Indexed env m') :
    Tracked env npcOf m' where
  indexed := hindexed
  npc hk := h.npc (hs.spends hk)
  known hk := (h.known (hs.removals hk)).of_shrunk hs
  spent hk := h.spent (hs.removals hk)

lemma Tracked.insertItem (h : Tracked env npcOf m) {newItem : MempoolItem} (hnew : m.spends.get? newItem.name = none)
    (hnpc : newItem.npcResult = npcOf newItem.name) (hroom : m.atFullCapacity newItem.cost = false)
    (additions : List Coin) : Tracked env npcOf (Mempool.insertItem env newItem additions (spentNames newItem) m) := by
  have hget : ∀ k, (Mempool.insertItem env newItem additions (spentNames newItem) m).removals.get? k =
      if k ∈ spentNames newItem then some newItem else m.removals.get? k := by
    intro k
    refine (get?_foldl_set id newItem (spentNames newItem) m.removals k).trans ?_
    rw [map_id]
  have hspends : ∀ k, (Mempool.insertItem env newItem additions (spentNames newItem) m).spends.get? k =
      if k = newItem.name then some newItem else m.spends.get? k := fun k => get?_set _ _ k _
  constructor
  · exact h.indexed.insertItem hnew hroom additions _
  · intro k item hk
    rw [hspends] at hk
    split at hk
    · cases hk
      exact hnpc
    · exact h.npc hk
  · intro k item hk item' hitem'
    rw [hget] at hk
    rw [hspends] at hitem'
    split at hk
    · cases hk
      rw [if_pos rfl] at hitem'
      exact (Option.some.inj hitem').symm
    rename_i hnot
    split at hitem'
    · -- an entry of an earlier item with this name would have been overwritten
      rename_i hname
      obtain ⟨hmem, hnpc'⟩ := h.spent hk
      refine absurd ?_ hnot
      unfold spentNames at hmem ⊢
      rwa [hnpc, ← hname, ← hnpc']
    · exact h.known hk item' hitem'
  · intro k item hk
    rw [hget] at hk
    split at hk
    · rename_i hmem
      cases hk
      exact ⟨hmem, hnpc⟩
    · exact h.spent hk

def NamedBy (npcOf : Bytes32 → NPCResult) : Submission := fun _ npcResult spendName =>
  npcResult = npcOf spendName

section Admitted

variable {newSpend : SpendBundle} {npc : NPCResult} {name : Bytes32} {validate : Bool}
  {peak : BlockRecord} {s : MempoolNode Q} {newItem : MempoolItem}
  {removals : Removals} {replaced : List MempoolItem}

lemma Admitted.mem_replaced (h : Admitted env newSpend npc name validate peak s
    newItem removals replaced) (hitem : item ∈ replaced) :
    ∃ k, s.manager.mempool.removals.get? k = some item := by
  obtain ⟨s₁, s₂, hmanager, hresolve⟩ := h.admission.replaced
  rcases resolveConflicts_ok hresolve with ⟨-, rfl⟩ | ⟨conflicts, items, -, hitems, -, rfl⟩
  · cases hitem
  · obtain ⟨⟨k, item'⟩, hmem, rfl⟩ := mem_map.mp hitem
    obtain ⟨-, c, -, hget⟩ := (conflictingPoolItems_ok hitems).1 (mem_entries.mp hmem)
    rw [hmanager] at hget
    exact ⟨_, hget⟩

lemma preserved_tracked (env : MempoolEnv Q) (npcOf : Bytes32 → NPCResult) :
    Preserved env (NamedBy npcOf) (fun _ => True) (Tracked env npcOf) where
  reads _ _ := trivial
  new := ⟨indexed_new _, fun hk => (by cases hk), fun hk => (by cases hk), fun hk => (by cases hk)⟩
  good h hk := h.npc hk
  includeItem := by
    intro newSpend npc name validate peak s newItem removals replaced r m' _ h
      hgood hadmitted hrun
    have hknown : ∀ item ∈ replaced, Known s.manager.mempool item := by
      intro item hitem
      obtain ⟨k, hk⟩ := hadmitted.mem_replaced hitem
      exact h.known hk
    rcases includeItem_cases h.indexed hknown hrun with ⟨hs, hindexed, -⟩ | ⟨-, m₁, m₂, hincluded⟩
    · exact h.of_shrunk hs hindexed
    have hs := IsTrans.trans _ _ _ hincluded.shrunk₁ hincluded.shrunk₂
    rw [hincluded.inserted, hadmitted.keys.1]
    apply (h.of_shrunk hs hincluded.indexed₂).insertItem _ _ hincluded.room
    · apply hs.absent
      rw [hadmitted.ofName]
      exact hadmitted.fresh
    · rw [hadmitted.ofNpc, hadmitted.ofName]
      exact hgood
  remove := by
    intro m item h hitem
    rcases hrun : exec (Mempool.removeFromPool env item) m with ⟨r, m'⟩
    obtain ⟨hs, hindexed⟩ := removeFromPool_shrunk h.indexed (.of_stored hitem) hrun
    exact h.of_shrunk hs hindexed
  evict := by
    intro m cost fuel h
    rcases hrun : exec (Mempool.makeRoom env cost fuel) m with ⟨r, m'⟩
    obtain ⟨hs, hindexed, -⟩ := makeRoom_cases h.indexed hrun
    exact h.of_shrunk hs hindexed

omit [LinearOrder Q] in
lemma minFeeRateFrom_ok {max : ℕ} {current : ℤ} (h : Mempool.minFeeRateFrom max cost current l = .ok rate) :
    ∃ l₁ e l₂, l = l₁ ++ e :: l₂ ∧ e.1 = rate ∧
      current - ((l₁ ++ [e]).map fun e => (e.2.cost : ℤ)).sum + cost ≤ max := by
  induction l generalizing current with
  | nil => cases h
  | cons e l ih =>
    unfold Mempool.minFeeRateFrom at h
    split at h
    · rename_i hfits
      cases h
      exact ⟨[], e, l, rfl, rfl, by simpa using hfits⟩
    · obtain ⟨l₁, e', l₂, rfl, hrate, hfits⟩ := ih h
      refine ⟨e :: l₁, e', l₂, rfl, hrate, ?_⟩
      rw [cons_append, map_cons, sum_cons]
      omega

omit [LinearOrder Q] in
lemma sum_cost_le {l' : List (Q × MempoolItem)} (h : l.Sublist l') :
    (l.map fun e => (e.2.cost : ℤ)).sum ≤ (l'.map fun e => (e.2.cost : ℤ)).sum := by
  apply List.Sublist.sum_le_sum (h.map _)
  intro x hx
  obtain ⟨e, -, rfl⟩ := mem_map.mp hx
  exact Int.natCast_nonneg _

lemma atFullCapacity_of_shrunk (h : Indexed env m) (h' : Indexed env m') (hs : Shrunk m m')
    (hfull : m'.atFullCapacity cost = true) : m.atFullCapacity cost = true := by
  have hcost := sum_cost_le hs.inOrder
  rw [← h.cost, ← h'.cost] at hcost
  have hmax := hs.max
  unfold Mempool.atFullCapacity at hfull ⊢
  rw [decide_eq_true_eq] at hfull ⊢
  omega

lemma rate_lt_of_evicted (h : Indexed env m) (hcapacity : checkCapacity env m fees cost = .ok ())
    (hs : Shrunk m m₁) {e : Q × MempoolItem} (hevicted : Evicted env cost m₁ e) : e.1 < env.perCost fees cost := by
  obtain ⟨m₂, hs₂, h₂, hfull, hhead⟩ := hevicted
  have hs := IsTrans.trans _ _ _ hs hs₂
  have hfull' := atFullCapacity_of_shrunk h h₂ hs hfull
  unfold checkCapacity at hcapacity
  rw [if_pos hfull'] at hcapacity
  obtain ⟨_, -, hcapacity⟩ := bind_eq_ok.mp hcapacity
  obtain ⟨rate, hrate, hcapacity⟩ := bind_eq_ok.mp hcapacity
  have hlt : rate < env.perCost fees cost := of_decide_eq_true (demand_ok hcapacity)
  have hmin : Mempool.minFeeRateFrom m.maxSizeInCost cost m.totalMempoolCost m.inOrder = .ok rate := by
    have hrate := mapError_eq_ok.mp hrate
    unfold Mempool.getMinFeeRate at hrate
    rwa [if_pos hfull'] at hrate
  obtain ⟨l₁, e', l₂, hsplit, rfl, hfits⟩ := minFeeRateFrom_ok hmin
  obtain ⟨tail, htail⟩ := head?_eq_some_iff.mp hhead
  have hsub : (e :: tail).Sublist ((l₁ ++ [e']) ++ l₂) := by
    rw [append_assoc, singleton_append, ← hsplit, ← htail]
    exact hs.inOrder
  by_cases hmem : e ∈ l₁ ++ [e']
  · -- the item comes no later than the one that sets the fee
    refine lt_of_le_of_lt ?_ hlt
    rcases mem_append.mp hmem with hmem | hmem
    · have hpairwise := pairwise_inOrder m
      rw [hsplit, pairwise_append] at hpairwise
      exact hpairwise.2.2 e hmem e' mem_cons_self
    · rw [mem_singleton.mp hmem]
  · -- otherwise all that is left comes after it, and leaves enough room
    have hrest : (e :: tail).Sublist l₂ := by
      obtain ⟨x, y, hxy, hx, hy⟩ := sublist_append_iff.mp hsub
      cases x with
      | nil =>
        rw [hxy]
        exact hy
      | cons x₀ x =>
        cases hxy
        exact absurd (hx.subset mem_cons_self) hmem
    have hcost := sum_cost_le hrest
    rw [← htail, ← h₂.cost] at hcost
    have htotal := h.cost
    rw [hsplit, show l₁ ++ e' :: l₂ = (l₁ ++ [e']) ++ l₂ by simp, map_append, sum_append] at htotal
    have hmax := hs.max
    unfold Mempool.atFullCapacity at hfull
    rw [decide_eq_true_eq] at hfull
    omega

lemma removeAll_ok (h : Indexed env m) {items : List MempoolItem} (hitems : ∀ item ∈ items, Known m item)
    (hrun : exec (items.forM (Mempool.removeFromPool env)) m = (.ok (), m')) :
    (∀ item ∈ items, m.spends.get? item.name = some item) ∧ ∀ e ∈ m.inOrder, e.2 ∉ items → e ∈ m'.inOrder := by
  induction items generalizing m with
  | nil =>
    cases hrun
    exact ⟨fun item hitem => (nomatch hitem), fun e he _ => he⟩
  | cons item items ih =>
    obtain ⟨_, m₁, hfirst, hrest⟩ := exec_bind_ok.mp hrun
    have hknown := hitems item mem_cons_self
    obtain ⟨hdropped, h₁⟩ := removeFromPool_ok h hknown hfirst
    obtain ⟨hstored, hkept⟩ := ih h₁
      (fun i hi => (hitems i (mem_cons_of_mem item hi)).of_shrunk hdropped.shrunk) hrest
    constructor
    · intro i hi
      rcases mem_cons.mp hi with rfl | hi
      · exact hdropped.stored
      · exact hdropped.shrunk.spends (hstored i hi)
    intro e he hnot
    rw [mem_cons, not_or] at hnot
    apply hkept e _ hnot.2
    rw [hdropped.inOrder]
    refine mem_filter.mpr ⟨he, ?_⟩
    have hne : e.2.name ≠ item.name := by
      intro hname
      have hget := (h.mem_inOrder.mp (show (e.1, e.2) ∈ m.inOrder from he)).1
      rw [hname] at hget
      exact hnot.1 (hknown e.2 hget)
    simpa using hne

lemma mem_values {items : Dict Bytes32 MempoolItem} (hkeyed : ∀ {k item}, items.get? k = some item → item.name = k)
    (hstored : ∀ item ∈ items.entries.map Prod.snd, m.spends.get? item.name = some item)
    (hitem : m.spends.get? item.name = some item) (hcontains : items.contains item.name = true) :
    item ∈ items.entries.map Prod.snd := by
  obtain ⟨item', hitem'⟩ := Dict.contains_iff.mp hcontains
  have hmem : item' ∈ items.entries.map Prod.snd :=
    mem_map.mpr ⟨(item.name, item'), mem_entries.mpr hitem', rfl⟩
  have hget := hstored item' hmem
  rw [hkeyed hitem', hitem] at hget
  cases hget
  exact hmem

lemma canReplace_iff {items : Dict Bytes32 MempoolItem} {records : Dict Bytes32 CoinRecord} :
    canReplace env items records fees rate = true ↔
      (∀ item ∈ items.entries.map Prod.snd, ∀ coin ∈ item.removals, records.contains (coin.name env.stdHash) = true) ∧
      env.perCost ((items.entries.map Prod.snd).map MempoolItem.fee).sum
        ((items.entries.map Prod.snd).map MempoolItem.cost).sum < rate ∧
      ((items.entries.map Prod.snd).map MempoolItem.fee).sum + getMinFeeIncrease ≤ fees := by
  unfold canReplace
  simp only [Bool.and_eq_true, all_eq_true, decide_eq_true_eq, and_assoc]

/-- The conflicts are the items that the mempool had for coins that the new item spends. -/
structure ReplacementLaw (env : MempoolEnv ℚ) (m m' : Mempool ℚ) (newItem : MempoolItem)
    (conflicts : List MempoolItem) : Prop where
  entered : m'.spends.get? newItem.name = some newItem
  nodup : conflicts.Nodup
  mem_conflicts : ∀ item, item ∈ conflicts ↔ m.spends.get? item.name = some item ∧
    ∃ coin ∈ newItem.removals, m.removals.get? (coin.name env.stdHash) = some item
  cheaper : ∀ item, m.spends.get? item.name = some item → m'.spends.get? item.name ≠ some item →
    item ∉ conflicts → (item.fee : ℚ) / item.cost < newItem.fee / newItem.cost
  covered : ∀ item ∈ conflicts, ∀ coin ∈ item.removals, coin.name env.stdHash ∈ spentNames newItem
  fee : conflicts ≠ [] → (conflicts.map MempoolItem.fee).sum + getMinFeeIncrease ≤ newItem.fee
  rate : conflicts ≠ [] → ((conflicts.map MempoolItem.fee).sum : ℚ) / (conflicts.map MempoolItem.cost).sum <
    newItem.fee / newItem.cost

lemma Admitted.mem_removals (h : Admitted env newSpend npc name validate peak s
    newItem removals replaced) {coin : Coin} :
    coin ∈ newItem.removals ↔ ∃ k record, removals.records.get? k = some record ∧ record.coin = coin := by
  obtain ⟨records, hrecords, h₁, h₂, -⟩ := h.records
  have hcoins : newItem.removals = records.map CoinRecord.coin := by
    rw [h.admission.coins, h₂, map_snd_zip]
    rw [length_map, hrecords.length_eq]
  rw [hcoins, mem_map]
  constructor
  · rintro ⟨record, hmem, rfl⟩
    have hmem' : record ∈ ((spentNames newItem).zip records).map Prod.snd := by
      rwa [map_snd_zip hrecords.length_eq.ge]
    obtain ⟨⟨k, record'⟩, hentry, rfl⟩ := mem_map.mp hmem'
    rw [← h₁] at hentry
    exact ⟨k, record', mem_entries.mp hentry, rfl⟩
  · rintro ⟨k, record, hget, rfl⟩
    have hentry := mem_entries.mpr hget
    rw [h₁] at hentry
    exact ⟨record, (of_mem_zip hentry).2, rfl⟩

lemma Admitted.replaced_cases (h : Admitted env newSpend npc name validate peak s
    newItem removals replaced) :
    (replaced = [] ∧ ∀ coin ∈ newItem.removals, s.manager.mempool.removals.get? (coin.name env.stdHash) = none) ∨
      ∃ items : Dict Bytes32 MempoolItem, replaced = items.entries.map Prod.snd ∧
        canReplace env items removals.records newItem.fee (newItem.feePerCost env) = true ∧
        (∀ {k item}, items.get? k = some item → item.name = k ∧ ∃ coin ∈ newItem.removals,
          s.manager.mempool.removals.get? (coin.name env.stdHash) = some item) ∧
        ∀ coin ∈ newItem.removals, ∀ item, s.manager.mempool.removals.get? (coin.name env.stdHash) = some item →
          items.contains item.name = true := by
  obtain ⟨s₁, s₂, hmanager, hresolve⟩ := h.admission.replaced
  have hresolved := resolveConflicts_ok hresolve
  rw [hmanager] at hresolved
  rcases hresolved with ⟨hnone, rfl⟩ | ⟨conflicts, items, hcheck, hitems, hreplace, rfl⟩
  · refine .inl ⟨rfl, fun coin hcoin => ?_⟩
    obtain ⟨k, record, hget, rfl⟩ := h.mem_removals.mp hcoin
    exact (checkRemovals_cases hnone (by simp) hget).2.resolve_left (by simp)
  obtain ⟨hvalues, hall⟩ := conflictingPoolItems_ok hitems
  refine .inr ⟨items, rfl, hreplace, fun hget => ?_, fun coin hcoin item hitem => ?_⟩
  · obtain ⟨hname, c, hc, hc'⟩ := hvalues hget
    refine ⟨hname, c, ?_, hc'⟩
    unfold checkRemovals at hcheck
    dsimp only at hcheck
    split at hcheck
    · cases hcheck
    split at hcheck
    · cases hcheck
      obtain ⟨record, hrecord, rfl⟩ := mem_map.mp (mem_of_mem_filter hc)
      obtain ⟨⟨k, record'⟩, hentry, rfl⟩ := mem_map.mp hrecord
      exact h.mem_removals.mpr ⟨k, record', mem_entries.mp hentry, rfl⟩
    · cases hcheck
  · obtain ⟨k, record, hget, rfl⟩ := h.mem_removals.mp hcoin
    rcases (checkRemovals_cases hcheck (by simp) hget).2 with hmem | hnone
    · obtain ⟨item', hitem', hcontains⟩ := hall _ hmem
      rw [hitem] at hitem'
      cases hitem'
      exact hcontains
    · rw [hitem] at hnone
      cases hnone

end Admitted

lemma Included.gone {newItem : MempoolItem} {replaced : List MempoolItem} {names : List Bytes32} {m₂ : Mempool Q}
    (h : Indexed env m) (hreplaced : ∀ item ∈ replaced, Known m item) (hnew : m.spends.get? newItem.name = none)
    (hincluded : Included env newItem replaced names m m₁ m₂ m') (hold : m.spends.get? item.name = some item)
    (hgone : m'.spends.get? item.name ≠ some item) (hnot : item ∉ replaced) :
    Evicted env newItem.cost m₁ (item.feePerCost env, item) := by
  have hmem : (item.feePerCost env, item) ∈ m.inOrder := h.mem_inOrder.mpr ⟨hold, rfl⟩
  apply hincluded.evicted _ ((removeAll_ok h hreplaced hincluded.replaced).2 _ hmem hnot)
  intro hkept
  apply hgone
  have hname : item.name ≠ newItem.name := by
    intro hname
    rw [← hname, hold] at hnew
    cases hnew
  rw [hincluded.inserted]
  unfold Mempool.insertItem
  rw [get?_set_of_ne _ _ hname]
  exact (hincluded.indexed₂.mem_inOrder.mp hkept).1

/-- A bundle that gets in pays more per cost than every item that makes room, and more than its conflicts together. -/
theorem replacement_law (env : MempoolEnv ℚ) (hperCost : ∀ fee cost, env.perCost fee cost = fee / cost)
    (npcOf : Bytes32 → NPCResult) {s : MempoolManager ℚ} (hs : Reached env (NamedBy npcOf) (fun _ => True) s)
    (node : Node) (newSpend : SpendBundle) (spendName : Bytes32) (validateSignature : Bool) (program : Option Bytes)
    {result : AddResult} {s' : MempoolNode ℚ} (hrun : exec (addSpendbundle env newSpend (npcOf spendName) spendName
      validateSignature program) ⟨node, s⟩ = (.ok result, s')) :
    s'.manager.mempool = s.mempool ∨ ∃ newItem conflicts, newItem.spendBundle = newSpend ∧
      newItem.name = spendName ∧ ReplacementLaw env s.mempool s'.manager.mempool newItem conflicts := by
  have htracked := (hs.safe (preserved_tracked env npcOf)).pool
  rcases addSpendbundle_cases hrun with hprepared |
    ⟨peak, newItem, removals, replaced, s₁, m', hadmitted, hprepared, rfl, hlast⟩
  · exact .inl hprepared.mempool
  right
  have hknown : ∀ item ∈ replaced, Known s.mempool item := by
    intro item hitem
    obtain ⟨k, hk⟩ := hadmitted.mem_replaced hitem
    exact htracked.known hk
  rcases includeItem_cases htracked.indexed hknown hlast with ⟨-, -, e, hr⟩ | ⟨-, m₁, m₂, hincluded⟩
  · cases hr
  have hstored := (removeAll_ok htracked.indexed hknown hincluded.replaced).1
  have hfresh : s.mempool.spends.get? newItem.name = none := hadmitted.ofName ▸ hadmitted.fresh
  refine ⟨newItem, replaced, hadmitted.ofSpend, hadmitted.ofName, ?_⟩
  have hcheaper : ∀ item, s.mempool.spends.get? item.name = some item →
      m'.spends.get? item.name ≠ some item → item ∉ replaced →
      (item.fee : ℚ) / item.cost < newItem.fee / newItem.cost := by
    intro item hold hgone hnot
    have hevicted := hincluded.gone htracked.indexed hknown hfresh hold hgone hnot
    have hlt := rate_lt_of_evicted htracked.indexed hadmitted.admission.capacity hincluded.shrunk₁ hevicted
    unfold MempoolItem.feePerCost at hlt
    rwa [hperCost, hperCost] at hlt
  have hentered : m'.spends.get? newItem.name = some newItem := by
    rw [hincluded.inserted]
    exact get?_set_self _ _ _
  rcases hadmitted.replaced_cases with ⟨rfl, hnone⟩ | ⟨items, rfl, hreplace, hvalues, hall⟩
  · refine ⟨hentered, nodup_nil, fun item => ⟨fun hitem => (nomatch hitem), ?_⟩, hcheaper,
      fun item hitem => (nomatch hitem), fun hne => absurd rfl hne, fun hne => absurd rfl hne⟩
    rintro ⟨-, coin, hcoin, hget⟩
    rw [hnone coin hcoin] at hget
    cases hget
  obtain ⟨hcovered, hrate, hfee⟩ := canReplace_iff.mp hreplace
  constructor
  · exact hentered
  · have hkeys := items.nodup
    apply pairwise_map.mpr
    apply (pairwise_map.mp hkeys).imp_of_mem
    rintro ⟨k, item⟩ ⟨k', item'⟩ hmem hmem' hne rfl
    apply hne
    rw [← (hvalues (mem_entries.mp hmem)).1, ← (hvalues (mem_entries.mp hmem')).1]
  · intro item
    constructor
    · intro hitem
      refine ⟨hstored item hitem, ?_⟩
      obtain ⟨⟨k, item'⟩, hmem, rfl⟩ := mem_map.mp hitem
      exact (hvalues (mem_entries.mp hmem)).2
    rintro ⟨hold, coin, hcoin, hget⟩
    exact mem_values (fun hget => (hvalues hget).1) hstored hold (hall coin hcoin item hget)
  · exact hcheaper
  · intro item hitem coin hcoin
    have hcontains := hcovered item hitem coin hcoin
    rw [← hadmitted.keys.2]
    exact mem_keys.mpr (Dict.contains_iff.mp hcontains)
  · exact fun _ => hfee
  · intro _
    unfold MempoolItem.feePerCost at hrate
    rwa [hperCost, hperCost] at hrate

/-- A bundle that replaces another one. -/
theorem replacing_bundle_pays_more :
    (submit (sampleMempoolEnv 10) sampleNode replacingBundle (.ofNat 32 2) sampleManager).1 =
        .ok ⟨some 5773000, .SUCCESS, none⟩ ∧
      ∃ newItem conflicts, newItem.spendBundle = replacingBundle ∧ newItem.name = .ofNat 32 2 ∧
        ReplacementLaw (sampleMempoolEnv 10) sampleManager.mempool
          (submit (sampleMempoolEnv 10) sampleNode replacingBundle (.ofNat 32 2) sampleManager).2.manager.mempool
          newItem conflicts := by
  let npcOf : Bytes32 → NPCResult := fun name => if name = .ofNat 32 1
    then preValidateSpendbundle (sampleMempoolEnv 10) sampleBundle
    else preValidateSpendbundle (sampleMempoolEnv 10) replacingBundle
  have hs : Reached (sampleMempoolEnv 10) (NamedBy npcOf) (fun _ => True) sampleManager :=
    reached_submit (reached_atPeak trivial) trivial (if_pos rfl).symm
  have hresult : (submit (sampleMempoolEnv 10) sampleNode replacingBundle (.ofNat 32 2) sampleManager).1 =
      .ok ⟨some 5773000, .SUCCESS, none⟩ := by decide +kernel
  have hnpc : npcOf (.ofNat 32 2) = preValidateSpendbundle (sampleMempoolEnv 10) replacingBundle := if_neg (by decide)
  refine ⟨hresult, ?_⟩
  rcases replacement_law (sampleMempoolEnv 10) (fun _ _ => rfl) npcOf hs sampleNode replacingBundle
    (.ofNat 32 2) true none (exec_of_submit hnpc hresult) with hsame | hlaw
  · have hcost : (submit (sampleMempoolEnv 10) sampleNode replacingBundle (.ofNat 32 2)
        sampleManager).2.manager.mempool.totalMempoolCost ≠ sampleManager.mempool.totalMempoolCost := by
      decide +kernel
    exact absurd (congrArg Mempool.totalMempoolCost hsame) hcost
  · exact hlaw

end SectorChain.Proofs
