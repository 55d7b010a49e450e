import SectorChain.Proofs.MempoolReplacement
import Mathlib.Algebra.BigOperators.Group.Finset.Basic

/-!
# The mempool as a set of items

All five structures describe one set of items.
-/

namespace SectorChain.Proofs

open Lib List

variable {Q : Type} [LinearOrder Q]
variable {additions : List Coin} {c : Coin} {k : Bytes32} {names : MempoolItem → List Bytes32}
  {table : Dict Bytes32 MempoolItem}

/-- The coins that a bundle states are those of its conditions. -/
structure Agreement (env : MempoolEnv Q) (newSpend : SpendBundle) (npcResult : NPCResult) : Prop where
  removals : (newSpend.removals.map (Coin.name env.stdHash)).Perm (npcResult.npcList.map NPC.coinName)
  additions : ∀ created, additionsForNpc npcResult.npcList = .ok created →
    ∃ additions, newSpend.additions env = .ok additions ∧ additions.Perm created

/-- A bundle with conditions states its coins, and creates coins of `coins` only. -/
def Stated (env : MempoolEnv Q) (coins : Set Coin) : Submission := fun newSpend npcResult _ =>
  npcResult.error = none → Agreement env newSpend npcResult ∧
    ∀ created, additionsForNpc npcResult.npcList = .ok created → ∀ c ∈ created, c ∈ coins

/-- Coin records stand under the names of their coins. -/
structure KeyedStore (env : Env) (n : Node) : Prop where
  table : ∀ {k r}, n.db.coinRecord.get? k = some r → r.coin.name env.stdHash = k
  cache : ∀ {k r}, n.coinRecordCache.peek k = some r → r.coin.name env.stdHash = k

lemma KeyedStore.of_reads {env : Env} {n n' : Node} (hreads : Reads env n n') (h : KeyedStore env n) :
    KeyedStore env n' where
  table hk := h.table (hreads.db ▸ hk)
  cache hk := by
    rcases hreads.coinRecordCache _ _ hk with hk | ⟨hname, -⟩
    · exact h.cache hk
    · exact hname.symm

variable {env : MempoolEnv Q} {coins : Set Coin} {m m' : Mempool Q} {item : MempoolItem}

omit [LinearOrder Q] in
lemma coinsByName_get?
    (h : (coinsByName env.toEnv additions).get? k = some c) : c ∈ additions ∧ c.name env.stdHash = k := by
  have hstep : ∀ (d : Dict Bytes32 Coin) (a : Coin), (d.set (a.name env.stdHash) a).get? k = some c →
      (a = c ∧ a.name env.stdHash = k) ∨ d.get? k = some c := by
    intro d a hd
    rw [Dict.get?_set] at hd
    split at hd
    · rename_i hk
      exact .inl ⟨Option.some.inj hd, hk.symm⟩
    · exact .inr hd
  rcases Dict.exists_of_foldl (Q := fun d : Dict Bytes32 Coin => d.get? k = some c) hstep h with ⟨a, ha, rfl, hk⟩ | hc
  · exact ⟨ha, hk⟩
  · cases hc

omit [LinearOrder Q] in
lemma Found.name_eq {peak : BlockRecord} {node : Node} {record : CoinRecord} (hkeyed : KeyedStore env.toEnv node)
    (h : Found env peak (coinsByName env.toEnv additions) node k record) : record.coin.name env.stdHash = k := by
  cases h with
  | ephemeral coin hget hrecord =>
    obtain ⟨timestamp, -, hrecord⟩ := bind_eq_ok.mp hrecord
    cases hrecord
    exact (coinsByName_get? hget).2
  | stored node₁ hget hreads hrecord =>
    have hkeyed₁ := hkeyed.of_reads hreads
    rcases Option.or_eq_some_iff.mp hrecord with hcache | ⟨-, htable⟩
    · exact hkeyed₁.cache hcache
    · exact hkeyed₁.table htable

lemma parent_of_createdOutput {name : Bytes32} {cvp : ConditionWithArgs}
    (h : createdOutput name cvp = .ok c) : c.parentCoinInfo = name := by
  iterate 4 obtain ⟨_, -, h⟩ := bind_eq_ok.mp h
  cases h
  rfl

lemma parent_mem_of_additionsForNpc {npcList : List NPC} {created : List Coin}
    (h : additionsForNpc npcList = .ok created) (hc : c ∈ created) : c.parentCoinInfo ∈ npcList.map NPC.coinName := by
  obtain ⟨lists, hlists, rfl⟩ := map_eq_ok.mp h
  obtain ⟨coins, hcoins, hc⟩ := mem_flatten.mp hc
  obtain ⟨npc, hnpc, hcreated⟩ := exists_of_mem_mapM hlists hcoins
  obtain ⟨cvp, -, hcvp⟩ := exists_of_mem_mapM hcreated hc
  rw [parent_of_createdOutput hcvp]
  exact mem_map_of_mem hnpc

/-- What is known about an item. -/
structure ItemOk (env : MempoolEnv Q) (coins : Set Coin) (item : MempoolItem) : Prop where
  noError : item.npcResult.error = none
  stated : Meets (Stated env coins) item
  additions : additionsForNpc item.npcResult.npcList = .ok item.additions
  created : (createdNames env item).Nodup
  spent : (spentNames item).Nodup

/-- All five structures are in step. -/
structure Linked (env : MempoolEnv Q) (coins : Set Coin) (m : Mempool Q) : Prop where
  indexed : Indexed env m
  max : m.maxSizeInCost = mempoolMaxTotalCost env
  items : ∀ {k item}, m.spends.get? k = some item → ItemOk env coins item
  additions : ∀ {k item}, m.additions.get? k = some item ↔
    m.spends.get? item.name = some item ∧ k ∈ createdNames env item
  removals : ∀ {k item}, m.removals.get? k = some item ↔ m.spends.get? item.name = some item ∧ k ∈ spentNames item

lemma linked_new : Linked env coins (Mempool.new (mempoolMaxTotalCost env)) := by
  refine ⟨indexed_new _, rfl, fun hk => (by cases hk), ?_, ?_⟩
  · intro k item
    constructor
    · intro h
      cases h
    · rintro ⟨h, -⟩
      cases h
  intro k item
  constructor
  · intro h
    cases h
  · rintro ⟨h, -⟩
    cases h

lemma exec_forM_del {del : Bytes32 → MempoolM Q Unit} (table : Mempool Q → Dict Bytes32 MempoolItem)
    (put : Mempool Q → Dict Bytes32 MempoolItem → Mempool Q)
    (hdel : ∀ k m, exec (del k) m = if (table m).contains k then (.ok (), put m ((table m).erase k))
      else (.error .keyError, m))
    (htable : ∀ m d, table (put m d) = d) (hput : ∀ m d d', put (put m d) d' = put m d')
    (hself : ∀ m, put m (table m) = m) (l : List Coin) (hnodup : (l.map (Coin.name env.stdHash)).Nodup)
    (m : Mempool Q) (hmem : ∀ c ∈ l, (table m).contains (c.name env.stdHash) = true) :
    ∃ d, exec (l.forM fun c => del (c.name env.stdHash)) m = (.ok (), put m d) ∧
      ∀ k, d.get? k = if k ∈ l.map (Coin.name env.stdHash) then none else (table m).get? k := by
  induction l generalizing m with
  | nil => exact ⟨table m, by rw [hself]; rfl, fun k => rfl⟩
  | cons c l ih =>
    rw [map_cons, nodup_cons] at hnodup
    rw [exec_forM_cons, exec_bind, hdel, if_pos (hmem c mem_cons_self)]
    dsimp only
    have hrest : ∀ c' ∈ l, (table (put m ((table m).erase (c.name env.stdHash)))).contains
        (c'.name env.stdHash) = true := by
      intro c' hc'
      have hne : c'.name env.stdHash ≠ c.name env.stdHash := fun heq =>
        hnodup.1 (heq ▸ mem_map_of_mem hc')
      rw [htable, Dict.contains_iff, Dict.get?_erase, if_neg hne]
      exact Dict.contains_iff.mp (hmem c' (mem_cons_of_mem c hc'))
    obtain ⟨d, hrun, hd⟩ := ih hnodup.2 _ hrest
    refine ⟨d, by rw [hrun, hput], fun k => ?_⟩
    rw [hd, htable, Dict.get?_erase, map_cons]
    by_cases hk : k ∈ l.map (Coin.name env.stdHash)
    · rw [if_pos hk, if_pos (mem_cons_of_mem _ hk)]
    · by_cases hc : k = c.name env.stdHash
      · rw [if_neg hk, if_pos hc, if_pos (mem_cons.mpr (.inl hc))]
      · rw [if_neg hk, if_neg hc, if_neg fun h => (mem_cons.mp h).elim hc hk]

lemma get?_without {table' : Dict Bytes32 MempoolItem}
    (htable : ∀ k item, table.get? k = some item ↔ m.spends.get? item.name = some item ∧ k ∈ names item)
    (hitem : m.spends.get? item.name = some item) {deleted : List Bytes32}
    (hdeleted : ∀ k, k ∈ deleted ↔ k ∈ names item)
    (htable' : ∀ k, table'.get? k = if k ∈ deleted then none else table.get? k) (k : Bytes32) (item' : MempoolItem) :
    table'.get? k = some item' ↔ (m.spends.get? item'.name = some item' ∧ item' ≠ item) ∧ k ∈ names item' := by
  rw [htable']
  split
  · rename_i hk
    constructor
    · intro hnone
      cases hnone
    · rintro ⟨⟨hget, hne⟩, hk'⟩
      have h₁ := (htable k item).mpr ⟨hitem, (hdeleted k).mp hk⟩
      have h₂ := (htable k item').mpr ⟨hget, hk'⟩
      exact absurd (Option.some.inj (h₂.symm.trans h₁)) hne
  · rename_i hk
    rw [htable]
    constructor
    · rintro ⟨hget, hk'⟩
      exact ⟨⟨hget, fun heq => hk ((hdeleted k).mpr (heq ▸ hk'))⟩, hk'⟩
    · rintro ⟨⟨hget, -⟩, hk'⟩
      exact ⟨hget, hk'⟩

lemma Linked.removeFromPool (h : Linked env coins m) (hitem : m.spends.get? item.name = some item) :
    ∃ m', exec (Mempool.removeFromPool env item) m = (.ok (), m') ∧ Dropped item m m' ∧ Linked env coins m' := by
  have hok := h.items hitem
  obtain ⟨additions, hadditions, hperm⟩ := (hok.stated hok.noError).1.additions _ hok.additions
  have hremovals := (hok.stated hok.noError).1.removals
  have hcreated : (additions.map (Coin.name env.stdHash)).Perm (createdNames env item) := hperm.map _
  obtain ⟨removals, hrun₁, hremovals'⟩ := exec_forM_del Mempool.removals
    (fun m d => { m with removals := d }) exec_delRemoval (fun _ _ => rfl) (fun _ _ _ => rfl)
    (fun _ => rfl) item.spendBundle.removals (hremovals.nodup_iff.mpr hok.spent) m (fun c hc =>
      Dict.contains_iff.mpr ⟨item, h.removals.mpr ⟨hitem, hremovals.mem_iff.mp (mem_map_of_mem hc)⟩⟩)
  obtain ⟨additions', hrun₂, hadditions'⟩ := exec_forM_del Mempool.additions
    (fun m d => { m with additions := d }) exec_delAddition (fun _ _ => rfl) (fun _ _ _ => rfl)
    (fun _ => rfl) additions (hcreated.nodup_iff.mpr hok.created) { m with removals := removals }
    (fun c hc => Dict.contains_iff.mpr
      ⟨item, h.additions.mpr ⟨hitem, hcreated.mem_iff.mp (mem_map_of_mem hc)⟩⟩)
  have hindexed : Indexed env { m with removals := removals, additions := additions' } :=
    ⟨h.indexed.keyed, h.indexed.find, h.indexed.nonempty, h.indexed.cost, h.indexed.fits⟩
  obtain ⟨d, hd, hrun₃⟩ := exec_dropItem hindexed hitem
  have hrun : exec (Mempool.removeFromPool env item) m =
      (.ok (), dropIndex env item d { m with removals := removals, additions := additions' }) := by
    unfold Mempool.removeFromPool
    rw [hadditions, exec_lift_ok_bind, exec_bind_of_ok hrun₁, exec_bind_of_ok hrun₂]
    exact hrun₃
  have hknown := Known.of_stored hitem
  obtain ⟨hdropped, hindexed'⟩ := removeFromPool_ok h.indexed hknown hrun
  -- an entry of another item stays, and one of the item itself has gone
  have hstays : ∀ {item' : MempoolItem}, (m.spends.erase item.name).get? item'.name = some item' ↔
      m.spends.get? item'.name = some item' ∧ item' ≠ item := by
    intro item'
    rw [Dict.get?_erase]
    constructor
    · intro hget
      split at hget
      · cases hget
      · rename_i hne
        exact ⟨hget, fun heq => hne (heq ▸ rfl)⟩
    · rintro ⟨hget, hne⟩
      have hname : item'.name ≠ item.name := fun hname => hne (hknown item' (hname ▸ hget))
      rw [if_neg hname]
      exact hget
  refine ⟨_, hrun, hdropped, hindexed', h.max, fun hk => h.items (get?_of_erase hk), ?_, ?_⟩
  · intro k item'
    change additions'.get? k = some item' ↔ (m.spends.erase item.name).get? item'.name = some item' ∧ _
    rw [hstays]
    exact get?_without (fun _ _ => h.additions) hitem (fun k => hcreated.mem_iff) hadditions' k item'
  · intro k item'
    change removals.get? k = some item' ↔ (m.spends.erase item.name).get? item'.name = some item' ∧ _
    rw [hstays]
    exact get?_without (fun _ _ => h.removals) hitem (fun k => hremovals.mem_iff) hremovals' k item'

lemma Linked.removeAll (h : Linked env coins m) {items : List MempoolItem}
    (hitems : ∀ item ∈ items, m.spends.get? item.name = some item) (hnodup : (items.map MempoolItem.name).Nodup) :
    ∃ m', exec (items.forM (Mempool.removeFromPool env)) m = (.ok (), m') ∧ Linked env coins m' ∧
      Shrunk m m' ∧ ∀ item ∈ items, m'.spends.get? item.name = none := by
  induction items generalizing m with
  | nil => exact ⟨m, rfl, h, Std.Refl.refl m, fun item hitem => (nomatch hitem)⟩
  | cons item items ih =>
    rw [map_cons, nodup_cons] at hnodup
    obtain ⟨m₁, hfirst, hdropped, h₁⟩ := h.removeFromPool (hitems item mem_cons_self)
    have hrest : ∀ i ∈ items, m₁.spends.get? i.name = some i := by
      intro i hi
      have hne : i.name ≠ item.name := fun heq => hnodup.1 (heq ▸ mem_map_of_mem hi)
      rw [hdropped.spends, Dict.get?_erase, if_neg hne]
      exact hitems i (mem_cons_of_mem item hi)
    obtain ⟨m', hrun, h', hs, hgone⟩ := ih h₁ hrest hnodup.2
    refine ⟨m', ?_, h', IsTrans.trans _ _ _ hdropped.shrunk hs, ?_⟩
    · rw [exec_forM_cons, exec_bind_of_ok hfirst, hrun]
    intro i hi
    rcases mem_cons.mp hi with rfl | hi
    · apply hs.absent
      rw [hdropped.spends, Dict.get?_erase, if_pos rfl]
    · exact hgone i hi

lemma Linked.makeRoom (h : Linked env coins m) {cost fuel : ℕ} {r : Except PyError Unit}
    (hrun : exec (Mempool.makeRoom env cost fuel) m = (r, m')) : Linked env coins m' := by
  induction fuel generalizing m with
  | zero =>
    cases hrun
    exact h
  | succ fuel ih =>
    unfold Mempool.makeRoom at hrun
    rw [exec_get_bind] at hrun
    split at hrun
    · rw [exec_get_bind, peekLowest_eq h.indexed] at hrun
      rcases hinOrder : m.inOrder with _ | ⟨⟨rate, item⟩, rest⟩
      · rw [hinOrder] at hrun
        cases hrun
        exact h
      rw [hinOrder, exec_lift_ok_bind] at hrun
      have hmem : (rate, item) ∈ m.inOrder := hinOrder ▸ mem_cons_self
      obtain ⟨m₁, hfirst, -, h₁⟩ := h.removeFromPool (h.indexed.mem_inOrder.mp hmem).1
      rw [exec_bind_of_ok hfirst] at hrun
      exact ih h₁ hrun
    · cases hrun
      exact h

lemma get?_with {newItem : MempoolItem}
    (htable : ∀ k item, table.get? k = some item ↔ m.spends.get? item.name = some item ∧ k ∈ names item)
    (hnew : m.spends.get? newItem.name = none) (hfree : ∀ k ∈ names newItem, table.get? k = none) (k : Bytes32)
    (item : MempoolItem) :
    (if k ∈ names newItem then some newItem else table.get? k) = some item ↔
      (m.spends.set newItem.name newItem).get? item.name = some item ∧ k ∈ names item := by
  rw [Dict.get?_set]
  split
  · rename_i hk
    constructor
    · intro heq
      cases heq
      exact ⟨if_pos rfl, hk⟩
    rintro ⟨hget, hk'⟩
    split at hget
    · exact hget
    · have hsome := (htable k item).mpr ⟨hget, hk'⟩
      rw [hfree k hk] at hsome
      cases hsome
  · rename_i hk
    rw [htable]
    constructor
    · rintro ⟨hget, hk'⟩
      have hne : item.name ≠ newItem.name := by
        intro heq
        rw [heq, hnew] at hget
        cases hget
      exact ⟨by rw [if_neg hne]; exact hget, hk'⟩
    rintro ⟨hget, hk'⟩
    split at hget
    · cases hget
      exact absurd hk' hk
    · exact ⟨hget, hk'⟩

lemma Linked.additions_free (h : Linked env coins m) (hinj : Set.InjOn (Coin.name env.stdHash) coins)
    {newItem : MempoolItem} (hok : ItemOk env coins newItem)
    (hspent : ∀ k ∈ spentNames newItem, m.removals.get? k = none) :
    ∀ k ∈ createdNames env newItem, m.additions.get? k = none := by
  intro k hk
  apply Option.eq_none_iff_forall_ne_some.mpr
  intro item hitem
  obtain ⟨hget, hk'⟩ := h.additions.mp hitem
  have hok' := h.items hget
  obtain ⟨c, hc, hname⟩ := mem_map.mp hk
  obtain ⟨c', hc', hname'⟩ := mem_map.mp hk'
  have heq : c = c' := hinj ((hok.stated hok.noError).2 _ hok.additions c hc)
    ((hok'.stated hok'.noError).2 _ hok'.additions c' hc') (hname.trans hname'.symm)
  have hparent := parent_mem_of_additionsForNpc hok.additions hc
  have hparent' := parent_mem_of_additionsForNpc hok'.additions hc'
  rw [← heq] at hparent'
  have hsome := h.removals.mpr ⟨hget, hparent'⟩
  rw [hspent _ hparent] at hsome
  cases hsome

lemma Linked.insertItem (h : Linked env coins m) (hinj : Set.InjOn (Coin.name env.stdHash) coins)
    {newItem : MempoolItem} (hok : ItemOk env coins newItem) (hnew : m.spends.get? newItem.name = none)
    (hspent : ∀ k ∈ spentNames newItem, m.removals.get? k = none) (hroom : m.atFullCapacity newItem.cost = false) :
    Linked env coins (Mempool.insertItem env newItem newItem.additions (spentNames newItem) m) := by
  refine ⟨h.indexed.insertItem hnew hroom _ _, h.max, ?_, ?_, ?_⟩
  · intro k item hk
    unfold Mempool.insertItem at hk
    rw [Dict.get?_set] at hk
    split at hk
    · cases hk
      exact hok
    · exact h.items hk
  · intro k item
    unfold Mempool.insertItem
    rw [get?_foldl_set]
    exact get?_with (fun _ _ => h.additions) hnew (h.additions_free hinj hok hspent) k item
  · intro k item
    unfold Mempool.insertItem
    rw [get?_foldl_set (fun k => k), map_id']
    exact get?_with (fun _ _ => h.removals) hnew hspent k item

section Admitted

variable {newSpend : SpendBundle} {npc : NPCResult} {name : Bytes32} {validate : Bool}
  {peak : BlockRecord} {s : MempoolNode Q} {newItem : MempoolItem}
  {removals : Removals} {replaced : List MempoolItem}

lemma Admitted.coin_of_spent (hkeyed : KeyedStore env.toEnv s.node)
    (h : Admitted env newSpend npc name validate peak s newItem removals replaced)
    (hk : k ∈ spentNames newItem) : ∃ coin ∈ newItem.removals, coin.name env.stdHash = k := by
  obtain ⟨records, hrecords, h₁, -, -⟩ := h.records
  rw [← h.keys.2] at hk
  obtain ⟨record, hrecord⟩ := Dict.mem_keys.mp hk
  refine ⟨record.coin, h.mem_removals.mpr ⟨k, record, hrecord, rfl⟩, ?_⟩
  have hmem := Dict.mem_entries.mpr hrecord
  rw [h₁] at hmem
  exact ((forall₂_iff_zip.mp hrecords).2 hmem).name_eq hkeyed

lemma replaced_of_linked (hlinked : Linked env coins s.manager.mempool) (hkeyed : KeyedStore env.toEnv s.node)
    (h : Admitted env newSpend npc name validate peak s newItem removals replaced) :
    (∀ item ∈ replaced, s.manager.mempool.spends.get? item.name = some item) ∧ (replaced.map MempoolItem.name).Nodup ∧
      ∀ k ∈ spentNames newItem, ∀ item, s.manager.mempool.removals.get? k = some item → item ∈ replaced := by
  have hstored : ∀ item ∈ replaced, s.manager.mempool.spends.get? item.name = some item := by
    intro item hitem
    obtain ⟨k, hk⟩ := h.mem_replaced hitem
    exact (hlinked.removals.mp hk).1
  refine ⟨hstored, ?_⟩
  rcases h.replaced_cases with ⟨rfl, hnone⟩ | ⟨items, rfl, -, hvalues, hall⟩
  · refine ⟨nodup_nil, fun k hk item hitem => ?_⟩
    obtain ⟨coin, hcoin, rfl⟩ := h.coin_of_spent hkeyed hk
    rw [hnone coin hcoin] at hitem
    cases hitem
  constructor
  · have hkeys : (items.entries.map Prod.snd).map MempoolItem.name = items.keys := by
      rw [map_map]
      apply map_congr_left
      intro e he
      exact (hvalues (Dict.mem_entries.mp (show (e.1, e.2) ∈ items.entries from he))).1
    rw [hkeys]
    exact items.nodup
  · intro k hk item hitem
    obtain ⟨coin, hcoin, rfl⟩ := h.coin_of_spent hkeyed hk
    exact mem_values (fun hget => (hvalues hget).1) hstored (hlinked.removals.mp hitem).1 (hall coin hcoin item hitem)

end Admitted

lemma preserved_linked (env : MempoolEnv Q) (hinj : Set.InjOn (Coin.name env.stdHash) coins) :
    Preserved env (Stated env coins) (KeyedStore env.toEnv) (Linked env coins) where
  reads := KeyedStore.of_reads
  new := linked_new
  good h hk := (h.items hk).stated
  includeItem := by
    intro newSpend npc name validate peak s newItem removals replaced r m'
      hkeyed h hgood hadmitted hrun
    -- an entry for a coin of the new item belongs to an item that is replaced
    obtain ⟨hstored, hnodup, hreplaced⟩ := replaced_of_linked h hkeyed hadmitted
    obtain ⟨m₁, hfirst, h₁, hs₁, hgone⟩ := h.removeAll hstored hnodup
    unfold SectorChain.includeItem at hrun
    rw [exec_bind_of_ok hfirst] at hrun
    rcases addToPool_cases hrun with ⟨e, hroom, -⟩ | ⟨-, m₂, hroom, rfl⟩
    · exact h₁.makeRoom hroom
    have h₂ := h₁.makeRoom hroom
    obtain ⟨hs₂, -, hfull⟩ := makeRoom_cases h₁.indexed hroom
    have hs := IsTrans.trans _ _ _ hs₁ hs₂
    rw [hadmitted.keys.1]
    obtain ⟨amount, hcoins, -⟩ := hadmitted.coins
    apply h₂.insertItem hinj _ _ _ (hfull rfl).1
    · refine ⟨?_, ?_, ?_, hadmitted.nodup.1, hadmitted.nodup.2⟩
      · rw [hadmitted.ofNpc]
        exact hadmitted.noError
      · unfold Meets
        rw [hadmitted.ofSpend, hadmitted.ofNpc]
        exact hgood
      · rw [hadmitted.ofNpc]
        exact (checkCoins_ok hcoins).1
    · apply hs.absent
      rw [hadmitted.ofName]
      exact hadmitted.fresh
    intro k hk
    apply Option.eq_none_iff_forall_ne_some.mpr
    intro item hitem
    have hget := hs₂.spends (h₂.removals.mp hitem).1
    rw [hgone item (hreplaced k hk item (hs.removals hitem))] at hget
    cases hget
  remove := by
    intro m item h hitem
    obtain ⟨m', hrun, -, h'⟩ := h.removeFromPool hitem
    rw [hrun]
    exact h'
  evict h := h.makeRoom rfl

lemma preserved_linked_items {Good : Submission} {Sound : Node → Prop} {HasProperty : MempoolItem → Prop}
    (hinj : Set.InjOn (Coin.name env.stdHash) coins) (hstated : ∀ {newSpend npc name}, Good newSpend
      npc name → Stated env coins newSpend npc name)
    (hreads : ∀ {n n'}, Reads env.toEnv n n' → Sound n → Sound n') (hkeyed : ∀ {n}, Sound n → KeyedStore env.toEnv n)
    (hmeets : ∀ {item}, HasProperty item → Meets Good item) (hadmitted : ∀ {newSpend npc name
      validate peak s newItem removals replaced}, Sound s.node → Good newSpend npc name →
      Admitted env newSpend npc name validate peak s newItem removals replaced → HasProperty
      newItem) :
    Preserved env Good Sound fun m => Linked env coins m ∧
      ∀ k item, m.spends.get? k = some item → HasProperty item where
  reads := hreads
  new := ⟨linked_new, fun k item hk => by cases hk⟩
  good h hk := hmeets (h.2 _ _ hk)
  includeItem := by
    intro newSpend npc name validate peak s newItem removals replaced r m'
      hsound h hgood hadm hrun
    refine ⟨(preserved_linked env hinj).includeItem (hkeyed hsound) h.1 (hstated hgood) hadm hrun, ?_⟩
    have hknown : ∀ item ∈ replaced, Known s.manager.mempool item := fun item hitem =>
      .of_stored ((replaced_of_linked h.1 (hkeyed hsound) hadm).1 item hitem)
    rcases includeItem_cases h.1.indexed hknown hrun with ⟨hs, -, -⟩ | ⟨-, m₁, m₂, hincluded⟩
    · exact fun k item hk => h.2 k item (hs.spends hk)
    intro k item hk
    rw [hincluded.inserted] at hk
    unfold Mempool.insertItem at hk
    rw [Dict.get?_set] at hk
    split at hk
    · cases hk
      exact hadmitted hsound hgood hadm
    · exact h.2 k item (hincluded.shrunk₁.spends (hincluded.shrunk₂.spends hk))
  remove := by
    intro m item h hitem
    obtain ⟨m', hrun, hdropped, h'⟩ := h.1.removeFromPool hitem
    rw [hrun]
    exact ⟨h', fun k item' hk => h.2 k item' (hdropped.shrunk.spends hk)⟩
  evict := by
    intro m cost fuel h
    rcases hrun : exec (Mempool.makeRoom env cost fuel) m with ⟨r, m'⟩
    obtain ⟨hs, -, -⟩ := makeRoom_cases h.1.indexed hrun
    exact ⟨h.1.makeRoom hrun, fun k item hk => h.2 k item (hs.spends hk)⟩

/-- All five structures describe `items`, which share no coin and fit. -/
structure Describes (env : MempoolEnv Q) (m : Mempool Q) (items : Finset MempoolItem) : Prop where
  spends : ∀ name item, m.spends.get? name = some item ↔ item ∈ items ∧ item.name = name
  sortedSpends : ∀ rate name item, (∃ d, m.sortedSpends.get? rate = some d ∧ d.get? name = some item) ↔
    item ∈ items ∧ item.feePerCost env = rate ∧ item.name = name
  nonempty : ∀ rate d, m.sortedSpends.get? rate = some d → d.entries ≠ []
  additions : ∀ name item, m.additions.get? name = some item ↔ item ∈ items ∧ name ∈ createdNames env item
  removals : ∀ name item, m.removals.get? name = some item ↔ item ∈ items ∧ name ∈ spentNames item
  cost : m.totalMempoolCost = ∑ item ∈ items, (item.cost : ℤ)
  disjoint : ∀ a ∈ items, ∀ b ∈ items, a ≠ b → (spentNames a).Disjoint (spentNames b)
  fits : m.totalMempoolCost ≤ mempoolMaxTotalCost env

lemma Linked.describes (h : Linked env coins m) : Describes env m (m.inOrder.map Prod.snd).toFinset := by
  have hmem : ∀ item, item ∈ (m.inOrder.map Prod.snd).toFinset ↔ m.spends.get? item.name = some item := by
    intro item
    rw [mem_toFinset, mem_map]
    constructor
    · rintro ⟨⟨rate, item'⟩, hentry, rfl⟩
      exact (h.indexed.mem_inOrder.mp hentry).1
    · intro hget
      exact ⟨(item.feePerCost env, item), h.indexed.mem_inOrder.mpr ⟨hget, rfl⟩, rfl⟩
  constructor
  · intro name item
    rw [hmem]
    constructor
    · intro hget
      have hname := h.indexed.keyed hget
      exact ⟨hname ▸ hget, hname⟩
    · rintro ⟨hget, rfl⟩
      exact hget
  · intro rate name item
    rw [hmem, ← Option.bind_eq_some_iff]
    change Buckets.find m.sortedSpends rate name = some item ↔ _
    rw [h.indexed.find]
    constructor
    · rintro ⟨hget, hrate⟩
      have hname := h.indexed.keyed hget
      exact ⟨hname ▸ hget, hrate, hname⟩
    · rintro ⟨hget, hrate, rfl⟩
      exact ⟨hget, hrate⟩
  · exact fun _ _ => h.indexed.nonempty
  · intro name item
    rw [hmem, h.additions]
  · intro name item
    rw [hmem, h.removals]
  · have hnodup : (m.inOrder.map Prod.snd).Nodup := by
      have hnames := h.indexed.nodup_inOrder
      rw [show (m.inOrder.map fun e => e.2.name) = (m.inOrder.map Prod.snd).map MempoolItem.name by
        rw [map_map]; rfl] at hnames
      exact hnames.of_map _
    rw [h.indexed.cost, sum_toFinset _ hnodup, map_map]
    rfl
  · intro a ha b hb hne k hka hkb
    have h₁ := h.removals.mpr ⟨(hmem a).mp ha, hka⟩
    have h₂ := h.removals.mpr ⟨(hmem b).mp hb, hkb⟩
    exact hne (Option.some.inj (h₁.symm.trans h₂))
  · rw [← h.max]
    exact h.indexed.fits

/-- In every reachable state the mempool describes one set of items, if bundles state their coins. -/
theorem mempool_describes_items (env : MempoolEnv Q) (coins : Set Coin) (hinj : Set.InjOn (Coin.name env.stdHash) coins)
    {s : MempoolManager Q} (hs : Reached env (Stated env coins) (KeyedStore env.toEnv) s) :
    ∃ items, Describes env s.mempool items :=
  ⟨_, (hs.safe (preserved_linked env hinj)).pool.describes⟩

lemma keyedStore_nodeWith (l : List Coin) : KeyedStore (sampleMempoolEnv 10).toEnv (nodeWith l) :=
  ⟨fun hk => (get?_nodeWith hk).2, fun hk => (by cases hk)⟩

/-- A mempool with two items. -/
theorem sample_mempool_describes_items : twoItemManager.mempool.spends.entries.length = 2 ∧
      ∃ items, Describes (sampleMempoolEnv 10) twoItemManager.mempool items := by
  refine ⟨by decide +kernel, mempool_describes_items (sampleMempoolEnv 10) {c | c ∈ [sampleChild, otherChild]} ?_ ?_⟩
  · exact fun _ hc _ hc' h => inj_on_of_nodup_map
      (show ([sampleChild, otherChild].map (Coin.name sampleHash)).Nodup by decide +kernel) hc hc' h
  have hstated : ∀ e ∈ [(sampleBundle, sampleChild), (generousBundle, otherChild)], ∀ name,
      Stated (sampleMempoolEnv 10) {c | c ∈ [sampleChild, otherChild]} e.1
        (preValidateSpendbundle (sampleMempoolEnv 10) e.1) name := by
    intro e he name _
    obtain ⟨hremovals, hadditions, hcreated⟩ := preValidate_sampleBundles e he
    refine ⟨⟨List.Perm.of_eq hremovals, fun created h => ?_⟩, fun created h c hc => ?_⟩
    · cases hcreated.symm.trans h
      exact ⟨_, hadditions, List.Perm.refl _⟩
    · cases hcreated.symm.trans h
      rw [mem_singleton.mp hc]
      exact mem_map_of_mem he
  have hnode := keyedStore_nodeWith [sampleCoin, otherCoin]
  exact reached_submit (reached_submit (reached_atPeak hnode) hnode (hstated _ mem_cons_self _)) hnode
    (hstated _ (mem_cons_of_mem _ mem_cons_self) _)

end SectorChain.Proofs
