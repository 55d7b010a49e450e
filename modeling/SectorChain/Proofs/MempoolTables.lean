import SectorChain.FullNode.Mempool
import SectorChain.Lib.Buckets
import Mathlib.Algebra.Order.BigOperators.Group.List

/-!
# The tables of the mempool

They stay in step whatever the bundles state.
-/

namespace SectorChain.Proofs

open Lib List Dict

variable {r : Except PyError Unit}

lemma sum_cost_nonneg {Q : Type} (l : List (Q × MempoolItem)) : 0 ≤ (l.map fun e => (e.2.cost : ℤ)).sum := by
  apply sum_nonneg
  intro x hx
  obtain ⟨e, -, rfl⟩ := mem_map.mp hx
  exact Int.natCast_nonneg _

variable {Q : Type} [LinearOrder Q]

/-- Names, fees per cost and the total cost describe the same items, which fit. -/
structure Indexed (env : MempoolEnv Q) (m : Mempool Q) : Prop where
  keyed : ∀ {name item}, m.spends.get? name = some item → item.name = name
  find : ∀ {rate name item}, Buckets.find m.sortedSpends rate name = some item ↔
    m.spends.get? name = some item ∧ item.feePerCost env = rate
  nonempty : ∀ {rate d}, m.sortedSpends.get? rate = some d → d.entries ≠ []
  cost : m.totalMempoolCost = (m.inOrder.map fun e => (e.2.cost : ℤ)).sum
  fits : m.totalMempoolCost ≤ m.maxSizeInCost

/-- The tables of coins have no new entries. -/
structure Released (m m' : Mempool Q) : Prop where
  max : m'.maxSizeInCost = m.maxSizeInCost
  removals : ∀ {name item}, m'.removals.get? name = some item → m.removals.get? name = some item
  additions : ∀ {name item}, m'.additions.get? name = some item → m.additions.get? name = some item

/-- Only entries of the tables of coins were deleted. -/
structure Trimmed (m m' : Mempool Q) : Prop extends Released m m' where
  spends : m'.spends = m.spends
  sortedSpends : m'.sortedSpends = m.sortedSpends
  total : m'.totalMempoolCost = m.totalMempoolCost

/-- An item was taken out. -/
structure Dropped (item : MempoolItem) (m m' : Mempool Q) : Prop extends Released m m' where
  stored : m.spends.get? item.name = some item
  spends : m'.spends = m.spends.erase item.name
  inOrder : m'.inOrder = m.inOrder.filter fun e => e.2.name ≠ item.name

structure Shrunk (m m' : Mempool Q) : Prop extends Released m m' where
  spends : ∀ {name item}, m'.spends.get? name = some item → m.spends.get? name = some item
  inOrder : m'.inOrder.Sublist m.inOrder

variable {env : MempoolEnv Q} {m m₁ m' : Mempool Q} {item : MempoolItem}

lemma Released.trans (h : Released m m₁) (h' : Released m₁ m') : Released m m' :=
  ⟨h'.max.trans h.max, fun hk => h.removals (h'.removals hk), fun hk => h.additions (h'.additions hk)⟩

instance : Std.Refl (Trimmed (Q := Q)) := ⟨fun _ => ⟨⟨rfl, id, id⟩, rfl, rfl, rfl⟩⟩

instance : IsTrans (Mempool Q) Trimmed where
  trans _ _ _ h h' := ⟨h.toReleased.trans h'.toReleased, h'.spends.trans h.spends,
    h'.sortedSpends.trans h.sortedSpends, h'.total.trans h.total⟩

instance : Std.Refl (Shrunk (Q := Q)) := ⟨fun _ => ⟨⟨rfl, id, id⟩, id, List.Sublist.refl _⟩⟩

instance : IsTrans (Mempool Q) Shrunk where
  trans _ _ _ h h' := ⟨h.toReleased.trans h'.toReleased, fun hk => h.spends (h'.spends hk),
    h'.inOrder.trans h.inOrder⟩

lemma Trimmed.inOrder (h : Trimmed m m') : m'.inOrder = m.inOrder := by
  unfold Mempool.inOrder
  rw [h.sortedSpends]

/-- A table of coins only knows items as the table of items has them. -/
def Known (m : Mempool Q) (item : MempoolItem) : Prop :=
  ∀ item', m.spends.get? item.name = some item' → item' = item

lemma Known.of_stored (h : m.spends.get? item.name = some item) : Known m item :=
  fun _ hget => Option.some.inj (hget.symm.trans h)

lemma Known.of_shrunk (h : Known m item) (hs : Shrunk m m') : Known m' item :=
  fun item' hget => h item' (hs.spends hget)

lemma Shrunk.absent (hs : Shrunk m m') {name : Bytes32} (h : m.spends.get? name = none) :
    m'.spends.get? name = none := by
  apply Option.eq_none_iff_forall_ne_some.mpr
  intro item hitem
  rw [hs.spends hitem] at h
  cases h

lemma inOrder_eq (m : Mempool Q) : m.inOrder = (Buckets.list m.sortedSpends).map fun x => (x.1, x.2.2) := by
  unfold Mempool.inOrder Buckets.list
  rw [map_flatMap]
  apply flatMap_congr
  intro bucket _
  rw [map_map]
  rfl

lemma pairwise_inOrder (m : Mempool Q) : m.inOrder.Pairwise fun x y => x.1 ≤ y.1 := by
  rw [inOrder_eq]
  exact pairwise_map.mpr (Buckets.pairwise_list _)

namespace Indexed

lemma mem_inOrder (h : Indexed env m) {rate : Q} :
    (rate, item) ∈ m.inOrder ↔ m.spends.get? item.name = some item ∧ item.feePerCost env = rate := by
  rw [inOrder_eq, mem_map]
  constructor
  · rintro ⟨⟨r, name, v⟩, hmem, heq⟩
    cases heq
    obtain ⟨hget, hrate⟩ := h.find.mp (Buckets.mem_list.mp hmem)
    rw [h.keyed hget]
    exact ⟨hget, hrate⟩
  · rintro ⟨hget, hrate⟩
    exact ⟨(rate, item.name, item), Buckets.mem_list.mpr (h.find.mpr ⟨hget, hrate⟩), rfl⟩

lemma nodup_inOrder (h : Indexed env m) : (m.inOrder.map fun e => e.2.name).Nodup := by
  rw [inOrder_eq, map_map]
  have hlist := Buckets.nodup_list m.sortedSpends
  apply pairwise_map.mpr
  apply (pairwise_map.mp hlist).imp_of_mem
  rintro ⟨r, k, v⟩ ⟨r', k', v'⟩ hx hy hne heq
  obtain ⟨hget, hrate⟩ := h.find.mp (Buckets.mem_list.mp hx)
  obtain ⟨hget', hrate'⟩ := h.find.mp (Buckets.mem_list.mp hy)
  have hk : k = k' := by
    rw [← h.keyed hget, ← h.keyed hget']
    exact heq
  subst hk
  cases Option.some.inj (hget.symm.trans hget')
  apply hne
  rw [← hrate, ← hrate']

lemma cost_filter (h : Indexed env m) (hitem : m.spends.get? item.name = some item) :
    ((m.inOrder.filter fun e => e.2.name ≠ item.name).map fun e => (e.2.cost : ℤ)).sum =
      m.totalMempoolCost - item.cost := by
  have hmem : (item.feePerCost env, item) ∈ m.inOrder := h.mem_inOrder.mpr ⟨hitem, rfl⟩
  have hnodup := h.nodup_inOrder
  rw [h.cost]
  generalize m.inOrder = l at hmem hnodup
  induction l with
  | nil => cases hmem
  | cons e l ih =>
    rw [map_cons, nodup_cons] at hnodup
    rw [filter_cons, map_cons, sum_cons]
    rcases mem_cons.mp hmem with rfl | hmem
    · have hrest : (l.filter fun e => e.2.name ≠ item.name) = l := by
        apply filter_eq_self.mpr
        intro e' he'
        have hne : e'.2.name ≠ item.name := fun heq => hnodup.1 (mem_map.mpr ⟨e', he', heq⟩)
        simpa using hne
      rw [if_neg (by simp), hrest]
      exact (add_sub_cancel_left _ _).symm
    · have hne : e.2.name ≠ item.name := fun heq => hnodup.1 (mem_map.mpr ⟨_, hmem, heq.symm⟩)
      rw [if_pos (by simpa using hne), map_cons, sum_cons, ih hmem hnodup.2]
      omega

lemma of_trimmed (h : Indexed env m) (ht : Trimmed m m') : Indexed env m' := by
  constructor
  · intro name item hget
    exact h.keyed (ht.spends ▸ hget)
  · intro rate name item
    rw [ht.sortedSpends, ht.spends]
    exact h.find
  · intro rate d hd
    exact h.nonempty (ht.sortedSpends ▸ hd)
  · rw [ht.total, ht.inOrder]
    exact h.cost
  · rw [ht.total, ht.max]
    exact h.fits

end Indexed

lemma indexed_new (maxSizeInCost : ℕ) : Indexed env (Mempool.new maxSizeInCost) := by
  constructor
  · intro name item h
    cases h
  · intro rate name item
    constructor
    · intro h
      cases h
    · rintro ⟨h, -⟩
      cases h
  · intro rate d h
    cases h
  · rfl
  · exact Int.natCast_nonneg _

lemma exec_delRemoval (name : Bytes32) (m : Mempool Q) :
    exec (Mempool.delRemoval name) m = if m.removals.contains name then
      (.ok (), { m with removals := m.removals.erase name }) else (.error .keyError, m) := by
  unfold Mempool.delRemoval delKey
  rw [exec_get_bind]
  split <;> rfl

lemma exec_delAddition (name : Bytes32) (m : Mempool Q) :
    exec (Mempool.delAddition name) m = if m.additions.contains name then
      (.ok (), { m with additions := m.additions.erase name }) else (.error .keyError, m) := by
  unfold Mempool.delAddition delKey
  rw [exec_get_bind]
  split <;> rfl

lemma exec_delSpend (name : Bytes32) (m : Mempool Q) :
    exec (Mempool.delSpend name) m = if m.spends.contains name then
      (.ok (), { m with spends := m.spends.erase name }) else (.error .keyError, m) := by
  unfold Mempool.delSpend delKey
  rw [exec_get_bind]
  split <;> rfl

lemma exec_delSorted {rate : Q} {name : Bytes32} {m : Mempool Q} {d : Dict Bytes32 MempoolItem}
    (hd : m.sortedSpends.get? rate = some d) (hname : d.contains name = true) :
    exec (Mempool.delSorted rate name) m =
      (.ok (), { m with sortedSpends := Buckets.remove m.sortedSpends rate (d.erase name) }) := by
  unfold Mempool.delSorted delKey
  rw [exec_get_bind, hd]
  dsimp only
  rw [hname]
  rfl

lemma get?_of_erase {κ ν : Type} [DecidableEq κ] {d : Dict κ ν} {k k' : κ} {v : ν}
    (h : (d.erase k).get? k' = some v) : d.get? k' = some v := by
  rw [get?_erase] at h
  split at h
  · cases h
  · exact h

lemma keeps_delRemoval (name : Bytes32) : Keeps Trimmed (Mempool.delRemoval (Q := Q) name) := by
  intro m
  rw [exec_delRemoval]
  split
  · exact ⟨⟨rfl, get?_of_erase, id⟩, rfl, rfl, rfl⟩
  · exact Std.Refl.refl m

lemma keeps_delAddition (name : Bytes32) : Keeps Trimmed (Mempool.delAddition (Q := Q) name) := by
  intro m
  rw [exec_delAddition]
  split
  · exact ⟨⟨rfl, id, get?_of_erase⟩, rfl, rfl, rfl⟩
  · exact Std.Refl.refl m

def dropIndex (env : MempoolEnv Q) (item : MempoolItem) (d : Dict Bytes32 MempoolItem) (m : Mempool Q) :
    Mempool Q :=
  { m with
    spends := m.spends.erase item.name
    sortedSpends := Buckets.remove m.sortedSpends (item.feePerCost env) (d.erase item.name)
    totalMempoolCost := m.totalMempoolCost - item.cost }

lemma Indexed.bucket (h : Indexed env m) (hitem : m.spends.get? item.name = some item) :
    ∃ d, m.sortedSpends.get? (item.feePerCost env) = some d ∧ d.get? item.name = some item :=
  Option.bind_eq_some_iff.mp (h.find.mpr ⟨hitem, rfl⟩)

lemma Indexed.inOrder_dropIndex (h : Indexed env m) (hitem : m.spends.get? item.name = some item)
    {d : Dict Bytes32 MempoolItem} (hd : m.sortedSpends.get? (item.feePerCost env) = some d) :
    (dropIndex env item d m).inOrder = m.inOrder.filter fun e => e.2.name ≠ item.name := by
  rw [inOrder_eq, inOrder_eq, filter_map]
  unfold dropIndex
  rw [Buckets.list_remove _ hd]
  congr 1
  apply filter_congr
  rintro ⟨r, k, v⟩ hx
  obtain ⟨hget, hrate⟩ := h.find.mp (Buckets.mem_list.mp hx)
  have hkey := h.keyed hget
  simp only [Function.comp_apply, decide_eq_decide]
  constructor
  · rintro hne heq
    rw [hkey] at heq
    subst heq
    cases Option.some.inj (hget.symm.trans hitem)
    exact hne ⟨hrate.symm, rfl⟩
  · rintro hne ⟨-, rfl⟩
    exact hne hkey

lemma Indexed.dropIndex (h : Indexed env m) (hitem : m.spends.get? item.name = some item)
    {d : Dict Bytes32 MempoolItem} (hd : m.sortedSpends.get? (item.feePerCost env) = some d) :
    Indexed env (dropIndex env item d m) := by
  constructor
  · intro name item' hget
    exact h.keyed (get?_of_erase hget)
  · intro rate name item'
    unfold Proofs.dropIndex
    rw [Buckets.find_remove _ hd, get?_erase]
    by_cases hname : name = item.name
    · split
      · simp
      rename_i hrate
      constructor
      · intro hfind
        obtain ⟨hget, hrate'⟩ := h.find.mp hfind
        rw [hname, hitem] at hget
        cases hget
        exact absurd ⟨hrate'.symm, hname⟩ hrate
      · rintro ⟨hnone, -⟩
        cases hnone
    · rw [if_neg hname, if_neg fun hand => hname hand.2]
      exact h.find
  · intro rate d' hd'
    unfold Proofs.dropIndex Buckets.remove at hd'
    split at hd'
    · rw [SortedDict.get?_erase] at hd'
      split at hd'
      · cases hd'
      · exact h.nonempty hd'
    rename_i hlength
    rw [SortedDict.get?_set] at hd'
    split at hd'
    · cases hd'
      exact fun hnil => hlength (by rw [hnil]; rfl)
    · exact h.nonempty hd'
  · rw [h.inOrder_dropIndex hitem hd, h.cost_filter hitem]
    rfl
  · have hfits := h.fits
    change m.totalMempoolCost - item.cost ≤ m.maxSizeInCost
    omega

lemma exec_dropItem (h : Indexed env m) (hitem : m.spends.get? item.name = some item) :
    ∃ d, m.sortedSpends.get? (item.feePerCost env) = some d ∧ exec (do
        Mempool.delSpend item.name
        Mempool.delSorted (item.feePerCost env) item.name
        Mempool.releaseCost item.cost : MempoolM Q Unit) m = (.ok (), dropIndex env item d m) := by
  obtain ⟨d, hd, hname⟩ := h.bucket hitem
  have hnonneg : 0 ≤ m.totalMempoolCost - item.cost := by
    rw [← h.cost_filter hitem]
    exact sum_cost_nonneg _
  refine ⟨d, hd, ?_⟩
  rw [exec_bind, exec_delSpend, if_pos (Dict.contains_iff.mpr ⟨item, hitem⟩)]
  dsimp only
  rw [exec_bind, exec_delSorted (m := { m with spends := m.spends.erase item.name }) hd
    (Dict.contains_iff.mpr ⟨item, hname⟩)]
  dsimp only
  unfold Mempool.releaseCost
  rw [exec_modify_bind, exec_get_bind]
  rw [decide_eq_true hnonneg]
  rfl

lemma removeFromPool_cases (h : Indexed env m) (hitem : Known m item)
    (hrun : exec (Mempool.removeFromPool env item) m = (r, m')) :
    (Trimmed m m' ∧ ∃ e, r = .error e) ∨ (r = .ok () ∧ Dropped item m m' ∧ Indexed env m') := by
  rcases exec_lift_bind_cases hrun with ⟨e, -, rfl, rfl⟩ | ⟨additions, -, hrun⟩
  · exact .inl ⟨Std.Refl.refl _, e, rfl⟩
  have hrem : Keeps Trimmed (item.spendBundle.removals.forM fun rem =>
    Mempool.delRemoval (rem.name env.stdHash) : MempoolM Q Unit) := keeps_forM fun _ _ => keeps_delRemoval _
  have hadd : Keeps Trimmed (additions.forM fun add => Mempool.delAddition (add.name env.stdHash) : MempoolM Q Unit) :=
    keeps_forM fun _ _ => keeps_delAddition _
  rcases exec_bind_cases hrun with ⟨e, hrun₁, rfl⟩ | ⟨_, m₁, hrun₁, hrun⟩
  · exact .inl ⟨hrem.rel hrun₁, e, rfl⟩
  rcases exec_bind_cases hrun with ⟨e, hrun₂, rfl⟩ | ⟨_, m₂, hrun₂, hrun⟩
  · exact .inl ⟨IsTrans.trans _ _ _ (hrem.rel hrun₁) (hadd.rel hrun₂), e, rfl⟩
  have ht : Trimmed m m₂ := IsTrans.trans _ _ _ (hrem.rel hrun₁) (hadd.rel hrun₂)
  have h₂ := h.of_trimmed ht
  by_cases hcontains : m₂.spends.contains item.name = true
  · obtain ⟨item', hget⟩ := Dict.contains_iff.mp hcontains
    have hget : m₂.spends.get? item.name = some item := by
      rw [hget, hitem item' (ht.spends ▸ hget)]
    obtain ⟨d, hd, hdrop⟩ := exec_dropItem h₂ hget
    rw [hdrop] at hrun
    cases hrun
    refine .inr ⟨rfl, ⟨⟨ht.max, ht.removals, ht.additions⟩, ht.spends ▸ hget, ?_, ?_⟩, h₂.dropIndex hget hd⟩
    · exact congrArg (fun d => Dict.erase d item.name) ht.spends
    · rw [h₂.inOrder_dropIndex hget hd, ht.inOrder]
  · rw [exec_bind, exec_delSpend, if_neg hcontains] at hrun
    cases hrun
    exact .inl ⟨ht, _, rfl⟩

lemma removeFromPool_ok (h : Indexed env m) (hitem : Known m item)
    (hrun : exec (Mempool.removeFromPool env item) m = (.ok (), m')) : Dropped item m m' ∧ Indexed env m' := by
  rcases removeFromPool_cases h hitem hrun with ⟨-, e, hr⟩ | ⟨-, hdropped⟩
  · cases hr
  · exact hdropped

lemma Trimmed.shrunk (h : Trimmed m m') : Shrunk m m' := by
  refine ⟨h.toReleased, fun hk => h.spends ▸ hk, ?_⟩
  rw [h.inOrder]

lemma Dropped.shrunk (h : Dropped item m m') : Shrunk m m' := by
  refine ⟨h.toReleased, fun hk => get?_of_erase (h.spends ▸ hk), ?_⟩
  rw [h.inOrder]
  exact filter_sublist

lemma removeFromPool_shrunk (h : Indexed env m) (hitem : Known m item)
    (hrun : exec (Mempool.removeFromPool env item) m = (r, m')) : Shrunk m m' ∧ Indexed env m' := by
  rcases removeFromPool_cases h hitem hrun with ⟨ht, -⟩ | ⟨-, hd, h'⟩
  · exact ⟨ht.shrunk, h.of_trimmed ht⟩
  · exact ⟨hd.shrunk, h'⟩

lemma removeAll_shrunk (h : Indexed env m) {items : List MempoolItem} (hitems : ∀ item ∈ items, Known m item)
    (hrun : exec (items.forM (Mempool.removeFromPool env)) m = (r, m')) : Shrunk m m' ∧ Indexed env m' := by
  induction items generalizing m with
  | nil =>
    cases hrun
    exact ⟨Std.Refl.refl _, h⟩
  | cons item items ih =>
    rcases exec_bind_cases hrun with ⟨e, hfirst, rfl⟩ | ⟨_, m₁, hfirst, hrun⟩
    · exact removeFromPool_shrunk h (hitems item mem_cons_self) hfirst
    · obtain ⟨hs₁, h₁⟩ := removeFromPool_shrunk h (hitems item mem_cons_self) hfirst
      obtain ⟨hs₂, h₂⟩ := ih h₁
        (fun i hi => (hitems i (mem_cons_of_mem item hi)).of_shrunk hs₁) hrun
      exact ⟨IsTrans.trans _ _ _ hs₁ hs₂, h₂⟩

lemma peekLowest_eq (h : Indexed env m) : m.peekLowest = match m.inOrder with
      | [] => .error .indexError
      | e :: _ => .ok e.2 := by
  unfold Mempool.peekLowest Mempool.inOrder
  rcases hentries : m.sortedSpends.entries with _ | ⟨⟨rate, d⟩, rest⟩
  · rfl
  have hd : m.sortedSpends.get? rate = some d := by
    apply SortedDict.mem_entries.mp
    rw [hentries]
    exact mem_cons_self
  have hne := h.nonempty hd
  rw [flatMap_cons]
  rcases hd' : d.entries with _ | ⟨⟨name, item⟩, tail⟩
  · exact absurd hd' hne
  · dsimp only
    rw [hd']
    rfl

/-- An item that goes to make room is the first of a mempool that is still full. -/
def Evicted (env : MempoolEnv Q) (cost : ℕ) (m : Mempool Q) (e : Q × MempoolItem) : Prop :=
  ∃ m₁, Shrunk m m₁ ∧ Indexed env m₁ ∧ m₁.atFullCapacity cost = true ∧ m₁.inOrder.head? = some e

lemma makeRoom_cases (h : Indexed env m) {cost fuel : ℕ} (hrun : exec (Mempool.makeRoom env cost fuel) m = (r, m')) :
    Shrunk m m' ∧ Indexed env m' ∧ (r = .ok () → m'.atFullCapacity cost = false ∧
      ∀ e ∈ m.inOrder, e ∉ m'.inOrder → Evicted env cost m e) := by
  induction fuel generalizing m with
  | zero =>
    cases hrun
    exact ⟨Std.Refl.refl _, h, fun hr => nomatch hr⟩
  | succ fuel ih =>
    unfold Mempool.makeRoom at hrun
    rw [exec_get_bind] at hrun
    by_cases hfull : m.atFullCapacity cost = true
    · rw [if_pos hfull, exec_get_bind, peekLowest_eq h] at hrun
      rcases hinOrder : m.inOrder with _ | ⟨⟨rate, item⟩, rest⟩
      · rw [hinOrder] at hrun
        cases hrun
        exact ⟨Std.Refl.refl _, h, fun hr => nomatch hr⟩
      rw [hinOrder, exec_lift_ok_bind] at hrun
      have hmem : (rate, item) ∈ m.inOrder := hinOrder ▸ mem_cons_self
      have hknown := Known.of_stored (h.mem_inOrder.mp hmem).1
      rcases exec_bind_cases hrun with ⟨e, hfirst, rfl⟩ | ⟨_, m₁, hfirst, hrun⟩
      · obtain ⟨hs, h'⟩ := removeFromPool_shrunk h hknown hfirst
        exact ⟨hs, h', fun hr => nomatch hr⟩
      obtain ⟨hdropped, h₁⟩ := removeFromPool_ok h hknown hfirst
      obtain ⟨hs₂, h₂, hok⟩ := ih h₁ hrun
      refine ⟨IsTrans.trans _ _ _ hdropped.shrunk hs₂, h₂, fun hr => ⟨(hok hr).1, ?_⟩⟩
      intro e he hgone
      rw [← hinOrder] at he
      by_cases hname : e.2.name = item.name
      · -- the item that was taken out in this round
        obtain ⟨hget, hrate⟩ := h.mem_inOrder.mp (show (e.1, e.2) ∈ m.inOrder from he)
        rw [hname] at hget
        have heq : e = (rate, item) := by
          have h₂ := hknown e.2 hget
          exact Prod.ext (by rw [← hrate, h₂]; exact (h.mem_inOrder.mp hmem).2) h₂
        refine ⟨m, Std.Refl.refl m, h, hfull, ?_⟩
        rw [hinOrder, heq]
        rfl
      · have he₁ : e ∈ m₁.inOrder := by
          rw [hdropped.inOrder]
          exact mem_filter.mpr ⟨he, by simpa using hname⟩
        obtain ⟨m₂, hs, rest⟩ := (hok hr).2 e he₁ hgone
        exact ⟨m₂, IsTrans.trans _ _ _ hdropped.shrunk hs, rest⟩
    · rw [if_neg hfull] at hrun
      cases hrun
      refine ⟨Std.Refl.refl _, h, fun _ => ⟨by simpa using hfull, ?_⟩⟩
      intro e he hgone
      exact absurd he hgone

lemma Indexed.perm_insertItem (h : Indexed env m) (hnew : m.spends.get? item.name = none) (additions : List Coin)
    (names : List Bytes32) : (Mempool.insertItem env item additions names m).inOrder.Perm
      ((item.feePerCost env, item) :: m.inOrder) := by
  have hfind : Buckets.find m.sortedSpends (item.feePerCost env) item.name = none := by
    apply Option.eq_none_iff_forall_ne_some.mpr
    intro item' hfind
    rw [(h.find.mp hfind).1] at hnew
    cases hnew
  rw [inOrder_eq, inOrder_eq]
  exact (Buckets.perm_list_insert item hfind).map fun x => (x.1, x.2.2)

lemma Indexed.insertItem (h : Indexed env m) (hnew : m.spends.get? item.name = none)
    (hroom : m.atFullCapacity item.cost = false) (additions : List Coin) (names : List Bytes32) :
    Indexed env (Mempool.insertItem env item additions names m) := by
  constructor
  · intro name item' hget
    unfold Mempool.insertItem at hget
    rw [get?_set] at hget
    split at hget
    · rename_i hname
      cases hget
      exact hname.symm
    · exact h.keyed hget
  · intro rate name item'
    change Buckets.find (Buckets.insert m.sortedSpends _ _ _) _ _ = _ ↔ (m.spends.set item.name item).get? name = _ ∧ _
    rw [Buckets.find_insert, get?_set]
    by_cases hname : name = item.name
    · rw [if_pos hname]
      by_cases hrate : rate = item.feePerCost env
      · rw [if_pos ⟨hrate, hname⟩]
        constructor
        · intro heq
          cases heq
          exact ⟨rfl, hrate.symm⟩
        · exact And.left
      rw [if_neg fun hand => hrate hand.1, hname]
      constructor
      · intro hfind'
        rw [(h.find.mp hfind').1] at hnew
        cases hnew
      · rintro ⟨heq, hrate'⟩
        cases heq
        exact absurd hrate'.symm hrate
    · rw [if_neg hname, if_neg fun hand => hname hand.2]
      exact h.find
  · intro rate d hd
    unfold Mempool.insertItem at hd
    rw [SortedDict.get?_set] at hd
    split at hd
    · cases hd
      intro hnil
      have hget := get?_set_self
        ((m.sortedSpends.get? (item.feePerCost env)).getD .empty) item.name item
      unfold Dict.get? at hget
      rw [hnil] at hget
      cases hget
    · exact h.nonempty hd
  · rw [((h.perm_insertItem hnew additions names).map _).sum_eq, map_cons, sum_cons, ← h.cost]
    exact add_comm _ _
  · exact not_lt.mp (of_decide_eq_false hroom)

end SectorChain.Proofs
