import SectorChain.Wallet.WalletStores
import Mathlib.Data.List.Chain

/-!
# The spends of pool wallets

Cache and table lose the same since the heights of a wallet never fall.
-/

namespace SectorChain.Proofs.PoolHistory

open Lib WalletPoolStore List Dict

variable {hash : Bytes → Bytes32} {s s' : WalletPoolStore} {spend : CoinSolution} {w height : ℕ}
variable {items : List (ℕ × CoinSolution)}

/-- A spend follows another one: its coin is a child of the coin of the other, and it is not lower. -/
def Link (stdHash : Bytes → Bytes32) (a b : ℕ × CoinSolution) : Prop :=
  a.1 ≤ b.1 ∧ b.2.coin.parentCoinInfo = a.2.coin.name stdHash

/-- The table has the cached spends of each wallet as its rows, and they form a line. -/
structure Consistent (stdHash : Bytes → Bytes32) (s : WalletPoolStore) : Prop where
  rows : ∀ w i, s.poolStateTransitions.get? (i, w) = (getSpendsForWallet s w)[i]?.map fun item => ⟨i, w, item.1, item.2⟩
  linked : ∀ w, (getSpendsForWallet s w).IsChain (Link stdHash)

structure Appended (stdHash : Bytes → Bytes32) (s : WalletPoolStore) (w : ℕ) (item : ℕ × CoinSolution)
    (s' : WalletPoolStore) : Prop where
  link : ∀ last ∈ (getSpendsForWallet s w).getLast?, Link stdHash last item
  spends : ∀ w', getSpendsForWallet s' w' = if w' = w then getSpendsForWallet s w ++ [item] else getSpendsForWallet s w'
  rows : s'.poolStateTransitions = s.poolStateTransitions.set ((getSpendsForWallet s w).length, w)
    ⟨(getSpendsForWallet s w).length, w, item.1, item.2⟩

/-- A call is refused, or appends an entry, or its statement raises. -/
def AddOutcome (stdHash : Bytes → Bytes32) (fault : Option PyError) (s : WalletPoolStore) (w : ℕ)
    (item : ℕ × CoinSolution) (r : Except PyError Unit) (s' : WalletPoolStore) : Prop :=
  s' = s ∨ r = .ok () ∧ fault = none ∧ Appended stdHash s w item s' ∨
    (∃ e, fault = some e) ∧ s'.poolStateTransitions = s.poolStateTransitions

lemma appendSpend_cases {item : ℕ × CoinSolution} {fault : Option PyError} {r : Except PyError Unit}
    {cache : Dict ℕ (List (ℕ × CoinSolution))} (hlink : ∀ last ∈ items.getLast?, Link hash last item)
    (hitems : getSpendsForWallet s w = items) (hcache : ∀ w' ≠ w, cache.get? w' = s.stateTransitionsCache.get? w')
    (hrun : exec (appendSpend w items item fault) { s with stateTransitionsCache := cache } = (r, s')) :
    AddOutcome hash fault s w item r s' := by
  unfold appendSpend at hrun
  cases fault with
  | some e =>
    simp at hrun
    obtain ⟨rfl, rfl⟩ := hrun
    exact .inr (.inr ⟨⟨e, rfl⟩, rfl⟩)
  | none =>
    simp at hrun
    obtain ⟨rfl, rfl⟩ := hrun
    subst hitems
    refine .inr (.inl ⟨rfl, rfl, hlink, fun w' => ?_, rfl⟩)
    by_cases hw : w' = w
    · simp [getSpendsForWallet, hw]
    · simp [getSpendsForWallet, get?_set, hw, hcache]

/-- All that a call of `add_spend` can do. -/
lemma addSpend_cases {fault : Option PyError} {r : Except PyError Unit}
    (hrun : exec (addSpend hash w spend height fault) s = (r, s')) : AddOutcome hash fault s w (height, spend) r s' := by
  unfold addSpend at hrun
  cases hentry : s.stateTransitionsCache.get? w with
  | none =>
    have hitems : getSpendsForWallet s w = [] := by simp [getSpendsForWallet, hentry]
    have hcontains : s.stateTransitionsCache.contains w = false := by simp [Dict.contains, hentry]
    simp [hcontains, getSpendsForWallet] at hrun
    exact appendSpend_cases (by simp) hitems (fun w' hw => get?_set_of_ne _ _ hw) hrun
  | some items =>
    have hitems : getSpendsForWallet s w = items := by simp [getSpendsForWallet, hentry]
    have hcontains : s.stateTransitionsCache.contains w = true := by simp [Dict.contains, hentry]
    simp only [hcontains, Bool.not_true, Bool.false_eq_true, if_false, exec_get_bind, hitems] at hrun
    by_cases hmem : (height, spend) ∈ items
    · rw [if_pos hmem] at hrun
      cases hrun
      exact .inl rfl
    rw [if_neg hmem] at hrun
    cases hlast : items.getLast? with
    | none =>
      simp [hlast] at hrun
      exact appendSpend_cases (by simp [hlast]) hitems (fun _ _ => rfl) hrun
    | some last =>
      simp only [hlast] at hrun
      by_cases hlow : height < last.1
      · simp [hlow] at hrun
        exact .inl hrun.2.symm
      by_cases hparent : spend.coin.parentCoinInfo = last.2.coin.name hash
      · simp [hlow, hparent] at hrun
        refine appendSpend_cases (fun last' h => ?_) hitems (fun _ _ => rfl) hrun
        obtain rfl := Option.some.inj (hlast.symm.trans h)
        exact ⟨Nat.le_of_not_lt hlow, hparent⟩
      · simp [hlow, hparent] at hrun
        exact .inl hrun.2.symm

lemma Consistent.append {item : ℕ × CoinSolution} (h : Consistent hash s) (happ : Appended hash s w item s') :
    Consistent hash s' where
  rows w' i := by
    rw [happ.rows, happ.spends, get?_set, h.rows]
    by_cases hw : w' = w
    · subst hw
      rw [if_pos rfl]
      rcases lt_trichotomy i (getSpendsForWallet s w').length with hi | rfl | hi
      · rw [if_neg (by simp; omega), getElem?_append_left hi]
      · simp
      · rw [if_neg (by simp; omega), getElem?_eq_none (by omega), getElem?_eq_none (by simp; omega)]
    · simp [hw]
  linked w' := by
    rw [happ.spends]
    split
    · refine isChain_append.mpr ⟨h.linked w, .singleton _, fun last hlast item' hitem => ?_⟩
      cases hitem
      exact happ.link last hlast
    · exact h.linked w'

/-- If a spend is above the height, so are those after it. -/
lemma above_of_first {item : ℕ × CoinSolution} {height : ℤ} (hsorted : (item :: items).Pairwise fun a b => a.1 ≤ b.1)
    (hfirst : ¬(item.1 : ℤ) ≤ height) : ∀ item' ∈ item :: items, ¬(item'.1 : ℤ) ≤ height := by
  intro item' hitem
  rcases mem_cons.mp hitem with rfl | hitem
  · exact hfirst
  · have := (pairwise_cons.mp hsorted).1 item' hitem
    omega

lemma getElem?_filter_of_sorted (hsorted : items.Pairwise fun a b => a.1 ≤ b.1) (height : ℤ) (i : ℕ) :
    (items.filter fun item => item.1 ≤ height)[i]? = items[i]?.filter fun item => item.1 ≤ height := by
  induction items generalizing i with
  | nil => rfl
  | cons item items ih =>
    by_cases hle : (item.1 : ℤ) ≤ height
    · rw [filter_cons_of_pos (by simpa using hle)]
      cases i with
      | zero => simp [Option.filter_some, hle]
      | succ i => simpa using ih hsorted.of_cons i
    · have habove := above_of_first hsorted hle
      rw [filter_eq_nil_iff.mpr (by simpa using habove)]
      refine (Option.filter_eq_none_iff.mpr fun item' hitem => ?_).symm
      simpa using habove item' (mem_of_getElem? hitem)

lemma cutSpends_eq_filter (hsorted : items.Pairwise fun a b => a.1 ≤ b.1) (height : ℤ) :
    cutSpends height items = items.filter fun item => item.1 ≤ height := by
  induction items with
  | nil => rfl
  | cons item items ih =>
    by_cases hle : (item.1 : ℤ) ≤ height
    · rw [filter_cons_of_pos (by simpa using hle), ← ih hsorted.of_cons]
      unfold cutSpends
      rw [findIdx?_cons, if_neg (by simpa using hle)]
      cases items.findIdx? fun item => item.1 > height with
      | none => rfl
      | some i => rfl
    · rw [filter_eq_nil_iff.mpr (by simpa using above_of_first hsorted hle)]
      unfold cutSpends
      rw [findIdx?_cons, if_pos (by simpa using hle)]
      rfl

lemma Consistent.sorted (h : Consistent hash s) (w : ℕ) : (getSpendsForWallet s w).Pairwise fun a b => a.1 ≤ b.1 :=
  isChain_iff_pairwise.mp ((h.linked w).imp fun _ _ h => h.1)

/-- What a rollback leaves behind. -/
def rolledBack (height : ℤ) (w : ℕ) (s : WalletPoolStore) : WalletPoolStore :=
  (exec (rollback height w none) s).2

lemma exec_rollback (height : ℤ) (w : ℕ) (s : WalletPoolStore) :
    exec (rollback height w none) s = (.ok (), rolledBack height w s) := by
  simp [rolledBack, rollback]

lemma Consistent.spends_rollback (h : Consistent hash s) (height : ℤ) (w w' : ℕ) :
    getSpendsForWallet (rolledBack height w s) w' =
      if w' = w then (getSpendsForWallet s w).filter fun item => item.1 ≤ height else getSpendsForWallet s w' := by
  rw [← cutSpends_eq_filter (h.sorted w)]
  simp only [getSpendsForWallet, rolledBack, rollback, exec_modify_bind, exec_modify, get?_mapVals]
  by_cases hw : w' = w
  · subst hw
    cases s.stateTransitionsCache.get? w' with
    | none => simp [cutSpends]
    | some items => simp
  · cases s.stateTransitionsCache.get? w' with
    | none => simp [hw]
    | some items => simp [hw]

lemma Consistent.rolledBack (h : Consistent hash s) (height : ℤ) (w : ℕ) : Consistent hash (rolledBack height w s) where
  rows w' i := by
    have hrow : (PoolHistory.rolledBack height w s).poolStateTransitions.get? (i, w') =
        (s.poolStateTransitions.get? (i, w')).filter fun row => ¬(row.height > height ∧ row.walletId = w) := by
      simp [PoolHistory.rolledBack, rollback]
    rw [hrow, h.spends_rollback, h.rows]
    by_cases hw : w' = w
    · subst hw
      rw [if_pos rfl, getElem?_filter_of_sorted (h.sorted w')]
      cases (getSpendsForWallet s w')[i]? with
      | none => rfl
      | some item => simp [Option.filter_some]
    · rw [if_neg hw]
      cases (getSpendsForWallet s w')[i]? with
      | none => rfl
      | some item => simp [Option.filter_some, hw]
  linked w' := by
    rw [h.spends_rollback]
    split
    · rw [← cutSpends_eq_filter (h.sorted w)]
      unfold cutSpends
      split
      · exact (h.linked w).take _
      · exact h.linked w
    · exact h.linked w'

section Rebuild

lemma spends_foldl_cacheRow (rows : List StateTransition) (s : WalletPoolStore) (w : ℕ) :
    getSpendsForWallet (rows.foldl cacheRow s) w =
      getSpendsForWallet s w ++ (rows.filter (·.walletId = w)).map fun row => (row.height, row.coinSpend) := by
  induction rows generalizing s with
  | nil => simp
  | cons row rows ih =>
    rw [foldl_cons, ih]
    by_cases hw : row.walletId = w
    · simp [cacheRow, getSpendsForWallet, hw]
    · simp [cacheRow, getSpendsForWallet, hw, get?_set, Ne.symm hw]

lemma Consistent.row (h : Consistent hash s) {key : ℕ × ℕ} {row : StateTransition}
    (hrow : s.poolStateTransitions.get? key = some row) : (row.transitionIndex, row.walletId) = key ∧
      (getSpendsForWallet s row.walletId)[row.transitionIndex]? = some (row.height, row.coinSpend) := by
  rw [show key = (key.1, key.2) from rfl, h.rows] at hrow
  obtain ⟨item, hitem, rfl⟩ := Option.map_eq_some_iff.mp hrow
  exact ⟨rfl, hitem⟩

/-- The rows of a wallet as the database returns them: one for each index, in order. -/
lemma Consistent.indices (h : Consistent hash s) (w : ℕ) :
    ((((s.poolStateTransitions.entries.map Prod.snd).mergeSort fun a b =>
      a.transitionIndex ≤ b.transitionIndex).filter (·.walletId = w)).map StateTransition.transitionIndex) =
      range (getSpendsForWallet s w).length := by
  set rows := s.poolStateTransitions.entries.map Prod.snd with hdef
  have hmem : ∀ {row}, row ∈ rows ↔ ∃ key, s.poolStateTransitions.get? key = some row := by
    intro row
    simp [hdef, Dict.mem_entries]
  have hkeys : (rows.map fun row => (row.transitionIndex, row.walletId)).Nodup := by
    have : rows.map (fun row => (row.transitionIndex, row.walletId)) = s.poolStateTransitions.entries.map Prod.fst := by
      rw [hdef, map_map]
      exact map_congr_left fun e he => (h.row (Dict.mem_entries.mp he)).1
    rw [this]
    exact s.poolStateTransitions.nodup
  have hsorted := @pairwise_mergeSort _ (fun a b : StateTransition => a.transitionIndex ≤ b.transitionIndex)
    (by simpa using fun _ _ _ => Nat.le_trans) (by simpa using fun _ _ => Nat.le_total _ _) rows
  have hdistinct := pairwise_map.mp ((mergeSort_perm rows fun a b => a.transitionIndex ≤ b.transitionIndex).map
    (fun row => (row.transitionIndex, row.walletId)) |>.nodup_iff.mpr hkeys)
  refine SortedLT.eq_of_mem_iff ?_ (sortedLT_range _) fun i => ?_
  · refine Pairwise.sortedLT (pairwise_map.mpr (pairwise_filter.mpr ?_))
    refine (hsorted.and hdistinct).imp fun {a b} hab ha hb => ?_
    have hle := of_decide_eq_true hab.1
    exact lt_of_le_of_ne hle fun heq => hab.2 (by simp_all)
  · simp only [mem_map, mem_filter, mem_mergeSort, hmem, mem_range, decide_eq_true_eq]
    constructor
    · rintro ⟨row, ⟨⟨key, hrow⟩, rfl⟩, rfl⟩
      exact (List.getElem?_eq_some_iff.mp (h.row hrow).2).1
    · intro hi
      exact ⟨⟨i, w, _, _⟩, ⟨⟨(i, w), by rw [h.rows, getElem?_eq_getElem hi]; rfl⟩, rfl⟩, rfl⟩

/-- The cache that is rebuilt from the rows of a consistent store. -/
lemma Consistent.spends_rebuild (h : Consistent hash s) (hrows : s'.poolStateTransitions = s.poolStateTransitions)
    (w : ℕ) : getSpendsForWallet (rebuildCache s') w = getSpendsForWallet s w := by
  have hindices := h.indices w
  unfold rebuildCache
  rw [spends_foldl_cacheRow, hrows]
  set rows := ((s.poolStateTransitions.entries.map Prod.snd).mergeSort fun a b =>
    a.transitionIndex ≤ b.transitionIndex).filter (·.walletId = w) with hdef
  have hitem : ∀ row ∈ rows, (getSpendsForWallet s w)[row.transitionIndex]? = some (row.height, row.coinSpend) := by
    intro row hrow
    simp only [hdef, mem_filter, mem_mergeSort, mem_map, decide_eq_true_eq] at hrow
    obtain ⟨⟨e, he, rfl⟩, rfl⟩ := hrow
    exact (h.row (Dict.mem_entries.mp he)).2
  refine List.ext_getElem? fun i => ?_
  have hi := congrArg (·[i]?) hindices
  simp only [getElem?_map] at hi
  change (rows.map _)[i]? = _
  rw [getElem?_map]
  cases hrow : rows[i]? with
  | none =>
    rw [hrow, Option.map_none, eq_comm, getElem?_eq_none_iff, length_range] at hi
    rw [getElem?_eq_none hi]
    rfl
  | some row =>
    rw [hrow, Option.map_some, eq_comm] at hi
    obtain ⟨hlt, hindex⟩ := List.getElem?_eq_some_iff.mp hi
    rw [getElem_range] at hindex
    rw [hindex, hitem row (mem_of_getElem? hrow)]
    rfl

lemma Consistent.rebuild (h : Consistent hash s) (hrows : s'.poolStateTransitions = s.poolStateTransitions) :
    Consistent hash s'.rebuildCache := by
  have hspends := h.spends_rebuild hrows
  have hkept : s'.rebuildCache.poolStateTransitions = s.poolStateTransitions := by
    rw [← hrows]
    refine List.foldlRecOn (motive := fun t : WalletPoolStore => t.poolStateTransitions = s'.poolStateTransitions) _ _
      rfl fun t ht row _ => ht
  exact ⟨fun w i => by rw [hkept, hspends, h.rows], fun w => by rw [hspends]; exact h.linked w⟩

end Rebuild

inductive PoolOp where
  | addSpend (walletId : ℕ) (spend : CoinSolution) (height : ℕ)
  | rollback (height : ℤ) (walletId : ℕ)

def PoolOp.call (stdHash : Bytes → Bytes32) (fault : Option PyError) : PoolOp → WalletPoolStoreM Unit
  | addSpend walletId spend height => WalletPoolStore.addSpend stdHash walletId spend height fault
  | rollback height walletId => WalletPoolStore.rollback height walletId fault

/-- What a call leaves behind, whether it raises or not. If its statement raised, the cache is rebuilt. -/
def PoolOp.after (stdHash : Bytes → Bytes32) (s : WalletPoolStore) (o : PoolOp × Option PyError) : WalletPoolStore :=
  let s' := (exec (o.1.call stdHash o.2) s).2
  if o.2.isSome then s'.rebuildCache else s'

/-- A statement that raises leaves the rows as they are. -/
lemma rows_of_fault (o : PoolOp) (e : PyError) (s : WalletPoolStore) :
    (exec (o.call hash (some e)) s).2.poolStateTransitions = s.poolStateTransitions := by
  cases o with
  | addSpend w spend height =>
    rcases hrun : exec (WalletPoolStore.addSpend hash w spend height (some e)) s with ⟨r, s'⟩
    change (exec (WalletPoolStore.addSpend hash w spend height (some e)) s).2.poolStateTransitions = _
    rw [hrun]
    rcases addSpend_cases hrun with rfl | ⟨-, hfault, -⟩ | ⟨-, hrows⟩
    · rfl
    · cases hfault
    · exact hrows
  | rollback height w => simp [PoolOp.call, rollback]

lemma Consistent.after (h : Consistent hash s) (o : PoolOp × Option PyError) : Consistent hash (PoolOp.after hash s o) := by
  obtain ⟨o, _ | e⟩ := o
  · change Consistent hash (exec (o.call hash none) s).2
    cases o with
    | addSpend w spend height =>
      rcases hrun : exec (WalletPoolStore.addSpend hash w spend height none) s with ⟨r, s'⟩
      change Consistent hash (exec (WalletPoolStore.addSpend hash w spend height none) s).2
      rw [hrun]
      rcases addSpend_cases hrun with rfl | ⟨-, -, happ⟩ | ⟨⟨e, he⟩, -⟩
      · exact h
      · exact h.append happ
      · cases he
    | rollback height w => exact h.rolledBack height w
  · exact h.rebuild (rows_of_fault o e s)

def storeAfter (stdHash : Bytes → Bytes32) (ops : List (PoolOp × Option PyError)) : WalletPoolStore :=
  ops.foldl (PoolOp.after stdHash) .new

lemma consistent_storeAfter (ops : List (PoolOp × Option PyError)) : Consistent hash (storeAfter hash ops) :=
  List.foldlRecOn ops _ ⟨fun _ _ => rfl, fun _ => .nil⟩ fun _ h o _ => h.after o

/-- After any calls the cache has the rows of the table, and a rollback keeps what is not above the height. A call
whose statement raises is undone by rebuilding the cache. -/
theorem pool_history_consistent (stdHash : Bytes → Bytes32) (ops : List (PoolOp × Option PyError)) :
    Consistent stdHash (storeAfter stdHash ops) ∧
    (∀ w spend height e s', exec (addSpend stdHash w spend height none) (storeAfter stdHash ops) = (.error e, s') →
      s' = storeAfter stdHash ops) ∧
    (∀ (o : PoolOp) (e : PyError) (r : Except PyError Unit) (s' : WalletPoolStore),
      exec (o.call stdHash (some e)) (storeAfter stdHash ops) = (r, s') →
      s'.poolStateTransitions = (storeAfter stdHash ops).poolStateTransitions ∧
      ∀ w, getSpendsForWallet s'.rebuildCache w = getSpendsForWallet (storeAfter stdHash ops) w) ∧
    ∀ (height : ℤ) (w : ℕ), ∃ s', exec (rollback height w none) (storeAfter stdHash ops) = (.ok (), s') ∧
      Consistent stdHash s' ∧ ∀ w', getSpendsForWallet s' w' =
        if w' = w then (getSpendsForWallet (storeAfter stdHash ops) w).filter fun item => item.1 ≤ height
        else getSpendsForWallet (storeAfter stdHash ops) w' := by
  have hconsistent : Consistent stdHash (storeAfter stdHash ops) := consistent_storeAfter ops
  refine ⟨hconsistent, fun w spend height e s' hrun => ?_, fun o e r s' hrun => ?_, fun height w => ?_⟩
  · rcases addSpend_cases hrun with hsame | ⟨hok, -⟩ | ⟨⟨e, he⟩, -⟩
    · exact hsame
    · cases hok
    · cases he
  · have hrows := @rows_of_fault stdHash o e (storeAfter stdHash ops)
    rw [hrun] at hrows
    exact ⟨hrows, hconsistent.spends_rebuild hrows⟩
  · exact ⟨_, exec_rollback height w _, hconsistent.rolledBack height w, hconsistent.spends_rollback height w⟩

/-- An insertion that raises leaves its spend in the cache. -/
theorem failed_insertion_cached :
    let spend : CoinSolution := ⟨⟨.ofNat 32 0, .ofNat 32 0, 1, by decide⟩, ⟨[0x80], .atom [], rfl⟩, ⟨[0x80], .atom [], rfl⟩⟩
    let failed := exec (addSpend (fun _ => .ofNat 32 0) 1 spend 5 (some .operationalError)) .new
    failed.1 = .error .operationalError ∧ getSpendsForWallet failed.2 1 = [(5, spend)] ∧
      failed.2.poolStateTransitions = .empty ∧ ¬ Consistent (fun _ => .ofNat 32 0) failed.2 := by
  refine ⟨rfl, rfl, rfl, fun h => ?_⟩
  cases h.rows 1 0

end SectorChain.Proofs.PoolHistory
