import SectorChain.Wallet.Wallet
import SectorChain.Proofs.WalletCoinStore
import SectorChain.Lib.Greedy
import SectorChain.Lib.Except
import Mathlib.Data.Nat.Pairing

/-!
# The coins that are selected

`select_coins` takes the largest coins first, and returns as few as possible.
-/

namespace SectorChain.Proofs.WalletCoins

open Lib WalletCoinStore WalletStateManager Wallet List

variable {hash : Bytes → Bytes32}

def KeyedDict (stdHash : Bytes → Bytes32) (d : Dict Bytes32 WalletCoinRecord) : Prop :=
  ∀ k r, d.get? k = some r → r.name stdHash = k

/-- All records stand under the names of their coins. -/
structure Keyed (stdHash : Bytes → Bytes32) (s : WalletCoinStore) : Prop where
  table : KeyedDict stdHash s.coinRecord
  cache : KeyedDict stdHash s.coinRecordCache
  unspent : ∀ w coins, s.unspentCoinWalletCache.get? w = some coins → KeyedDict stdHash coins

variable {d : Dict Bytes32 WalletCoinRecord} {s : WalletCoinStore}

lemma Coherent.toKeyed (h : Coherent hash s) : Keyed hash s where
  table := h.keyed
  cache k r hr := h.keyed k r ((h.cached k).symm.trans hr)
  unspent w coins hcoins k r hr := by
    have hrow := h.unspent w k
    unfold unspentOf at hrow
    rw [hcoins, Option.bind_some, hr] at hrow
    exact h.keyed k r (Option.filter_eq_some_iff.mp hrow.symm).1

def IsPending (trade : TradeRecord) : Prop :=
  trade.status = .PENDING_ACCEPT ∨ trade.status = .PENDING_CONFIRM ∨ trade.status = .PENDING_CANCEL

def tradeBundle (trade : TradeRecord) : SpendBundle := trade.txSpendBundle.getD trade.spendBundle

/-- A coin that the wallet can spend, not excluded, not in a pending transaction and not locked by a trade. -/
structure Eligible (env : WalletEnv) (s : WalletStateManager) (walletId : ℕ) (exclude : List Coin) (coin : Coin) :
    Prop where
  synced : s.peak ≠ none
  unspent : ∃ record ∈ s.coinStore.getUnspentCoinsForWallet walletId, record.coin = coin
  notExcluded : coin ∉ exclude
  notPending : ∀ tx ∈ s.getUnconfirmedForWallet walletId, ∀ c ∈ tx.removals, c.name env.stdHash ≠ coin.name env.stdHash
  notLocked : ∀ trade ∈ s.tradeRecords, IsPending trade → ∀ c ∈ (tradeBundle trade).removals,
    c.name env.stdHash = coin.name env.stdHash → s.coinStore.getCoinRecord (c.name env.stdHash) = none

open Classical in
noncomputable def eligibleCoins (env : WalletEnv) (s : WalletStateManager) (walletId : ℕ) (exclude : List Coin) :
    Finset Coin :=
  ((s.coinStore.getUnspentCoinsForWallet walletId).image WalletCoinRecord.coin).filter
    (Eligible env s walletId exclude)

lemma mem_eligibleCoins {env : WalletEnv} {m : WalletStateManager} {id : ℕ} {exclude : List Coin} {coin : Coin} :
    coin ∈ eligibleCoins env m id exclude ↔ Eligible env m id exclude coin := by
  classical
  unfold eligibleCoins
  rw [Finset.mem_filter, Finset.mem_image, and_iff_right_of_imp]
  exact Eligible.unspent

section

variable {env : StandardWalletEnv} {m : WalletStateManager} {id : ℕ} {exclude : List Coin}

lemma mem_getLockedCoins (hkeyed : Keyed env.stdHash m.coinStore) {name : Bytes32} :
    name ∈ getLockedCoins env.toWalletEnv m ↔ ∃ trade ∈ m.tradeRecords, IsPending trade ∧
      ∃ c ∈ (tradeBundle trade).removals, c.name env.stdHash = name ∧
        m.coinStore.getCoinRecord (c.name env.stdHash) ≠ none := by
  have hbundle : ∀ bundle : SpendBundle, name ∈ getLockedCoinsInSpendBundle env.toWalletEnv m bundle ↔
      ∃ c ∈ bundle.removals, c.name env.stdHash = name ∧ m.coinStore.getCoinRecord (c.name env.stdHash) ≠ none := by
    intro bundle
    unfold getLockedCoinsInSpendBundle
    rw [mem_filterMap]
    refine exists_congr fun c => and_congr_right fun _ => ?_
    cases hrecord : m.coinStore.getCoinRecord (c.name env.stdHash) with
    | none => simp
    | some record =>
      have hname : record.name env.stdHash = c.name env.stdHash := by
        rcases Option.or_eq_some_iff.mp hrecord with hcache | ⟨-, htable⟩
        · exact hkeyed.cache _ record hcache
        · exact hkeyed.table _ record htable
      simp [hname]
  unfold getLockedCoins getOffersWithStatus
  rw [mem_flatMap]
  refine exists_congr fun trade => ?_
  rw [mem_append, mem_append, mem_filter, mem_filter, mem_filter, ← and_assoc]
  refine and_congr ?_ ?_
  · unfold IsPending
    simp only [decide_eq_true_eq]
    tauto
  · unfold tradeBundle
    cases trade.txSpendBundle with
    | none => exact hbundle _
    | some bundle => exact hbundle _

def usable (env : StandardWalletEnv) (m : WalletStateManager) (walletId : ℕ) (exclude : List Coin)
    (record : WalletCoinRecord) : Bool :=
  record.name env.stdHash ∉ unconfirmedRemovalsForWallet env.toWalletEnv m walletId ∧ record.coin ∉ exclude

lemma eligible_iff (hkeyed : Keyed env.stdHash m.coinStore) {coin : Coin} :
    Eligible env.toWalletEnv m id exclude coin ↔ ∃ record ∈ getSpendableCoinsForWallet env.toWalletEnv m id,
        usable env m id exclude record = true ∧ record.coin = coin := by
  have hpending : ∀ name, name ∈ unconfirmedRemovalsForWallet env.toWalletEnv m id ↔
      ∃ tx ∈ m.getUnconfirmedForWallet id, ∃ c ∈ tx.removals, c.name env.stdHash = name := by
    intro name
    unfold unconfirmedRemovalsForWallet
    simp only [mem_flatMap, mem_map]
  constructor
  · rintro ⟨hsynced, ⟨record, hrecord, rfl⟩, hexclude, hnot, hlocked⟩
    have hunconfirmed : record.name env.stdHash ∉ unconfirmedRemovalsForWallet env.toWalletEnv m id := by
      rw [hpending]
      rintro ⟨tx, htx, c, hc, hname⟩
      exact hnot tx htx c hc hname
    refine ⟨record, ?_, ?_, rfl⟩
    · unfold getSpendableCoinsForWallet
      rw [if_neg hsynced]
      refine Finset.mem_filter.mpr ⟨hrecord, ?_, fun hremoval => hunconfirmed ?_⟩
      · rw [mem_getLockedCoins hkeyed]
        rintro ⟨trade, htrade, hpend, c, hc, hname, hsome⟩
        exact hsome (hlocked trade htrade hpend c hc hname)
      · obtain ⟨tx, htx, hremoval⟩ := mem_flatMap.mp hremoval
        obtain ⟨c, hc, hname⟩ := mem_map.mp hremoval
        exact (hpending _).mpr ⟨tx, htx, c, mem_of_mem_filter hc, hname⟩
    · exact decide_eq_true ⟨hunconfirmed, hexclude⟩
  · rintro ⟨record, hrecord, husable, rfl⟩
    unfold getSpendableCoinsForWallet at hrecord
    split at hrecord
    · cases hrecord
    rename_i hsynced
    obtain ⟨hunspent, hlocked, -⟩ := Finset.mem_filter.mp hrecord
    obtain ⟨hunconfirmed, hexclude⟩ := of_decide_eq_true husable
    refine ⟨hsynced, ⟨record, hunspent, rfl⟩, hexclude, fun tx htx c hc hname => ?_,
      fun trade htrade hpend c hc hname => ?_⟩
    · exact hunconfirmed ((hpending _).mpr ⟨tx, htx, c, hc, hname⟩)
    · by_contra hsome
      exact hlocked ((mem_getLockedCoins hkeyed).mpr ⟨trade, htrade, hpend, c, hc, hname, hsome⟩)

lemma useCoins_eq {amount : ℤ} {records : List WalletCoinRecord} {sumValue : ℕ} {usedCoins : Finset Coin}
    {coins : List Coin} (hcoins : coins = (records.filter (usable env m id exclude)).map WalletCoinRecord.coin)
    (hnodup : coins.Nodup) (hfresh : ∀ c ∈ coins, c ∉ usedCoins) :
    useCoins env amount (unconfirmedRemovalsForWallet env.toWalletEnv m id) exclude records sumValue usedCoins =
      (sumValue + (takeUntil amount.toNat sumValue (decide (usedCoins.card > 0)) (coins.map Coin.amount)).sum,
        usedCoins ∪ (coins.take
          (takeUntil amount.toNat sumValue (decide (usedCoins.card > 0)) (coins.map Coin.amount)).length).toFinset) := by
  induction records generalizing sumValue usedCoins coins with
  | nil =>
    subst hcoins
    simp [useCoins, takeUntil]
  | cons record records ih =>
    unfold useCoins
    by_cases hstop : (sumValue : ℤ) ≥ amount ∧ usedCoins.card > 0
    · rw [if_pos hstop, decide_eq_true hstop.2, takeUntil_of_le (Int.toNat_le.mpr hstop.1)]
      simp
    rw [if_neg hstop]
    by_cases huse : usable env m id exclude record = true
    · obtain ⟨hunconfirmed, hexclude⟩ := of_decide_eq_true huse
      rw [filter_cons_of_pos huse, map_cons] at hcoins
      subst hcoins
      obtain ⟨hnotin, hnodup⟩ := nodup_cons.mp hnodup
      obtain ⟨hnew, hfresh⟩ := forall_mem_cons.mp hfresh
      have hgo : ¬ (amount.toNat ≤ sumValue ∧ decide (usedCoins.card > 0) = true) := by
        rw [Int.toNat_le, decide_eq_true_eq]
        exact hstop
      rw [if_neg hunconfirmed, if_neg hexclude, ih rfl hnodup fun c hc hmem => ?_]
      · have hcard : decide ((insert record.coin usedCoins).card > 0) = true :=
          decide_eq_true (Finset.card_pos.mpr (Finset.insert_nonempty _ _))
        rw [hcard, map_cons, takeUntil, if_neg hgo, sum_cons, length_cons, take_succ_cons,
          toFinset_cons, Finset.insert_union, Finset.union_insert, Nat.add_assoc]
      · rcases Finset.mem_insert.mp hmem with rfl | hmem
        · exact hnotin hc
        · exact hfresh c hc hmem
    · have hskip : record.name env.stdHash ∈ unconfirmedRemovalsForWallet env.toWalletEnv m id ∨
          record.coin ∈ exclude := by
        by_contra hnot
        push Not at hnot
        exact huse (decide_eq_true hnot)
      rw [filter_cons_of_neg huse] at hcoins
      rcases hskip with hskip | hskip
      · rw [if_pos hskip, ih hcoins hnodup hfresh]
      · rw [if_pos hskip, ite_self, ih hcoins hnodup hfresh]

lemma record_of_coin (hkeyed : Keyed hash s) {r r' : WalletCoinRecord} (hr : r ∈ s.getUnspentCoinsForWallet id)
    (hr' : r' ∈ s.getUnspentCoinsForWallet id) (hcoin : r.coin = r'.coin) : r = r' := by
  unfold getUnspentCoinsForWallet at hr hr'
  cases hentry : s.unspentCoinWalletCache.get? id with
  | none =>
    rw [hentry] at hr
    cases hr
  | some coins =>
    rw [hentry] at hr hr'
    have hget : ∀ r ∈ (coins.entries.map Prod.snd).toFinset, coins.get? (r.name hash) = some r := by
      intro r hr
      obtain ⟨⟨k, r⟩, hmem, rfl⟩ := mem_map.mp (mem_toFinset.mp hr)
      have hk := Dict.mem_entries.mp hmem
      rw [hkeyed.unspent _ coins hentry k r hk, hk]
    have hname : r.name hash = r'.name hash := by
      unfold WalletCoinRecord.name
      rw [hcoin]
    have h := hget r hr
    rw [hname, hget r' hr'] at h
    exact (Option.some.inj h).symm

def candidates (env : StandardWalletEnv) (m : WalletStateManager) (walletId : ℕ) (exclude : List Coin) : List Coin :=
  ((sortByAmount (env.recordOrder.list (getSpendableCoinsForWallet env.toWalletEnv m walletId))).filter
    (usable env m walletId exclude)).map WalletCoinRecord.coin

lemma mem_candidates (hkeyed : Keyed env.stdHash m.coinStore) {coin : Coin} :
    coin ∈ candidates env m id exclude ↔ Eligible env.toWalletEnv m id exclude coin := by
  unfold candidates sortByAmount
  rw [eligible_iff hkeyed, mem_map]
  refine exists_congr fun record => ?_
  rw [mem_filter, (perm_insertionSort _ _).mem_iff, env.recordOrder.mem_list, and_assoc]

lemma getSpendableCoinsForWallet_subset :
    getSpendableCoinsForWallet env.toWalletEnv m id ⊆ m.coinStore.getUnspentCoinsForWallet id := by
  unfold getSpendableCoinsForWallet
  split
  · exact Finset.empty_subset _
  · exact Finset.filter_subset _ _

lemma nodup_candidates (hkeyed : Keyed env.stdHash m.coinStore) : (candidates env m id exclude).Nodup := by
  have hsorted : (sortByAmount (env.recordOrder.list (getSpendableCoinsForWallet env.toWalletEnv m id))).Nodup :=
    (perm_insertionSort _ _).nodup_iff.mpr (env.recordOrder.nodup _)
  refine List.Nodup.map_on ?_ (hsorted.filter _)
  intro r hr r' hr' hcoin
  have hmem : ∀ r ∈ (sortByAmount (env.recordOrder.list (getSpendableCoinsForWallet env.toWalletEnv m id))).filter
      (usable env m id exclude), r ∈ m.coinStore.getUnspentCoinsForWallet id := by
    intro r hr
    have hperm := (perm_insertionSort _ _).mem_iff.mp (mem_of_mem_filter hr)
    exact getSpendableCoinsForWallet_subset ((env.recordOrder.mem_list _ _).mp hperm)
  exact record_of_coin hkeyed (hmem r hr) (hmem r' hr') hcoin

lemma pairwise_candidates : (candidates env m id exclude).Pairwise (fun c c' => c'.amount ≤ c.amount) := by
  have hsorted := pairwise_insertionSort (fun a b : WalletCoinRecord => b.coin.amount ≤ a.coin.amount)
    (env.recordOrder.list (getSpendableCoinsForWallet env.toWalletEnv m id))
  exact pairwise_map.mpr (hsorted.filter _)

def selectedCount (env : StandardWalletEnv) (m : WalletStateManager) (walletId : ℕ) (amount : ℤ) (exclude : List Coin) :
    ℕ :=
  (takeUntil amount.toNat 0 false ((candidates env m walletId exclude).map Coin.amount)).length

lemma sum_selected (env : StandardWalletEnv) (m : WalletStateManager) (id : ℕ) (exclude : List Coin) (amount : ℤ) :
    (((candidates env m id exclude).take (selectedCount env m id amount exclude)).map Coin.amount).sum =
      (takeUntil amount.toNat 0 false ((candidates env m id exclude).map Coin.amount)).sum := by
  have hprefix : takeUntil amount.toNat 0 false ((candidates env m id exclude).map Coin.amount) <+:
      (candidates env m id exclude).map Coin.amount := takeUntil_prefix
  rw [map_take]
  unfold selectedCount
  rw [← prefix_iff_eq_take.mp hprefix]

lemma toFinset_candidates (hkeyed : Keyed env.stdHash m.coinStore) :
    (candidates env m id exclude).toFinset = eligibleCoins env.toWalletEnv m id exclude := by
  ext coin
  rw [mem_toFinset, mem_candidates hkeyed, mem_eligibleCoins]

lemma sum_candidates (id : ℕ) (exclude : List Coin) (hkeyed : Keyed env.stdHash m.coinStore) :
    ((candidates env m id exclude).map Coin.amount).sum =
      ∑ c ∈ eligibleCoins env.toWalletEnv m id exclude, c.amount := by
  rw [← toFinset_candidates hkeyed, sum_toFinset Coin.amount (nodup_candidates hkeyed)]

lemma foldlM_toUint128 {start : ℕ} (hstart : start < 2 ^ 128) (records : List WalletCoinRecord) :
    records.foldlM (fun spendableAmount record => toUint128 (spendableAmount + record.coin.amount)) start =
      toUint128 (start + (records.map fun r => r.coin.amount).sum) := by
  induction records generalizing start with
  | nil => exact (if_pos hstart).symm
  | cons record records ih =>
    rw [map_cons, sum_cons, ← Nat.add_assoc, foldlM_cons]
    by_cases hlt : start + record.coin.amount < 2 ^ 128
    · rw [← ih hlt, toUint128, if_pos hlt, ok_bind]
    · rw [toUint128, if_neg hlt, toUint128, if_neg (by omega)]
      rfl

lemma getSpendableBalance_eq : getSpendableBalance env id m =
    toUint128 (∑ r ∈ getSpendableCoinsForWallet env.toWalletEnv m id, r.coin.amount) := by
  unfold getSpendableBalance
  rw [foldlM_toUint128 (by norm_num), Nat.zero_add, env.recordOrder.sum_list _ fun r => r.coin.amount]

lemma sum_eligible_le (id : ℕ) (exclude : List Coin) (hkeyed : Keyed env.stdHash m.coinStore) :
    ∑ c ∈ eligibleCoins env.toWalletEnv m id exclude, c.amount ≤
      ∑ r ∈ getSpendableCoinsForWallet env.toWalletEnv m id, r.coin.amount := by
  have hsubset : eligibleCoins env.toWalletEnv m id exclude ⊆
      (getSpendableCoinsForWallet env.toWalletEnv m id).image WalletCoinRecord.coin := by
    intro coin hcoin
    obtain ⟨record, hrecord, -, rfl⟩ := (eligible_iff hkeyed).mp (mem_eligibleCoins.mp hcoin)
    exact Finset.mem_image_of_mem _ hrecord
  refine (Finset.sum_le_sum_of_subset hsubset).trans ?_
  rw [Finset.sum_image]
  intro r hr r' hr' hcoin
  exact record_of_coin hkeyed (getSpendableCoinsForWallet_subset hr) (getSpendableCoinsForWallet_subset hr') hcoin

lemma selectCoins_eq (hkeyed : Keyed env.stdHash m.coinStore)
    (hrange : ∑ r ∈ getSpendableCoinsForWallet env.toWalletEnv m id, r.coin.amount < 2 ^ 128) (amount : ℤ) :
    selectCoins env id m amount exclude =
      if amount ≤ (∑ c ∈ eligibleCoins env.toWalletEnv m id exclude, c.amount : ℕ) then
        .ok ((candidates env m id exclude).take (selectedCount env m id amount exclude)).toFinset
      else .error .valueError := by
  have hle := sum_eligible_le id exclude hkeyed
  have hsum := sum_candidates id exclude hkeyed
  have hloop : useCoins env amount (unconfirmedRemovalsForWallet env.toWalletEnv m id) exclude
      (sortByAmount (env.recordOrder.list (getSpendableCoinsForWallet env.toWalletEnv m id))) 0 ∅ =
      ((takeUntil amount.toNat 0 false ((candidates env m id exclude).map Coin.amount)).sum,
        ((candidates env m id exclude).take (selectedCount env m id amount exclude)).toFinset) := by
    rw [useCoins_eq rfl (nodup_candidates hkeyed) fun _ _ => Finset.notMem_empty _, Nat.zero_add]
    rfl
  unfold selectCoins
  rw [getSpendableBalance_eq, toUint128, if_pos hrange, ok_bind]
  dsimp only
  rw [hloop]
  by_cases henough : amount ≤ (∑ c ∈ eligibleCoins env.toWalletEnv m id exclude, c.amount : ℕ)
  · have hreach : amount.toNat ≤ 0 + (takeUntil amount.toNat 0 false
        ((candidates env m id exclude).map Coin.amount)).sum := takeUntil_reaches (by omega)
    rw [if_neg (by omega), if_neg (by omega), if_pos henough]
    rfl
  split
  · rfl
  · have hall : takeUntil amount.toNat 0 false ((candidates env m id exclude).map Coin.amount) =
        (candidates env m id exclude).map Coin.amount := takeUntil_of_lt (by omega)
    rw [hall, if_pos (by omega)]
    rfl

/-- A choice of the largest coins that reach an amount, as few as possible. -/
structure Selection (eligible : Finset Coin) (amount : ℤ) (coins : Finset Coin) : Prop where
  subset : coins ⊆ eligible
  reaches : amount ≤ (∑ c ∈ coins, c.amount : ℕ)
  minimal : ∀ choice ⊆ eligible, choice.Nonempty → amount ≤ (∑ c ∈ choice, c.amount : ℕ) → coins.card ≤ choice.card
  largest : ∀ c ∈ coins, ∀ d ∈ eligible, d ∉ coins → d.amount ≤ c.amount

lemma selection_of_selectCoins (hkeyed : Keyed env.stdHash m.coinStore) {amount : ℤ} {coins : Finset Coin}
    (h : selectCoins env id m amount exclude = .ok coins) :
    Selection (eligibleCoins env.toWalletEnv m id exclude) amount coins := by
  obtain ⟨balance, hbalance, -⟩ := bind_eq_ok.mp h
  rw [getSpendableBalance_eq, toUint128] at hbalance
  split_ifs at hbalance with hrange
  rw [selectCoins_eq hkeyed hrange] at h
  split at h
  · obtain rfl := Except.ok.inj h
    have hnodup : (candidates env m id exclude).Nodup := nodup_candidates hkeyed
    have hsum := sum_candidates id exclude hkeyed
    have hmem : ∀ {coin}, coin ∈ eligibleCoins env.toWalletEnv m id exclude ↔ coin ∈ candidates env m id exclude := by
      intro coin
      rw [mem_eligibleCoins, mem_candidates hkeyed]
    have hlength : selectedCount env m id amount exclude ≤ (candidates env m id exclude).length := by
      have hprefix : takeUntil amount.toNat 0 false ((candidates env m id exclude).map Coin.amount) <+:
        (candidates env m id exclude).map Coin.amount := takeUntil_prefix
      exact hprefix.length_le.trans_eq (length_map _)
    refine ⟨fun coin hcoin => ?_, ?_, fun choice hchoice hne hreach => ?_, fun c hc d hd hnot => ?_⟩
    · exact hmem.mpr (mem_of_mem_take (mem_toFinset.mp hcoin))
    · rw [sum_toFinset Coin.amount (hnodup.sublist (take_sublist _ _)), sum_selected]
      have hreach : amount.toNat ≤ 0 + (takeUntil amount.toNat 0 false
        ((candidates env m id exclude).map Coin.amount)).sum := takeUntil_reaches (by omega)
      omega
    · -- no other choice is smaller than the greedy one
      have hsubperm : choice.toList.Subperm (candidates env m id exclude) :=
        subperm_of_subset choice.nodup_toList fun c hc => hmem.mp (hchoice (Finset.mem_toList.mp hc))
      have hgreedy : selectedCount env m id amount exclude ≤ (choice.toList.map Coin.amount).length := by
        obtain ⟨part, hperm, hpart⟩ := hsubperm
        refine length_takeUntil_le (pairwise_map.mpr pairwise_candidates) ⟨_, hperm.map _, hpart.map _⟩ ?_ ?_
        · rw [Ne, map_eq_nil_iff, Finset.toList_eq_nil]
          exact hne.ne_empty
        · rw [Finset.sum_map_toList]
          exact Int.toNat_le.mpr hreach
      rw [toFinset_card_of_nodup (hnodup.sublist (take_sublist _ _)), length_take, min_eq_left hlength]
      rwa [length_map, Finset.length_toList] at hgreedy
    · have hdrop : d ∈ (candidates env m id exclude).drop (selectedCount env m id amount exclude) := by
        have hd' := hmem.mp hd
        rw [← take_append_drop (selectedCount env m id amount exclude) (candidates env m id exclude),
          mem_append] at hd'
        exact hd'.resolve_left fun htake => hnot (mem_toFinset.mpr htake)
      have hpairs : (candidates env m id exclude).Pairwise (fun c c' => c'.amount ≤ c.amount) := pairwise_candidates
      rw [← take_append_drop (selectedCount env m id amount exclude) (candidates env m id exclude)] at hpairs
      exact (pairwise_append.mp hpairs).2.2 c (mem_toFinset.mp hc) d hdrop
  · cases h

/-- `select_coins` returns as few eligible coins as are worth the amount, and raises if all are worth less. -/
theorem select_coins_returns_fewest {walletId : ℕ} (hkeyed : Keyed env.stdHash m.coinStore)
    (hrange : ∑ r ∈ m.coinStore.getUnspentCoinsForWallet walletId, r.coin.amount < 2 ^ 128) (amount : ℤ)
    (exclude : List Coin) :
    (∀ coins, selectCoins env walletId m amount exclude = .ok coins →
      (∀ coin ∈ coins, Eligible env.toWalletEnv m walletId exclude coin) ∧ amount ≤ (∑ c ∈ coins, c.amount : ℕ) ∧
        ∀ choice : Finset Coin, choice.Nonempty → (∀ coin ∈ choice, Eligible env.toWalletEnv m walletId exclude coin) →
          amount ≤ (∑ c ∈ choice, c.amount : ℕ) → coins.card ≤ choice.card) ∧
    ((∃ e, selectCoins env walletId m amount exclude = .error e) ↔
      (∑ c ∈ eligibleCoins env.toWalletEnv m walletId exclude, c.amount : ℕ) < amount) := by
  refine ⟨fun coins hcoins => ?_, ?_⟩
  · have h := selection_of_selectCoins hkeyed hcoins
    refine ⟨fun coin hcoin => mem_eligibleCoins.mp (h.subset hcoin), h.reaches, fun choice hne hchoice hreach => ?_⟩
    exact h.minimal choice (fun coin hcoin => mem_eligibleCoins.mpr (hchoice coin hcoin)) hne hreach
  have hle : ∑ r ∈ getSpendableCoinsForWallet env.toWalletEnv m walletId, r.coin.amount ≤
      ∑ r ∈ m.coinStore.getUnspentCoinsForWallet walletId, r.coin.amount :=
    Finset.sum_le_sum_of_subset getSpendableCoinsForWallet_subset
  rw [selectCoins_eq hkeyed (hle.trans_lt hrange)]
  split
  · rename_i hle
    exact ⟨fun ⟨e, he⟩ => (by cases he), fun hlt => absurd hle (not_le.mpr hlt)⟩
  · rename_i hlt
    exact ⟨fun _ => not_le.mp hlt, fun _ => ⟨_, rfl⟩⟩

end

def coinKey (coin : Coin) : ℕ :=
  beNat (coin.parentCoinInfo.toBytes ++ coin.puzzleHash.toBytes ++ beBytes 8 coin.amount)

lemma coinKey_injective : Function.Injective coinKey := by
  intro c c' h
  have hbytes := beNat_injective (by simp) h
  obtain ⟨hids, hamount⟩ := append_inj hbytes (by simp)
  obtain ⟨hparent, hpuzzle⟩ := append_inj hids (by simp)
  have hrange : (256 : ℕ) ^ 8 = 2 ^ 64 := by norm_num
  have hamount := congrArg beNat hamount
  rw [beNat_beBytes, beNat_beBytes, hrange, Nat.mod_eq_of_lt c.amount_lt, Nat.mod_eq_of_lt c'.amount_lt] at hamount
  cases c
  cases c'
  cases SizedBytes.toBytes_injective hparent
  cases SizedBytes.toBytes_injective hpuzzle
  cases hamount
  rfl

def recordKey (r : WalletCoinRecord) : ℕ :=
  Nat.pair (coinKey r.coin) (Nat.pair r.confirmedBlockHeight (Nat.pair r.spentBlockHeight
    (Nat.pair r.spent.toNat (Nat.pair r.coinbase.toNat (Nat.pair r.walletType.ctorIdx r.walletId)))))

lemma recordKey_injective : Function.Injective recordKey := by
  rintro ⟨coin, _, _, spent, coinbase, type, _⟩ ⟨coin', _, _, spent', coinbase', type', _⟩ h
  simp only [recordKey, Nat.pair_eq_pair] at h
  obtain ⟨hcoin, rfl, rfl, hspent, hcoinbase, htype, rfl⟩ := h
  cases coinKey_injective hcoin
  have hbool : Function.Injective Bool.toNat := by decide
  have htypes : ∀ t t' : WalletType, t.ctorIdx = t'.ctorIdx → t = t' := by
    intro t t' ht
    cases t <;> cases t' <;> first | rfl | cases ht
  rw [hbool hspent, hbool hcoinbase, htypes _ _ htype]

/-- Keys are numbers, and the puzzle of a key is the key. -/
def sampleWalletEnv : StandardWalletEnv where
  stdHash := plainHash
  getPublicKey index := [UInt8.ofNat index]
  initialNumPublicKeys := 2
  initialNumPublicKeysNewWallet := 2
  syntheticPublicKey pubkey := pubkey
  standardMod := .atom []
  aggsig _ := .ok (.ofNat 96 0)
  costOfTransaction _ := .ok 1
  maxBlockCostClvm := 11000000000
  coinOrder := .byKey coinKey coinKey_injective
  recordOrder := .byKey recordKey recordKey_injective

def sampleCoin (parent amount : ℕ) (h : amount < 2 ^ 64) : Coin :=
  ⟨.ofNat 32 parent, (SExp.atom [0]).treeHash plainHash, amount, h⟩

def smallCoin : Coin := sampleCoin 1 5 five_lt_limit

def largeCoin : Coin := sampleCoin 2 7 (by decide)

def standardRecord (coin : Coin) : WalletCoinRecord := ⟨coin, 1, 0, false, false, .STANDARD_WALLET, 1⟩

def sampleWallet : WalletStateManager where
  wallets := Dict.empty.set 1 (.hd .STANDARD_WALLET fun pubkey => some (.atom pubkey))
  newWallet := false
  puzzleStore := WalletPuzzleStore.new.addDerivationPaths
    ([0, 1].map fun i => ⟨i, (SExp.atom [UInt8.ofNat i]).treeHash plainHash, [UInt8.ofNat i], .STANDARD_WALLET, 1⟩)
  coinStore := ([smallCoin, largeCoin].map standardRecord).foldl
    (fun store record => (exec (WalletCoinStore.addCoinRecord plainHash record) store).2) .new
  unconfirmedForWallet := .empty
  tradeRecords := []
  peak := some 1
  costOfSingleTx := none

lemma keyed_sampleWallet : Keyed plainHash sampleWallet.coinStore := by
  obtain ⟨s₁, hsmall, h₁, hrows⟩ := (coherent_new : Coherent plainHash _).addCoinRecord (standardRecord smallCoin)
    fun r hr => (by cases hr)
  obtain ⟨s₂, hlarge, h₂, -⟩ := h₁.addCoinRecord (standardRecord largeCoin) fun r hr => by
    rw [hrows, Dict.get?_set] at hr
    split at hr
    · cases hr
      rfl
    · cases hr
  have hstore : sampleWallet.coinStore = s₂ := by
    change (exec _ (exec _ _).2).2 = s₂
    rw [hsmall, hlarge]
  exact hstore ▸ h₂.toKeyed

theorem select_coins_returns_fewest_large : selectCoins sampleWalletEnv 1 sampleWallet 6 [] = .ok {largeCoin} ∧
      Eligible sampleWalletEnv.toWalletEnv sampleWallet 1 [] largeCoin := by
  have hrun : selectCoins sampleWalletEnv 1 sampleWallet 6 [] = .ok {largeCoin} := by decide +kernel
  have hall := (@select_coins_returns_fewest sampleWalletEnv sampleWallet 1 keyed_sampleWallet (by decide +kernel) 6
    []).1 _ hrun
  exact ⟨hrun, hall.1 largeCoin (Finset.mem_singleton_self _)⟩

end SectorChain.Proofs.WalletCoins
