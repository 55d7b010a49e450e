import SectorChain.Wallet.WalletStores
import Mathlib.Data.List.Pairwise

/-!
# Pages of transactions

Pages skip the lowest heights of all wallets instead of the pages before.
-/

namespace SectorChain.Proofs.TransactionPages

open Lib WalletTransactionStore List

variable {order : RowOrder} {s : WalletTransactionStore} {id size start : ℕ}
variable {rows : List TransactionRecord} {top : TransactionRecord}

def walletRows (s : WalletTransactionStore) (walletId : ℕ) : List TransactionRecord :=
  (s.transactionRecord.entries.map Prod.snd).filter fun r => r.walletId = walletId

def pages (order : RowOrder) (s : WalletTransactionStore) (walletId pageSize : ℕ) : List (List TransactionRecord) :=
  (List.range ((getTransactionCountForWallet s walletId + pageSize - 1) / pageSize)).map fun k =>
    getTransactionsBetween order s walletId (k * pageSize : ℕ) (k * pageSize + pageSize : ℕ)

/-- The pages together list every transaction of the wallet once, the most recent one first. -/
def ListsAll (order : RowOrder) (s : WalletTransactionStore) (walletId pageSize : ℕ) : Prop :=
  (pages order s walletId pageSize).flatten.Perm (walletRows s walletId) ∧
    (pages order s walletId pageSize).flatten.Pairwise fun a b => b.confirmedAtHeight ≤ a.confirmedAtHeight

/-- The table is keyed by the names of its records. -/
def Keyed (s : WalletTransactionStore) : Prop := ∀ k r, s.transactionRecord.get? k = some r → r.name = k

lemma Keyed.nodup_names (h : Keyed s) :
    ((s.transactionRecord.entries.map Prod.snd).map TransactionRecord.name).Nodup := by
  have hnames : s.transactionRecord.entries.map (TransactionRecord.name ∘ Prod.snd) =
      s.transactionRecord.entries.map Prod.fst :=
    map_congr_left fun e he => h e.1 e.2 (Dict.mem_entries.mp he)
  rw [map_map, hnames]
  exact s.transactionRecord.nodup

lemma Keyed.eq_of_name (h : Keyed s) {r r' : TransactionRecord} (hr : r ∈ s.transactionRecord.entries.map Prod.snd)
    (hr' : r' ∈ s.transactionRecord.entries.map Prod.snd) (hname : r.name = r'.name) : r = r' :=
  inj_on_of_nodup_map h.nodup_names hr hr' hname

def IsFirst (order : RowOrder) (rows : List TransactionRecord) (top : TransactionRecord) : Prop :=
  top ∈ rows ∧ ∀ r ∈ rows, order.before top r

lemma IsFirst.mem_take_insertionSort (h : IsFirst order rows top) (hkeyed : Keyed s)
    (hrows : rows ⊆ s.transactionRecord.entries.map Prod.snd) (hpage : 0 < size) :
    top ∈ (rows.insertionSort order.before).take size := by
  have hsorted := pairwise_insertionSort order.before rows
  have htop : top ∈ rows.insertionSort order.before := (mem_insertionSort _).mpr h.1
  cases hcases : rows.insertionSort order.before with
  | nil =>
    rw [hcases] at htop
    cases htop
  | cons r rest =>
    obtain ⟨n, rfl⟩ := Nat.exists_eq_succ_of_ne_zero hpage.ne'
    have hr : r ∈ rows := (mem_insertionSort _).mp (hcases ▸ mem_cons_self)
    rw [hcases] at htop hsorted
    rcases mem_cons.mp htop with rfl | hrest
    · exact mem_cons_self
    · have hname := order.antisymm top r (h.2 r hr) ((pairwise_cons.mp hsorted).1 top hrest)
      exact hkeyed.eq_of_name (hrows h.1) (hrows hr) hname ▸ mem_cons_self

lemma exists_isFirst (order : RowOrder) (hne : rows ≠ []) : ∃ top, IsFirst order rows top := by
  have hsorted := pairwise_insertionSort order.before rows
  cases hcases : rows.insertionSort order.before with
  | nil => exact absurd (hcases ▸ perm_insertionSort order.before rows).nil_eq.symm hne
  | cons top rest =>
    have hmem : ∀ {r}, r ∈ rows ↔ r ∈ top :: rest := fun {r} => by rw [← hcases, mem_insertionSort]
    rw [hcases] at hsorted
    refine ⟨top, hmem.mpr mem_cons_self, fun r hr => ?_⟩
    rcases mem_cons.mp (hmem.mp hr) with rfl | hrest
    · exact (order.total.total r r).elim id id
    · exact (pairwise_cons.mp hsorted).1 r hrest

/-- What is skipped is a first part of the heights. -/
lemma mem_take_of_le {heights : List ℕ} {n h h' : ℕ} (hmem : h ∈ heights) (hle : h ≤ h')
    (htake : h' ∈ (heights.insertionSort (· ≤ ·)).take n) : h ∈ (heights.insertionSort (· ≤ ·)).take n := by
  have hsorted := pairwise_insertionSort (· ≤ ·) heights
  have hmem' : h ∈ heights.insertionSort (· ≤ ·) := (mem_insertionSort _).mpr hmem
  rw [← take_append_drop n (heights.insertionSort _)] at hsorted hmem'
  rcases mem_append.mp hmem' with hfirst | hlast
  · exact hfirst
  · have hge := (pairwise_append.mp hsorted).2.2 h' htake h hlast
    rwa [le_antisymm hle hge]

/-- A page is empty, or has the most recent transaction. -/
lemma IsFirst.mem_page (h : IsFirst order (walletRows s id) top) (hkeyed : Keyed s) (hpage : 0 < size)
    (hne : getTransactionsBetween order s id start (start + size : ℕ) ≠ []) :
    top ∈ getTransactionsBetween order s id start (start + size : ℕ) := by
  unfold getTransactionsBetween at hne ⊢
  rw [Nat.cast_add, add_sub_cancel_left] at hne ⊢
  simp only [limitRows_natCast] at hne ⊢
  obtain ⟨r, hr⟩ := exists_mem_of_ne_nil _ hne
  have hr' := (mem_insertionSort _).mp (mem_of_mem_take (mem_reverse.mp hr))
  simp only [mem_filter, decide_eq_true_eq] at hr'
  obtain ⟨hrow, hwallet, hkept⟩ := hr'
  obtain ⟨htop, hbefore⟩ := h
  rw [mem_reverse]
  refine IsFirst.mem_take_insertionSort ⟨?_, fun r' hr' => ?_⟩ hkeyed (filter_subset_self _) hpage
  · obtain ⟨htop, htopWallet⟩ := mem_filter.mp htop
    refine mem_filter.mpr ⟨htop, decide_eq_true ⟨by simpa using htopWallet, fun hskip => hkept ?_⟩⟩
    have hle := order.falling top r (hbefore r (mem_filter.mpr ⟨hrow, decide_eq_true hwallet⟩))
    exact mem_take_of_le (mem_map_of_mem hrow) hle hskip
  · simp only [mem_filter, decide_eq_true_eq] at hr'
    exact hbefore r' (mem_filter.mpr ⟨hr'.1, decide_eq_true hr'.2.1⟩)

lemma first_page (order : RowOrder) (s : WalletTransactionStore) (id size : ℕ) :
    getTransactionsBetween order s id 0 size =
      (((walletRows s id).insertionSort order.before).take size).reverse := by
  unfold getTransactionsBetween walletRows
  simp

lemma length_walletRows : (walletRows s id).length = getTransactionCountForWallet s id := by
  unfold walletRows getTransactionCountForWallet
  rw [countP_eq_length_filter]

lemma flatten_pages (hkeyed : Keyed s) (hpage : 0 < size) (hlists : ListsAll order s id size) :
    (pages order s id size).flatten = getTransactionsBetween order s id 0 size := by
  by_cases hne : walletRows s id = []
  · rw [first_page, hne]
    have hflatten := hlists.1
    rw [hne] at hflatten
    simpa using hflatten.eq_nil
  obtain ⟨top, htop⟩ := exists_isFirst order hne
  have hdisjoint := (nodup_flatten.mp (hlists.1.nodup_iff.mpr ((hkeyed.nodup_names.of_map _).filter _))).2
  have hpos : 0 < getTransactionCountForWallet s id := by
    rw [← length_walletRows]
    exact length_pos_iff.mpr hne
  obtain ⟨n, hn⟩ : ∃ n, (getTransactionCountForWallet s id + size - 1) / size = n + 1 :=
    Nat.exists_eq_succ_of_ne_zero (Nat.div_pos (by omega) hpage).ne'
  unfold pages at hdisjoint ⊢
  rw [hn, range_succ_eq_map, map_cons, Nat.zero_mul, Nat.zero_add, Nat.cast_zero] at hdisjoint ⊢
  have hfirst : top ∈ getTransactionsBetween order s id 0 size := by
    rw [first_page, mem_reverse]
    exact htop.mem_take_insertionSort hkeyed (filter_subset_self _) hpage
  rw [flatten_cons, flatten_eq_nil_iff.mpr, append_nil]
  intro page hmem
  have hapart := (pairwise_cons.mp hdisjoint).1 page hmem
  obtain ⟨k, -, rfl⟩ := mem_map.mp hmem
  by_contra hnonempty
  exact hapart hfirst (htop.mem_page hkeyed hpage hnonempty)

/-- Pages list all transactions in order exactly if one page holds them at one height. -/
theorem pages_list_all_iff (hkeyed : Keyed s) (hpage : 0 < size) : ListsAll order s id size ↔
    getTransactionCountForWallet s id ≤ size ∧
      ∀ r ∈ walletRows s id, ∀ r' ∈ walletRows s id, r.confirmedAtHeight = r'.confirmedAtHeight := by
  have hperm := perm_insertionSort order.before (walletRows s id)
  have hlength := hperm.length_eq.trans length_walletRows
  constructor
  · intro hlists
    have hflatten := flatten_pages hkeyed hpage hlists
    obtain ⟨hall, hfalling⟩ := hlists
    rw [hflatten, first_page] at hall hfalling
    have hcount : getTransactionCountForWallet s id ≤ size := by
      have := hall.length_eq
      rw [length_reverse, length_take, length_walletRows] at this
      omega
    rw [take_of_length_le (hlength.trans_le hcount), pairwise_reverse] at hfalling
    have hrising := (pairwise_insertionSort order.before (walletRows s id)).imp (order.falling _ _)
    have hle : ∀ r ∈ walletRows s id, ∀ r' ∈ walletRows s id, r.confirmedAtHeight ≤ r'.confirmedAtHeight :=
      fun r hr r' hr' => hfalling.forall_of_forall_of_flip (fun r _ => le_refl r.confirmedAtHeight) hrising
        (hperm.mem_iff.mpr hr) (hperm.mem_iff.mpr hr')
    exact ⟨hcount, fun r hr r' hr' => le_antisymm (hle r hr r' hr') (hle r' hr' r hr)⟩
  · rintro ⟨hcount, hequal⟩
    have hpages : (pages order s id size).flatten = ((walletRows s id).insertionSort order.before).reverse := by
      unfold pages
      rcases Nat.eq_zero_or_pos (getTransactionCountForWallet s id) with hzero | hpos
      · rw [Nat.div_eq_of_lt (by omega), length_eq_zero_iff.mp (hlength.trans hzero)]
        rfl
      · rw [Nat.div_eq_of_lt_le (n := size) (k := 1) (by omega) (by omega)]
        simp [first_page, take_of_length_le (hlength.trans_le hcount)]
    unfold ListsAll
    rw [hpages]
    refine ⟨(reverse_perm _).trans hperm, pairwise_of_forall_mem_list fun r hr r' hr' => ?_⟩
    rw [mem_reverse, hperm.mem_iff] at hr hr'
    exact (hequal r' hr' r hr).le

def byName : RowOrder where
  before a b := b.confirmedAtHeight < a.confirmedAtHeight ∨
    a.confirmedAtHeight = b.confirmedAtHeight ∧ beNat a.name.toBytes ≤ beNat b.name.toBytes
  decidable _ _ := inferInstance
  total := ⟨by grind⟩
  trans := ⟨by grind⟩
  antisymm a b hab hba := by
    have heq : beNat a.name.toBytes = beNat b.name.toBytes := by grind
    exact SizedBytes.toBytes_injective (beNat_injective (by simp) heq)
  falling := by grind

def twoTransactions (height : ℕ) : WalletTransactionStore :=
  { WalletTransactionStore.new with
    transactionRecord := (Dict.empty.set (.ofNat 32 7) ⟨5, true, [], [], 1, .ofNat 32 7⟩).set (.ofNat 32 8)
      ⟨height, true, [], [], 1, .ofNat 32 8⟩ }

lemma keyed_twoTransactions (height : ℕ) : Keyed (twoTransactions height) := by
  intro k r hr
  unfold twoTransactions at hr
  simp only [Dict.get?_set, Dict.get?_empty] at hr
  grind

theorem pages_list_all_iff_two : ListsAll byName (twoTransactions 5) 1 2 :=
  (pages_list_all_iff (keyed_twoTransactions 5) (by decide)).mpr (by decide +kernel)

/-- Two transactions come in the wrong order, and on pages of one the second is missing. -/
theorem pages_miss_transaction :
    (pages byName (twoTransactions 6) 1 2).map (List.map TransactionRecord.confirmedAtHeight) = [[5, 6]] ∧
    (pages byName (twoTransactions 6) 1 1).map (List.map TransactionRecord.confirmedAtHeight) = [[6], [6]] := by
  decide +kernel

end SectorChain.Proofs.TransactionPages
