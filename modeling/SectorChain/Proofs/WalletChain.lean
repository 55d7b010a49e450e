import SectorChain.Wallet.WalletBlockchain

/-!
# What the steps of adding a block change

Each step of the transaction leaves most of the blockchain alone.
-/

namespace SectorChain.Header.WalletBlockchain

open Lib

variable {blockRecord : BlockRecord} {forkH : ℤ} {fromWallet : List CoinSolution} {hash : Bytes32}
  {s s' : WalletBlockchain} {st : Statement} {α : Type}
variable {curr : Bytes32} {f : WalletBlockchain → α} {hbr : HeaderBlockRecord} {spends : List CoinSolution} {u : Unit}

/-- Everything but the cache of the block store. -/
def forgetCache (s : WalletBlockchain) : WalletBlockchain := { s with blockCache := .new 0 }

/-- Everything but the block store. -/
def forgetBlockStore (s : WalletBlockchain) : WalletBlockchain :=
  { s with blockCache := .new 0, headerBlocks := .empty, blockRecordRows := .empty }

lemma blockStore_of_cache (h : Same forgetCache s s') : Same forgetBlockStore s s' :=
  h.apply forgetBlockStore

section

variable {env : WalletChainEnv} {faults : Faults} {R : WalletBlockchain → WalletBlockchain → Prop}

lemma keeps_statement {op : WalletBlockchain → Except PyError α × WalletBlockchain}
    [Std.Refl R] (h : ∀ s, R s (op s).2) : Keeps R (statement faults st op) := by
  intro s
  unfold statement
  split
  · exact h s
  · split
    · exact h s
    · exact Std.Refl.refl s

lemma keeps_query [Std.Refl R] : Keeps R (query faults st f) :=
  keeps_statement fun s => Std.Refl.refl s

lemma keeps_update {f : WalletBlockchain → WalletBlockchain} [Std.Refl R] (h : ∀ s, R s (f s)) :
    Keeps R (update faults st f) :=
  keeps_statement h

lemma keeps_onStores {m : WalletStoresM α} (h : ∀ s stores, R s { s with stores := stores }) :
    Keeps R (onStores m) := fun s => h s _

lemma keeps_blockCacheGet : Keeps (Same forgetCache) (blockCacheGet hash) := fun _ => rfl

lemma keeps_blockCachePut {block : Option HeaderBlockRecord} :
    Keeps (Same forgetCache) (blockCachePut hash block) := fun _ => rfl

lemma keeps_getHeaderBlockRecord : Keeps (Same forgetCache) (getHeaderBlockRecord env faults hash) := by
  apply keeps_bind keeps_blockCacheGet
  intro cached
  cases cached with
  | some cached => exact keeps_pure _
  | none =>
    refine keeps_bind (R := Same forgetCache) keeps_query fun row => ?_
    cases row with
    | none => exact keeps_pure _
    | some hbr => exact keeps_bind keeps_blockCachePut fun _ => keeps_pure _

lemma keeps_getBlockRecord : Keeps (Same forgetCache) (getBlockRecord faults hash) :=
  keeps_query

lemma keeps_coinSpendsOf : Keeps (Same forgetCache) (coinSpendsOf faults blockRecord fromWallet curr) := by
  unfold coinSpendsOf
  split
  · exact keeps_pure _
  · exact keeps_bind keeps_query fun _ => keeps_pure _

lemma keeps_blocksToAddFrom (fuel : ℕ)
    (curr : Bytes32) : Keeps (Same forgetCache) (blocksToAddFrom env faults blockRecord fromWallet forkH fuel curr) := by
  induction fuel generalizing curr with
  | zero => exact keeps_throw _
  | succ fuel ih =>
    apply keeps_get_bind
    intro s
    apply keeps_lift_bind
    intro atFork
    split
    · exact keeps_pure _
    apply keeps_bind keeps_getHeaderBlockRecord
    intro header
    apply keeps_bind keeps_getBlockRecord
    intro record
    apply keeps_bind keeps_coinSpendsOf
    intro spends
    apply keeps_lift_bind
    intro header
    apply keeps_lift_bind
    intro record
    split
    · exact keeps_pure _
    · exact keeps_bind (ih _) fun _ => keeps_pure _

lemma keeps_dropCached : Keeps (Same forgetCache) (dropCached hash) := by
  apply keeps_bind keeps_blockCacheGet
  intro cached
  split
  · exact keeps_blockCachePut
  · exact keeps_pure _

lemma keeps_storeBlockRecord :
    Keeps (Same forgetBlockStore) (storeBlockRecord env faults hbr blockRecord spends) := by
  apply keeps_bind (keeps_dropCached.imp fun _ _ => blockStore_of_cache)
  intro _
  refine keeps_bind (R := Same forgetBlockStore) (keeps_update fun _ => rfl) fun _ => ?_
  refine keeps_bind (R := Same forgetBlockStore) (keeps_update fun _ => rfl) fun _ => ?_
  split
  · exact keeps_update fun _ => rfl
  · exact keeps_pure _

lemma keeps_setPeak : Keeps (Same forgetBlockStore) (setPeak faults hash) :=
  keeps_bind (keeps_update fun _ => rfl) fun _ => keeps_update fun _ => rfl

lemma update_ok {f : WalletBlockchain → WalletBlockchain}
    (h : exec (update faults st f) s = (.ok u, s')) : s' = f s := by
  unfold update statement at h
  split at h
  · cases h
    rfl
  · cases h

lemma query_ok {a : α} (h : exec (query faults st f) s = (.ok a, s')) : a = f s := by
  unfold query statement at h
  split at h
  · cases h
    rfl
  · cases h

lemma storeBlockRecord_ok (h : exec (storeBlockRecord env faults hbr blockRecord spends) s = (.ok u, s')) :
    s'.blockRecordRows = s.blockRecordRows.set (hbr.header.headerHash env.header) ⟨blockRecord, false⟩ := by
  obtain ⟨_, s₁, hdrop, h⟩ := exec_bind_ok.mp h
  obtain ⟨_, s₂, hheader, h⟩ := exec_bind_ok.mp h
  obtain ⟨_, s₃, hrecord, h⟩ := exec_bind_ok.mp h
  have hs₂ := update_ok hheader
  have hs₃ := update_ok hrecord
  have hs' : s' = s₃ := by
    split at h
    · exact update_ok h
    · cases h
      rfl
  have hrows : s₁.blockRecordRows = s.blockRecordRows := (keeps_dropCached.rel hdrop).apply blockRecordRows
  subst hs' hs₃ hs₂
  rw [← hrows]

/-- Everything but the records in memory. -/
def forgetRecords (s : WalletBlockchain) : WalletBlockchain := { s with blockRecords := .empty, heightsInCache := .empty }

/-- Records are only dropped. -/
def Shrinks (s s' : WalletBlockchain) : Prop :=
  ∀ h r, s'.blockRecords.get? h = some r → s.blockRecords.get? h = some r

instance : Std.Refl Shrinks := ⟨fun _ _ _ h => h⟩

instance : IsTrans WalletBlockchain Shrinks := ⟨fun _ _ _ h h' k r hr => h k r (h' k r hr)⟩

section Clean

variable [Std.Refl R] [IsTrans WalletBlockchain R]

lemma keeps_cleanBlockRecord (hrecord : ∀ s h, R s { s with blockRecords := s.blockRecords.erase h })
    (hheight : ∀ s h, R s { s with heightsInCache := s.heightsInCache.erase h }) (height : ℤ) :
    Keeps R (cleanBlockRecord height) := by
  have hclean : ∀ h, Keeps R (cleanHeight h) := by
    intro h
    apply keeps_get_bind
    intro s
    split
    · exact keeps_pure _
    · refine keeps_bind (keeps_forM fun x _ => ?_) fun _ => keeps_bind (keeps_modify fun s => hheight s h) fun _ =>
        keeps_pure _
      exact keeps_get_bind fun s => keeps_lift_bind fun _ => keeps_modify fun s => hrecord s x
  have hfrom : ∀ h, Keeps R (cleanFrom h) := by
    intro h
    induction h with
    | zero => exact keeps_bind (hclean 0) fun _ => keeps_pure _
    | succ h ih =>
      apply keeps_bind (hclean (h + 1))
      intro cleaned
      split
      · exact ih
      · exact keeps_pure _
  unfold cleanBlockRecord
  split
  · exact keeps_pure _
  · exact hfrom _

end Clean

lemma clean_forgetRecords (height : ℤ) : Keeps (Same forgetRecords) (cleanBlockRecord height) :=
  keeps_cleanBlockRecord (fun _ _ => rfl) (fun _ _ => rfl) height

lemma clean_shrinks (height : ℤ) : Keeps Shrinks (cleanBlockRecord height) := by
  refine keeps_cleanBlockRecord (fun s h k r hr => ?_) (fun s h k r hr => hr) height
  rw [Dict.get?_erase] at hr
  split at hr
  · cases hr
  · exact hr

lemma keeps_beginTransaction : Keeps (Same fun s => { s with saved := none }) (beginTransaction faults) :=
  keeps_statement fun s => by
    split
    · rfl
    · rfl

lemma applyBlock_height {fetched : FetchedBlock} {r : Except PyError Unit}
    (h : exec (applyBlock env fetched) s = (r, s')) :
    s'.heightToHash = s.heightToHash.set fetched.2.1.height fetched.2.1.headerHash := by
  unfold applyBlock changeHeight at h
  split at h
  · have hkeeps : Keeps (Same heightToHash) (onStores (env.newTransactionBlockCallback fetched.1.removals
        fetched.1.additions fetched.2.1 fetched.2.2)) := keeps_onStores fun _ _ => rfl
    exact hkeeps.rel h
  · cases h
    rfl

lemma atFork_ok {stop : Bool} (h : atFork s forkH curr = .ok stop) :
    stop = true → s.heightToHash.get? forkH.toNat = some curr := by
  rintro rfl
  unfold atFork at h
  split at h
  · cases h
  obtain ⟨hash, hat, h⟩ := bind_eq_ok.mp h
  have heq : curr = hash := of_decide_eq_true (Except.ok.inj h)
  subst heq
  unfold Blocks.hashAt at hat
  split at hat
  · rename_i x hx
    cases hat
    exact hx
  · cases hat

lemma blocksToAdd_head {fuel : ℕ} {blocks : List FetchedBlock} {row : WalletBlockRow}
    (hrow : s.blockRecordRows.get? blockRecord.headerHash = some row) (h : exec (blocksToAddFrom env faults blockRecord
      fromWallet forkH (fuel + 1) blockRecord.headerHash) s = (.ok blocks, s')) :
    (blocks = [] ∧ s.heightToHash.get? forkH.toNat = some blockRecord.headerHash) ∨
      ∃ header spends older, blocks = (header, row.block, spends) :: older := by
  rw [blocksToAddFrom, exec_get_bind] at h
  obtain ⟨stop, s₁, hlift, h⟩ := exec_bind_ok.mp h
  obtain ⟨hstop, rfl⟩ := exec_lift_eq.mp hlift
  cases stop with
  | true =>
    cases h
    exact .inl ⟨rfl, atFork_ok hstop rfl⟩
  | false =>
  right
  obtain ⟨header, s₂, hheader, h⟩ := exec_bind_ok.mp h
  obtain ⟨record, s₃, hrecord, h⟩ := exec_bind_ok.mp h
  obtain ⟨spends, s₄, -, h⟩ := exec_bind_ok.mp h
  obtain ⟨header, s₅, -, h⟩ := exec_bind_ok.mp h
  obtain ⟨record', s₆, hlift', h⟩ := exec_bind_ok.mp h
  have hrows : s₂.blockRecordRows = s.blockRecordRows := (keeps_getHeaderBlockRecord.rel hheader).apply blockRecordRows
  obtain rfl := query_ok hrecord
  obtain ⟨hsome, -⟩ := exec_lift_eq.mp hlift'
  rw [hrows, hrow] at hsome
  cases hsome
  split at h
  · cases h
    exact ⟨header, spends, [], rfl⟩
  · obtain ⟨older, s₇, -, h⟩ := exec_bind_ok.mp h
    cases h
    exact ⟨header, spends, older, rfl⟩

end

end SectorChain.Header.WalletBlockchain
