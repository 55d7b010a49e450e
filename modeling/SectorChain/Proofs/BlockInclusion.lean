import SectorChain.Proofs.MempoolAcceptance
import SectorChain.Proofs.StatedCoins

/-!
# From the mempool into a block
-/

namespace SectorChain.Proofs

open Lib List Dict
open MempoolItem (fee additions)

variable {Q : Type} {env : MempoolEnv Q} {coins : Set Coin}
variable {k : Bytes32} {r : CoinRecord}

/-- Ids of coins do not collide, and no coin is its own ancestor. -/
structure CoinIds (env : Env) (coins : Set Coin) : Prop where
  injective : Set.InjOn (Coin.name env.stdHash) coins
  acyclic : ∃ rank : Bytes32 → ℕ, ∀ c ∈ coins, rank c.parentCoinInfo < rank (c.name env.stdHash)

/-- The parent of a coin is spent, unless the coin is a reward, whose parent is no coin. -/
structure Grounded (env : Env) (coins : Set Coin) (table : Dict Bytes32 CoinRecord) : Prop where
  named : ∀ {k r}, table.get? k = some r → r.coin.name env.stdHash = k
  known : ∀ {k r}, table.get? k = some r → r.coin ∈ coins
  parent : ∀ {k r}, table.get? k = some r → r.coinbase = false →
    ∃ p, table.get? r.coin.parentCoinInfo = some p ∧ p.spent = true
  reward : ∀ {k r}, table.get? k = some r → r.coinbase = true → ∀ c ∈ coins, c.name env.stdHash ≠ r.coin.parentCoinInfo

variable {peak : BlockRecord} {table : Dict Bytes32 CoinRecord} {item : MempoolItem}
  {records : Dict Bytes32 CoinRecord}

lemma ItemChecked.exists_record (h : ItemChecked env peak table item records)
    (hk : k ∈ spentNames item) : ∃ record, records.get? k = some record := by
  rw [← h.keys] at hk
  exact mem_keys.mp hk

lemma ItemChecked.not_created (hids : CoinIds env.toEnv coins)
    (hgrounded : Grounded env.toEnv coins table) (h : ItemChecked env peak table item records)
    (hknown : ∀ c ∈ item.additions, c ∈ coins) (hr : table.get? k = some r) : r.coin ∉ item.additions := by
  obtain ⟨rank, hrank⟩ := hids.acyclic
  -- by induction on the rank: the parent of the coin would be created by the item as well
  induction hn : rank k using Nat.strong_induction_on generalizing k r with
  | _ n ih =>
  intro hcreated
  have hparent := parent_mem_of_additionsForNpc h.additions hcreated
  obtain ⟨record, hrecord⟩ := h.exists_record hparent
  cases hcoinbase : r.coinbase with
  | true =>
    have hno := hgrounded.reward hr hcoinbase
    cases h.record hrecord with
    | ephemeral coin time hcoin hname _ _ => exact hno coin (hknown coin hcoin) hname
    | stored _ hstored _ => exact hno record.coin (hgrounded.known hstored) (hgrounded.named hstored)
  | false =>
    obtain ⟨p, hp, hspent⟩ := hgrounded.parent hr hcoinbase
    cases h.record hrecord with
    | ephemeral coin time hcoin hname _ _ =>
      have hsame : p.coin = coin := hids.injective (hgrounded.known hp) (hknown coin hcoin)
        ((hgrounded.named hp).trans hname.symm)
      have hlt := hrank r.coin (hgrounded.known hr)
      rw [hgrounded.named hr, hn] at hlt
      exact ih _ hlt hp rfl (hsame ▸ hcoin)
    | stored _ hstored hunspent =>
      rw [hp] at hstored
      cases hstored
      rw [hspent] at hunspent
      cases hunspent

/-- Before the block, the coin of the record is unspent in the store and on the fork. -/
def FindsCoin (table : Dict Bytes32 CoinRecord) (forkH : ℤ) (since : SinceFork) (k : Bytes32)
    (r : CoinRecord) : Prop :=
  k ∉ since.removals ∧ ∃ r', existingCoinRecord forkH since k (table.get? k) = .ok r' ∧ r'.coin = r.coin ∧
    r'.confirmedBlockIndex = r.confirmedBlockIndex ∧ r'.timestamp = r.timestamp

lemma findsCoin_of_unspent {forkH : ℤ} (hr : table.get? k = some r) (hunspent : r.spent = false)
    (hconfirmed : r.confirmedBlockIndex ≤ forkH) : FindsCoin table forkH ⟨.empty, []⟩ k r := by
  refine ⟨not_mem_nil, r, ?_, rfl, rfl, rfl⟩
  rw [hr]
  unfold existingCoinRecord
  dsimp only
  rw [if_pos hconfirmed, hunspent]
  rfl

lemma length_reorgBlocksFrom {forkH : ℤ} {fuel : ℕ} {curr : FullBlock} {acc blocks : Dict ℕ FullBlock} {n n₁ : Node}
    (h : exec (reorgBlocksFrom forkH fuel curr acc) n = (.ok blocks, n₁)) :
    acc.entries.length ≤ blocks.entries.length := by
  induction fuel generalizing curr acc n with
  | zero => cases h
  | succ fuel ih =>
    unfold reorgBlocksFrom at h
    split at h
    · obtain ⟨_, n₂, -, h⟩ := exec_bind_ok.mp h
      obtain ⟨prev, n₃, -, h⟩ := exec_bind_ok.mp h
      refine le_trans ?_ (ih h)
      rw [Dict.length_set]
      split <;> omega
    · cases h
      exact le_rfl

lemma sinceFork_extending {env : Env} {block : FullBlock} {height : ℕ} (hheight : height ≠ 0) {forkH : ℤ}
    (hfork : forkH = height - 1) {n n₁ : Node} {since : SinceFork}
    (h : exec (sinceFork env getGenerator block height forkH) n = (.ok since, n₁)) : since = ⟨.empty, []⟩ := by
  unfold sinceFork at h
  rw [if_neg hheight] at h
  obtain ⟨_, n₂, -, h⟩ := exec_bind_ok.mp h
  obtain ⟨prevBlock, n₃, -, h⟩ := exec_bind_ok.mp h
  obtain ⟨reorgBlocks, n₄, hreorg, h⟩ := exec_bind_ok.mp h
  rw [if_pos (by omega)] at h
  obtain ⟨_, n₅, hassert, h⟩ := exec_bind_ok.mp h
  have hlength := of_decide_eq_true (pyAssert_ok.mp (exec_lift_eq.mp hassert).1)
  -- the assertion fails if the block before is above the fork point
  have hle : ¬ (prevBlock.height : ℤ) > forkH := by
    intro hgt
    unfold reorgBlocksFrom at hreorg
    rw [if_pos ⟨hgt, by omega⟩] at hreorg
    obtain ⟨_, n₆, -, hreorg⟩ := exec_bind_ok.mp hreorg
    obtain ⟨prev, n₇, -, hreorg⟩ := exec_bind_ok.mp hreorg
    have hpos := length_reorgBlocksFrom hreorg
    have hnew : prev.height ∉ (Dict.empty : Dict ℕ FullBlock).keys := not_mem_nil
    rw [Dict.length_set, if_neg hnew] at hpos
    omega
  unfold sinceForkFrom at h
  rw [if_neg hle] at h
  cases h
  rfl

section Records

variable (env : Env) (additionsDic : Dict Bytes32 Coin) (time height : ℕ) (forkH : ℤ)
  (since : SinceFork)

def removalRecordOf (table : Dict Bytes32 CoinRecord) (rem : Bytes32) : Except Exit CoinRecord :=
  match additionsDic.get? rem with
  | some remCoin => .ok ⟨remCoin, height, height, true, false, time⟩
  | none => do
    let record ← existingCoinRecord forkH since rem (table.get? rem)
    require (rem ∉ since.removals) .DOUBLE_SPEND_IN_FORK
    return record

variable {env additionsDic time height forkH since} {n n₁ n₂ : Node}

lemma removalCoinRecord_cases (hreads : Reads env n n₁)
    (hnamed : ∀ {k r}, n.db.coinRecord.get? k = some r → r.coin.name env.stdHash = k)
    (hcache : n.coinRecordCache.Within n.db.coinRecord.get?) {rem : Bytes32} {r : Except Exit CoinRecord}
    (hrun : exec (removalCoinRecord env additionsDic time height forkH since rem) n₁ = (r, n₂)) :
    (∃ e, r = .error (.raised e)) ∨ r = removalRecordOf additionsDic time height forkH since n.db.coinRecord rem := by
  unfold removalCoinRecord at hrun
  unfold removalRecordOf
  cases hget : additionsDic.get? rem with
  | some remCoin =>
    rw [hget] at hrun
    cases hrun
    exact .inr rfl
  | none =>
    rw [hget] at hrun
    unfold raising at hrun
    rw [exec_bind, exec_adapt] at hrun
    obtain ⟨answer, cache, faults, hstore, -, -, hok⟩ := getCoinRecord_cases env rem n₁
    rw [hstore] at hrun
    cases answer with
    | error e =>
      cases hrun
      exact .inl ⟨e, rfl⟩
    | ok unspent =>
      have hunspent := hok unspent rfl
      rw [peek_or_get? hreads hnamed hcache] at hunspent
      subst hunspent
      right
      dsimp only [Except.mapError] at hrun
      generalize existingCoinRecord forkH since rem (n.db.coinRecord.get? rem) = existing at hrun ⊢
      generalize require (rem ∉ since.removals) .DOUBLE_SPEND_IN_FORK = required at hrun ⊢
      cases existing <;> cases required <;> cases hrun <;> rfl

lemma removalCoinRecords_cases (hreads : Reads env n n₁)
    (hnamed : ∀ {k r}, n.db.coinRecord.get? k = some r → r.coin.name env.stdHash = k)
    (hcache : n.coinRecordCache.Within n.db.coinRecord.get?) {removals : List Bytes32} {acc : Dict Bytes32 CoinRecord}
    (hnodup : (acc.keys ++ removals).Nodup)
    (hfound : ∀ rem ∈ removals, ∃ record, removalRecordOf additionsDic time height forkH since
      n.db.coinRecord rem = .ok record ∧ record.coin.name env.stdHash = rem)
    {r : Except Exit (Dict Bytes32 CoinRecord)}
    (hrun : exec (removals.foldlM (fun records rem => do
      let record ← removalCoinRecord env additionsDic time height forkH since rem
      return records.set (record.name env.stdHash) record) acc) n₁ = (r, n₂)) :
    (∃ e, r = .error (.raised e)) ∨ ∃ found records, r = .ok records ∧
      List.Forall₂ (fun rem record => removalRecordOf additionsDic time height forkH since
        n.db.coinRecord rem = .ok record) removals found ∧
      records.entries = acc.entries ++ removals.zip found := by
  induction removals generalizing acc n₁ with
  | nil =>
    cases hrun
    exact .inr ⟨[], acc, rfl, .nil, by simp⟩
  | cons rem removals ih =>
    obtain ⟨record, hrecord, hname⟩ := hfound rem mem_cons_self
    rw [foldlM_cons, bind_assoc, exec_bind] at hrun
    rcases hfirst : exec (removalCoinRecord env additionsDic time height forkH since rem) n₁
      with ⟨r₁, n₃⟩
    have hcases := removalCoinRecord_cases hreads hnamed hcache hfirst
    rw [hrecord] at hcases
    rw [hfirst] at hrun
    rcases hcases with ⟨e, rfl⟩ | rfl
    · cases hrun
      exact .inl ⟨e, rfl⟩
    dsimp only at hrun
    have hnew : rem ∉ acc.keys := fun hmem =>
      disjoint_of_nodup_append hnodup hmem mem_cons_self
    have hentries := entries_set_of_notMem hnew record
    have hkeys : (acc.set rem record).keys = acc.keys ++ [rem] := by
      unfold Dict.keys
      rw [hentries, map_append]
      rfl
    have hset : record.name env.stdHash = rem := hname
    rw [hset] at hrun
    have hreads' : Reads env n n₃ := hreads.trans ((keeps_removalCoinRecord env _ _ _ _ _ _).rel hfirst)
    rcases ih hreads' (by rw [hkeys, append_assoc]; exact hnodup)
      (fun rem' hrem' => hfound rem' (mem_cons_of_mem rem hrem')) hrun with
      hraised | ⟨found, records, rfl, hall, hrecords⟩
    · exact .inl hraised
    · refine .inr ⟨record :: found, records, rfl, .cons hrecord hall, ?_⟩
      rw [hrecords, hentries, append_assoc]
      rfl

end Records

lemma Reserves.append {l l' : List ConditionWithArgs} {a b : ℕ} (h : Reserves l a) (h' : Reserves l' b) :
    Reserves (l ++ l') (a + b) := by
  obtain ⟨amounts, hall, rfl⟩ := h
  obtain ⟨amounts', hall', rfl⟩ := h'
  exact ⟨amounts ++ amounts', rel_append hall hall', sum_append⟩

lemma reserves_flatMap {items : List MempoolItem} (cvpsOf : MempoolItem → List ConditionWithArgs)
    (h : ∀ item ∈ items, ∃ sum, Reserves (cvpsOf item) sum ∧ sum ≤ item.fee) :
    ∃ sum, Reserves (items.flatMap cvpsOf) sum ∧ sum ≤ (items.map fee).sum := by
  induction items with
  | nil => exact ⟨0, ⟨[], .nil, rfl⟩, le_rfl⟩
  | cons item items ih =>
    obtain ⟨a, ha, hale⟩ := h item mem_cons_self
    obtain ⟨b, hb, hble⟩ := ih fun i hi => h i (mem_cons_of_mem item hi)
    refine ⟨a + b, ha.append hb, ?_⟩
    rw [map_cons, sum_cons]
    omega

lemma foldlM_assertFee {cvps : List ConditionWithArgs} {sum : ℕ} (h : Reserves cvps sum) (start : ℕ)
    (hlt : start + sum < 2 ^ 128) :
    cvps.foldlM (fun sum cvp => do
      let var ← orRaise (ConditionWithArgs.var cvp 0)
      require (0 ≤ intFromBytes var) .RESERVE_FEE_CONDITION_FAILED
      let sum := sum + (intFromBytes var).toNat
      if sum < 2 ^ 128 then return sum else throw (.raised .valueError)) start =
      (.ok (start + sum) : Except Exit ℕ) := by
  obtain ⟨amounts, hall, rfl⟩ := h
  induction hall generalizing start with
  | nil => rfl
  | @cons cvp amount cvps amounts hhead _ ih =>
    obtain ⟨var, hvar, hamount⟩ := hhead
    rw [sum_cons] at hlt ⊢
    have hround : (do
        let var ← orRaise (ConditionWithArgs.var cvp 0)
        require (0 ≤ intFromBytes var) .RESERVE_FEE_CONDITION_FAILED
        let sum := start + (intFromBytes var).toNat
        if sum < 2 ^ 128 then return sum else throw (.raised .valueError) : Except Exit ℕ) =
        .ok (start + amount) := by
      rw [orRaise_ok.mpr hvar, ok_bind, hamount]
      rw [if_pos (by omega)]
      rfl
    rw [foldlM_cons, hround, ok_bind, ih _ (by omega), Nat.add_assoc]

lemma assertFeeSum_ok {npcList : List NPC} {sum : ℕ}
    (h : Reserves (npcList.flatMap fun npc => npc.conditionsOf .RESERVE_FEE) sum) (hlt : sum < 2 ^ 128) :
    assertFeeSum npcList = .ok sum := by
  have hfold := foldlM_assertFee h 0 (by omega)
  rw [Nat.zero_add] at hfold
  exact hfold

lemma chooseItems_fees (costSum : ℕ) {feeSum : ℕ} (items : List MempoolItem)
    (hle : feeSum ≤ env.constants.maxCoinAmount) :
    feeSum + ((chooseItems env costSum feeSum items).map fee).sum ≤ env.constants.maxCoinAmount := by
  induction items generalizing costSum feeSum with
  | nil => exact hle
  | cons item items ih =>
    unfold chooseItems
    split
    · rw [map_cons, sum_cons, ← Nat.add_assoc]
      exact ih _ (by omega)
    · exact hle

lemma createBundleFromMempool_some [LinearOrder Q] {s : MempoolManager Q} {lastTbHeaderHash : Bytes32}
    {bundle : SpendBundle}
    {created spent : List Coin}
    (h : createBundleFromMempool env s lastTbHeaderHash = .ok (some (bundle, created, spent))) :
    chooseItems env 0 0 s.mempool.byFallingFee ≠ [] ∧ bundle = SpendBundle.aggregateBundles env
      ((chooseItems env 0 0 s.mempool.byFallingFee).map MempoolItem.spendBundle) := by
  unfold createBundleFromMempool at h
  split at h
  · cases h
  dsimp only at h
  split at h
  · rename_i hpos
    iterate 3 obtain ⟨_, -, h⟩ := bind_eq_ok.mp h
    cases h
    exact ⟨ne_nil_of_length_pos hpos, rfl⟩
  · cases h

lemma expectedRewardCoins_height {env : Env} {height : ℕ} {blocks : BlockchainInterface} {ftb : FoliageTransactionBlock}
    {coins : List Coin}
    {prevHeight : ℕ} {P : BlockRecord} (hheight : height ≠ 0)
    (hprev : blocks.blockRecord ftb.prevTransactionBlockHash = .ok P)
    (h : expectedRewardCoins env blocks height ftb = .ok (coins, prevHeight)) : prevHeight = P.height := by
  unfold expectedRewardCoins at h
  rw [if_neg hheight, hprev, ok_bind] at h
  iterate 3 obtain ⟨_, -, h⟩ := bind_eq_ok.mp h
  split at h
  · obtain ⟨_, -, h⟩ := bind_eq_ok.mp h
    obtain ⟨_, -, h⟩ := bind_eq_ok.mp h
    cases h
    rfl
  · cases h
    rfl

/-- Signatures that verify can be aggregated. -/
def SignatureLaw (env : MempoolEnv Q) : Prop :=
  ∀ signed : List (List (Bytes × Bytes) × G2Element), signed ≠ [] →
    (∀ p ∈ signed, env.aggregateVerify (p.1.map Prod.fst) (p.1.map Prod.snd) p.2 = true) →
    env.aggregateVerify ((signed.flatMap Prod.fst).map Prod.fst) ((signed.flatMap Prod.fst).map Prod.snd)
      (env.aggregate (signed.map Prod.snd)) = true

/-- The block with the spends `b` follows `P` and has the spends of the items, with new coins for rewards. -/
structure FollowsPeak (env : MempoolEnv Q) (P : BlockRecord) (table : Dict Bytes32 CoinRecord)
    (items : List MempoolItem) (signature : G2Element) (n : Node) (peak : Option BlockRecord)
    (block : FullBlock) (height : ℕ) (forkPointWithPeak : Option ℕ) (b : BlockSpends) : Prop where
  npcList : b.npcList = items.flatMap fun item => item.npcResult.npcList
  signature : b.info.aggregatedSignature = signature
  positive : height ≠ 0
  prevHash : b.foliageTransactionBlock.prevTransactionBlockHash = P.headerHash
  prevRecord : n.blocks.blockRecord P.headerHash = .ok P
  later : ∃ timestamp, P.timestamp = some timestamp ∧ timestamp < b.foliageTransactionBlock.timestamp
  named : ∀ {k r}, n.db.coinRecord.get? k = some r → r.coin.name env.stdHash = k
  cache : n.coinRecordCache.Within n.db.coinRecord.get?
  fresh : ∀ c ∈ b.coinbaseAdditions, table.get? (c.name env.stdHash) = none
  ledger : ∀ {forkH since n₁}, forkHeight n.blocks peak block height forkPointWithPeak = .ok forkH →
    exec (sinceFork env.toEnv getGenerator block height forkH) n = (.ok since, n₁) →
    ∀ {k r}, table.get? k = some r → r.spent = false → FindsCoin n.db.coinRecord forkH since k r

structure ConditionsPass (env : Env) (b : BlockSpends) (records : Dict Bytes32 CoinRecord) (fees : ℕ) :
    Prop where
  amounts : (b.additions.map Coin.amount).sum + fees = ((records.entries.map Prod.snd).map fun r => r.coin.amount).sum
  reserved : ∃ sum, assertFeeSum b.npcList = .ok sum ∧ sum ≤ fees
  puzzleHashes : checkPuzzleHashes env b.npcList (records.entries.map Prod.snd) = .ok ()
  conditions : ∃ pairs, checkConditions env b.coinAnnouncementNames b.puzzleAnnouncementNames b.npcList
    records b.prevTransactionBlockHeight b.foliageTransactionBlock.timestamp = .ok pairs ∧
    checkSignature env pairs b.info = .ok ()

lemma ConditionsPass.checkCoinsOfBlock {env : Env} {b : BlockSpends} {records : Dict Bytes32 CoinRecord}
    {fees height : ℕ} (h : ConditionsPass env b records fees)
    (hmax : fees + calculateBaseFarmerReward height ≤ env.constants.maxCoinAmount)
    (hfees : b.info.fees = fees) : checkCoinsOfBlock env height b records = .ok () := by
  obtain ⟨sum, hsum, hle⟩ := h.reserved
  obtain ⟨pairs, hpairs, hsigned⟩ := h.conditions
  have hamounts : checkAmounts env height b.info b.npcList b.additions (records.entries.map Prod.snd) = .ok () := by
    unfold checkAmounts
    dsimp only
    rw [← h.amounts, (require_ok (u := ())).mpr (by simp), ok_bind, hsum, ok_bind,
      (require_ok (u := ())).mpr (by simpa using hle), ok_bind,
      (require_ok (u := ())).mpr (by simpa using hmax), ok_bind,
      (require_ok (u := ())).mpr (by simpa using hfees)]
  unfold SectorChain.checkCoinsOfBlock
  dsimp only
  rw [hamounts, ok_bind, h.puzzleHashes, ok_bind, hpairs, ok_bind, hsigned]

section Items

variable [LinearOrder Q] {P : BlockRecord}

lemma AcceptedAt.exists_checked (h : AcceptedAt env P table item)
    (hnamed : ∀ {k r}, table.get? k = some r → r.coin.name env.stdHash = k) :
    ∃ records, ItemChecked env P table item records := by
  obtain ⟨s, validateSignature, henters, hpeak, rfl, hcache⟩ := h.accepted
  obtain ⟨peak, removals, replaced, hadmitted⟩ := henters.admitted
  obtain rfl : peak = P := Option.some.inj (hadmitted.atPeak.symm.trans hpeak)
  exact ⟨removals.records, hadmitted.checked hnamed hcache⟩

lemma AcceptedAt.exists_pairs (h : AcceptedAt env P table item) :
    ∃ pairs, SignedPairs env.toEnv item.npcResult.npcList pairs ∧
      env.aggregateVerify (pairs.flatten.map Prod.fst) (pairs.flatten.map Prod.snd)
        item.spendBundle.aggregatedSignature = true := by
  obtain ⟨s, first, henters, hbundle, hnpc⟩ := h.signed
  obtain ⟨peak, removals, replaced, hadmitted⟩ := henters.admitted
  obtain ⟨s₁, s₂, hspends⟩ := hadmitted.admission.spends
  rw [← hbundle, ← hnpc]
  exact (checkSpends_ok hspends).2 rfl

end Items

section Inclusion

variable {P : BlockRecord} {items : List MempoolItem} {n n₁ : Node} {peakOfNode : Option BlockRecord}
  {block : FullBlock} {height : ℕ} {forkPoint : Option ℕ} {b : BlockSpends} {signature : G2Element}
  {npcResult : Option NPCResult}

variable (hitems : ∀ item ∈ items, ∃ records, ItemChecked env P table item records)
include hitems

structure FoundAll (env : MempoolEnv Q) (P : BlockRecord) (table : Dict Bytes32 CoinRecord)
    (items : List MempoolItem) (found : Dict Bytes32 CoinRecord) : Prop where
  keys : found.keys = items.flatMap spentNames
  named : ∀ {k r}, found.get? k = some r → r.coin.name env.stdHash = k
  later : ∀ {item}, item ∈ items → ∀ {records}, ItemChecked env P table item records →
    ∀ {k record}, records.get? k = some record → ∃ record' timestamp, found.get? k = some record' ∧
      P.timestamp = some timestamp ∧ LaterRecord P.height timestamp record record'

variable {found : Dict Bytes32 CoinRecord}

lemma FoundAll.amounts (h : FoundAll env P table items found) : (found.entries.map fun e => e.2.coin.amount).sum =
      ((items.flatMap additions).map Coin.amount).sum + (items.map fee).sum := by
  let amountOf : Bytes32 → ℕ := fun k => ((found.get? k).map fun r => r.coin.amount).getD 0
  have hfound : found.entries.map (fun e => e.2.coin.amount) = found.keys.map amountOf :=
    map_entries_eq_map_keys (g := fun r : CoinRecord => r.coin.amount) fun hk => by simp [amountOf, hk]
  have hitem : ∀ item ∈ items, ((spentNames item).map amountOf).sum =
      (item.additions.map Coin.amount).sum + item.fee := by
    intro item hmem
    obtain ⟨records, hchecked⟩ := hitems item hmem
    have hentries : records.entries.map (fun e => e.2.coin.amount) = records.keys.map amountOf := by
      refine map_entries_eq_map_keys (g := fun r : CoinRecord => r.coin.amount) fun hk => ?_
      obtain ⟨record', time, hrecord', -, hlater⟩ := h.later hmem hchecked hk
      simp [amountOf, hrecord', hlater.coin]
    rw [hchecked.amounts, hentries, hchecked.keys]
  rw [hfound, h.keys]
  clear hfound h hitems
  induction items with
  | nil => rfl
  | cons item items ih =>
    rw [flatMap_cons, map_append, sum_append, hitem item mem_cons_self,
      ih fun i hi => hitem i (mem_cons_of_mem item hi), flatMap_cons, map_append,
      sum_append, map_cons, sum_cons]
    omega

def RecordsLater (env : MempoolEnv Q) (P : BlockRecord) (table : Dict Bytes32 CoinRecord)
    (items : List MempoolItem) (recordOf : Bytes32 → Except Exit CoinRecord) : Prop :=
  ∀ item ∈ items, ∀ records, ItemChecked env P table item records → ∀ k record, records.get? k = some record →
    ∃ record' timestamp, recordOf k = .ok record' ∧ record'.coin.name env.stdHash = k ∧
      P.timestamp = some timestamp ∧ LaterRecord P.height timestamp record record'

variable {recordOf : Bytes32 → Except Exit CoinRecord}

lemma RecordsLater.exists_record (h : RecordsLater env P table items recordOf) (hk : k ∈ items.flatMap spentNames) :
    ∃ record, recordOf k = .ok record ∧ record.coin.name env.stdHash = k := by
  obtain ⟨item, hitem, hk⟩ := mem_flatMap.mp hk
  obtain ⟨records, hchecked⟩ := hitems item hitem
  obtain ⟨record, hrecord⟩ := hchecked.exists_record hk
  obtain ⟨record', _, hrecord', hname, -, -⟩ := h item hitem records hchecked k record hrecord
  exact ⟨record', hrecord', hname⟩

lemma RecordsLater.foundAll (h : RecordsLater env P table items recordOf) {list : List CoinRecord}
    (hall : List.Forall₂ (fun k record => recordOf k = .ok record) (items.flatMap spentNames) list)
    (hentries : found.entries = (items.flatMap spentNames).zip list) : FoundAll env P table items found := by
  have hkeys : found.keys = items.flatMap spentNames := by
    unfold Dict.keys
    rw [hentries]
    exact map_fst_zip hall.length_eq.le
  have hget : ∀ {k r}, found.get? k = some r → recordOf k = .ok r := by
    intro k r hk
    have hmem := mem_entries.mpr hk
    rw [hentries] at hmem
    exact (forall₂_iff_zip.mp hall).2 hmem
  refine ⟨hkeys, fun {k r} hk => ?_, fun {item} hitem {records} hchecked {k record} hrecord => ?_⟩
  · obtain ⟨record, hrecord, hname⟩ := h.exists_record hitems (hkeys ▸ mem_keys.mpr ⟨r, hk⟩)
    obtain rfl : r = record := Except.ok.inj ((hget hk).symm.trans hrecord)
    exact hname
  obtain ⟨record', time, hrecord', -, htimestamp, hlater⟩ := h item hitem records hchecked k record hrecord
  have hkey : k ∈ found.keys := by
    rw [hkeys]
    refine mem_flatMap.mpr ⟨item, hitem, ?_⟩
    rw [← hchecked.keys]
    exact mem_keys.mpr ⟨record, hrecord⟩
  obtain ⟨r, hr⟩ := mem_keys.mp hkey
  obtain rfl : r = record' := Except.ok.inj ((hget hr).symm.trans hrecord')
  exact ⟨r, time, hr, htimestamp, hlater⟩

section Block

variable (hcollected : Collected env.toEnv n.blocks block height npcResult b)
  (hfollows : FollowsPeak env P table items signature n peakOfNode block height forkPoint b)
include hcollected hfollows

lemma additions_of_items : b.additions = items.flatMap additions := by
  have hadditions := hcollected.additions
  rw [hfollows.npcList] at hadditions
  have hparts : additionsForNpc (items.flatMap fun item => item.npcResult.npcList) =
      .ok (items.flatMap additions) := by
    refine flatten_mapM_flatMap fun item hitem => ?_
    obtain ⟨records, hchecked⟩ := hitems item hitem
    exact hchecked.additions
  exact Except.ok.inj (hadditions.symm.trans hparts)

lemma ItemChecked.laterRecord (hids : CoinIds env.toEnv coins) (hgrounded : Grounded env.toEnv coins table)
    (hknown : ∀ item ∈ items, ∀ c ∈ item.additions, c ∈ coins)
    {forkH : ℤ} {since : SinceFork} (hfork : forkHeight n.blocks peakOfNode block height forkPoint = .ok forkH)
    (hsince : exec (sinceFork env.toEnv getGenerator block height forkH) n = (.ok since, n₁))
    {time : ℕ} (htimestamp : P.timestamp = some time) (hitem : item ∈ items)
    (h : ItemChecked env P table item records) {record : CoinRecord} (hrecord : records.get? k = some record) :
    record.coin.name env.stdHash = k ∧
      ∃ record', removalRecordOf (coinsByName env.toEnv (b.additions ++ b.coinbaseAdditions))
          b.foliageTransactionBlock.timestamp height forkH since n.db.coinRecord k = .ok record' ∧
        LaterRecord P.height time record record' := by
  have hadditions := additions_of_items hitems hcollected hfollows
  unfold removalRecordOf
  cases h.record hrecord with
  | ephemeral coin t hcoin hname ht hephemeral =>
    subst hephemeral
    rw [htimestamp] at ht
    obtain rfl : time = t := Option.some.inj ht
    have hmem : coin ∈ b.additions ++ b.coinbaseAdditions := by
      rw [hadditions]
      exact mem_append_left _ (mem_flatMap.mpr ⟨item, hitem, hcoin⟩)
    obtain ⟨found, hfound⟩ := coinsByName_of_mem
      (mem_map_of_mem (f := Coin.name env.stdHash) hmem)
    obtain ⟨hfoundMem, hfoundName⟩ := coinsByName_get? hfound
    obtain rfl : found = coin := inj_on_of_nodup_map hcollected.nodup_additions hfoundMem hmem hfoundName
    rw [hname] at hfound
    rw [hfound]
    exact ⟨hname, _, rfl, rfl, .inr ⟨Nat.lt_succ_self _, Nat.lt_succ_self _⟩⟩
  | stored hnew hstored hunspent =>
    have hname := hgrounded.named hstored
    have hnone : (coinsByName env.toEnv (b.additions ++ b.coinbaseAdditions)).get? k = none := by
      apply Option.eq_none_iff_forall_ne_some.mpr
      intro coin hcoin
      obtain ⟨hmem, hcoinName⟩ := coinsByName_get? hcoin
      rcases mem_append.mp hmem with hmem | hmem
      · rw [hadditions] at hmem
        obtain ⟨other, hother, hmem⟩ := mem_flatMap.mp hmem
        obtain ⟨otherRecords, hchecked⟩ := hitems other hother
        have hsame : record.coin = coin := hids.injective (hgrounded.known hstored)
          (hknown other hother coin hmem) (hname.trans hcoinName.symm)
        exact hchecked.not_created hids hgrounded (hknown other hother) hstored (hsame ▸ hmem)
      · have hfresh := hfollows.fresh coin hmem
        rw [hcoinName, hstored] at hfresh
        cases hfresh
    obtain ⟨hnotRemoved, record', hfound, hcoin, hconfirmed⟩ := hfollows.ledger hfork hsince hstored hunspent
    rw [hnone]
    rw [hfound, (require_ok (u := ())).mpr (by simpa using hnotRemoved)]
    exact ⟨hname, record', rfl, hcoin, .inl hconfirmed⟩

lemma FoundAll.checkPuzzleHashes (h : FoundAll env P table items found) :
    checkPuzzleHashes env.toEnv b.npcList (found.entries.map Prod.snd) = .ok () := by
  refine forM_ok fun unspent hunspent => ?_
  obtain ⟨⟨k, unspent⟩, hentry, rfl⟩ := mem_map.mp hunspent
  have hget := mem_entries.mp hentry
  have hkey : k ∈ items.flatMap spentNames := h.keys ▸ mem_keys.mpr ⟨_, hget⟩
  obtain ⟨item, hitem, hkey⟩ := mem_flatMap.mp hkey
  obtain ⟨npc, hnpc, rfl⟩ := mem_map.mp hkey
  obtain ⟨records, hchecked⟩ := hitems item hitem
  obtain ⟨coinNames, puzzleNames, hspends⟩ := hchecked.spends
  obtain ⟨record, _, hrecord, hpuzzle, -⟩ := hspends.spends npc hnpc
  obtain ⟨record', _, hrecord', -, hlater⟩ := h.later hitem hchecked hrecord
  obtain rfl : unspent = record' := Option.some.inj (hget.symm.trans hrecord')
  have hmem : npc ∈ b.npcList := hfollows.npcList ▸ mem_flatMap.mpr ⟨item, hitem, hnpc⟩
  have hdic : (b.npcList.foldl (fun d npc => d.set npc.coinName npc.puzzleHash)
      (.empty : Dict Bytes32 Bytes32)).get? npc.coinName = some npc.puzzleHash := by
    have hnodup : ((b.npcList.map fun npc => (npc.coinName, npc.puzzleHash)).map Prod.fst).Nodup := by
      rw [map_map]
      exact hcollected.nodup_removals
    have hfold := get?_foldl_entries hnodup .empty npc.coinName
    rw [foldl_map, (mem_iff_lookup hnodup).mp (mem_map_of_mem hmem)] at hfold
    exact hfold
  rw [show CoinRecord.name env.stdHash unspent = npc.coinName from h.named hget, hdic]
  exact require_ok.mpr (decide_eq_true (by rw [hlater.coin, hpuzzle]))

lemma FoundAll.checkConditions (h : FoundAll env P table items found)
    (hexecuted : ∀ item ∈ items, item.npcResult = preValidateSpendbundle env item.spendBundle)
    {pairsOf : MempoolItem → List (List (Bytes × Bytes))}
    (hpairs : ∀ item ∈ items, SignedPairs env.toEnv item.npcResult.npcList (pairsOf item)) :
    checkConditions env.toEnv b.coinAnnouncementNames b.puzzleAnnouncementNames b.npcList found
      b.prevTransactionBlockHeight b.foliageTransactionBlock.timestamp =
      .ok (items.flatMap fun item => (pairsOf item).flatten) := by
  have hheight : b.prevTransactionBlockHeight = P.height :=
    expectedRewardCoins_height hfollows.positive (hfollows.prevHash ▸ hfollows.prevRecord) hcollected.rewards
  obtain ⟨time, htimestamp, hlater⟩ := hfollows.later
  rw [hheight, hfollows.npcList]
  refine flatten_mapM_flatMap fun item hitem => map_eq_ok.mpr ⟨pairsOf item, mapM_eq_ok.mpr ?_, rfl⟩
  obtain ⟨records, hchecked⟩ := hitems item hitem
  obtain ⟨coinNames, puzzleNames, hspends⟩ := hchecked.spends
  have hsub : item.npcResult.npcList ⊆ b.npcList := fun npc hnpc =>
    hfollows.npcList ▸ mem_flatMap.mpr ⟨item, hitem, hnpc⟩
  have hcoinNames := flatten_mapM_subset hsub hspends.coinAnnouncements hcollected.coinAnnouncements
  have hpuzzleNames := flatten_mapM_subset hsub hspends.puzzleAnnouncements hcollected.puzzleAnnouncements
  have hparsed : ∀ npc ∈ item.npcResult.npcList, ∀ cvp ∈ allConditions npc, ParsedCondition cvp := by
    rw [hexecuted item hitem]
    exact parsed_of_preValidate
  refine forall₂_iff_zip.mpr ⟨(hpairs item hitem).length_eq, fun {npc pairs} hzip => ?_⟩
  have hsigned := (forall₂_iff_zip.mp (hpairs item hitem)).2 hzip
  have hnpc := (of_mem_zip hzip).1
  obtain ⟨record, t, hrecord, -, ht, hcheck⟩ := hspends.spends npc hnpc
  obtain ⟨record', t', hrecord', ht', hrecords⟩ := h.later hitem hchecked hrecord
  obtain rfl : time = t := Option.some.inj (htimestamp.symm.trans ht)
  obtain rfl : time = t' := Option.some.inj (htimestamp.symm.trans ht')
  rw [hrecord']
  dsimp only
  rw [pure_bind, mempoolCheckConditionsDict_later hrecords hlater.le hcoinNames hpuzzleNames (hparsed npc hnpc) hcheck]
  exact orRaise_ok.mpr hsigned

lemma findCoins_cases (hids : CoinIds env.toEnv coins) (hgrounded : Grounded env.toEnv coins table)
    (hknown : ∀ item ∈ items, ∀ c ∈ item.additions, c ∈ coins) :
    (∃ e, (exec (findCoins env.toEnv getGenerator peakOfNode block height forkPoint b) n).1 = .error (.raised e)) ∨
      ∃ found, (exec (findCoins env.toEnv getGenerator peakOfNode block height forkPoint b) n).1 = .ok found ∧
        FoundAll env P table items found := by
  unfold findCoins
  rw [exec_get_bind]
  dsimp only
  cases hfork : forkHeight n.blocks peakOfNode block height forkPoint with
  | error e => exact .inl ⟨e, rfl⟩
  | ok forkH =>
  rw [orRaise_ok.mpr rfl, exec_lift_ok_bind, exec_bind]
  unfold raising
  rw [exec_adapt]
  rcases hsince : exec (sinceFork env.toEnv getGenerator block height forkH) n with ⟨e | since, n₁⟩
  · exact .inl ⟨e, rfl⟩
  dsimp only [Except.mapError]
  have hnames : b.npcList.map NPC.coinName = items.flatMap spentNames := by
    rw [hfollows.npcList, map_flatMap]
    rfl
  have hnodup := hcollected.nodup_removals
  rw [hnames] at hnodup ⊢
  have hlater : RecordsLater env P table items
      (removalRecordOf (coinsByName env.toEnv (b.additions ++ b.coinbaseAdditions))
        b.foliageTransactionBlock.timestamp height forkH since n.db.coinRecord) := by
    intro item hitem records hchecked k record hrecord
    obtain ⟨time, htimestamp, -⟩ := hfollows.later
    obtain ⟨hname, record', hrecord', hlater⟩ := hchecked.laterRecord hitems hcollected hfollows hids hgrounded
      hknown hfork hsince htimestamp hitem hrecord
    exact ⟨record', time, hrecord', hlater.coin ▸ hname, htimestamp, hlater⟩
  rcases hrun : exec (removalCoinRecords env.toEnv (coinsByName env.toEnv (b.additions ++ b.coinbaseAdditions))
    b.foliageTransactionBlock.timestamp height forkH since (items.flatMap spentNames)) n₁ with ⟨r, n₂⟩
  rcases removalCoinRecords_cases ((keeps_sinceFork _ _ _ _).rel hsince) hfollows.named hfollows.cache
    hnodup (fun k hk => hlater.exists_record hitems hk) hrun with hraised | ⟨list, found, rfl, hall, hentries⟩
  · exact .inl hraised
  · exact .inr ⟨found, rfl, hlater.foundAll hitems hall hentries⟩

end Block

lemma FoundAll.conditionsPass (hbls : SignatureLaw env) (hne : items ≠ [])
    (hfees : (items.map fee).sum < 2 ^ 128) (h : FoundAll env P table items found)
    (hexecuted : ∀ item ∈ items, item.npcResult = preValidateSpendbundle env item.spendBundle) (hsigned : ∀ item ∈
      items, ∃ pairs, SignedPairs env.toEnv item.npcResult.npcList pairs ∧ env.aggregateVerify (pairs.flatten.map
      Prod.fst) (pairs.flatten.map Prod.snd) item.spendBundle.aggregatedSignature = true)
    (hcollected : Collected env.toEnv n.blocks block height npcResult b) (hfollows : FollowsPeak env P table items
      (SpendBundle.aggregateBundles env (items.map MempoolItem.spendBundle)).aggregatedSignature n peakOfNode block
      height forkPoint b) : ConditionsPass env.toEnv b found (items.map fee).sum := by
  choose! pairsOf hpairs using hsigned
  refine ⟨?_, ?_, h.checkPuzzleHashes hitems hcollected hfollows, _,
    h.checkConditions hitems hcollected hfollows hexecuted fun item hitem => (hpairs item hitem).1, ?_⟩
  · rw [map_map, additions_of_items hitems hcollected hfollows]
    exact (h.amounts hitems).symm
  · obtain ⟨sum, hsum, hle⟩ := reserves_flatMap (fun item =>
      item.npcResult.npcList.flatMap fun npc => npc.conditionsOf .RESERVE_FEE) fun item hitem =>
      (hitems item hitem).choose_spec.reserved
    refine ⟨sum, assertFeeSum_ok ?_ (by omega), hle⟩
    rw [hfollows.npcList, flatMap_assoc]
    exact hsum
  refine require_ok.mpr ?_
  have hlaw := hbls (items.map fun item => ((pairsOf item).flatten, item.spendBundle.aggregatedSignature))
    (by simpa using hne) (by
      intro p hp
      obtain ⟨item, hitem, rfl⟩ := mem_map.mp hp
      exact (hpairs item hitem).2)
  rw [flatMap_map, map_map] at hlaw
  rw [hfollows.signature]
  unfold SpendBundle.aggregateBundles
  rw [map_map]
  exact hlaw

end Inclusion

/-- Items that were accepted at `P` and chosen together pass the checks of a block that follows `P`, unless a
lookup raises. -/
theorem accepted_items_pass_in_block [LinearOrder Q] (hbls : SignatureLaw env)
    (hmax : env.constants.maxCoinAmount < 2 ^ 64) (hids : CoinIds env.toEnv coins) {P : BlockRecord}
    (hgrounded : Grounded env.toEnv coins table) {s : MempoolManager Q}
    (haccepted : ∀ item ∈ s.mempool.byFallingFee, AcceptedAt env P table item)
    (hknown : ∀ item ∈ s.mempool.byFallingFee, ∀ c ∈ item.additions, c ∈ coins) {bundle : SpendBundle}
    {created spent : List Coin}
    (hchosen : createBundleFromMempool env s P.headerHash = .ok (some (bundle, created, spent))) {n n₁ : Node}
    {peak : Option BlockRecord} {block : FullBlock} {height : ℕ} {npcResult : Option NPCResult} {forkPoint : Option ℕ}
    {b : BlockSpends} (hcollect : exec (collectSpends env.toEnv block height npcResult) n = (.ok b, n₁)) (hfollows :
      FollowsPeak env P table (chooseItems env 0 0 s.mempool.byFallingFee) bundle.aggregatedSignature n peak block
      height forkPoint b) :
    (∃ e, (exec (findCoins env.toEnv getGenerator peak block height forkPoint b) n).1 = .error (.raised e)) ∨
      ∃ records, (exec (findCoins env.toEnv getGenerator peak block height forkPoint b) n).1 = .ok records ∧
        ConditionsPass env.toEnv b records
          ((chooseItems env 0 0 s.mempool.byFallingFee).map fee).sum ∧
        (b.info.fees = ((chooseItems env 0 0 s.mempool.byFallingFee).map fee).sum →
          b.info.fees + calculateBaseFarmerReward height ≤ env.constants.maxCoinAmount →
          (exec (validateTransactionBlock env.toEnv getGenerator peak block height npcResult forkPoint) n).1 =
            .ok npcResult) := by
  have hfees := chooseItems_fees 0 s.mempool.byFallingFee (Nat.zero_le env.constants.maxCoinAmount)
  obtain ⟨hne, rfl⟩ := createBundleFromMempool_some hchosen
  obtain ⟨rfl, hcollected⟩ := collectSpends_ok hcollect
  have hmem : ∀ item ∈ chooseItems env 0 0 s.mempool.byFallingFee, item ∈ s.mempool.byFallingFee :=
    fun item hitem => mem_of_chooseItems hitem
  generalize chooseItems env 0 0 s.mempool.byFallingFee = items at *
  have hitems : ∀ item ∈ items, ∃ records, ItemChecked env P table item records := fun item hitem =>
    (haccepted item (hmem item hitem)).exists_checked hgrounded.named
  rcases findCoins_cases hitems hcollected hfollows hids hgrounded (fun item hitem => hknown item (hmem item hitem))
    with hraised | ⟨records, hrecords, hfound⟩
  · exact .inl hraised
  have hpass := hfound.conditionsPass hitems hbls hne (by omega)
    (fun item hitem => (haccepted item (hmem item hitem)).executed)
    (fun item hitem => (haccepted item (hmem item hitem)).exists_pairs) hcollected hfollows
  refine .inr ⟨records, hrecords, hpass, fun hinfo hroom => ?_⟩
  rcases hfind : exec (findCoins env.toEnv getGenerator peak block height forkPoint b) n₁ with ⟨r, n₂⟩
  rw [hfind] at hrecords
  subst hrecords
  unfold validateTransactionBlock
  rw [exec_bind_of_ok hcollect, exec_bind_of_ok hfind,
    hpass.checkCoinsOfBlock (hinfo ▸ hroom) hinfo]
  rfl

def announcementName : Bytes32 := sampleHash ((sampleCoin.name sampleHash).toBytes ++ [7])

/-- A spend from height 3 on that makes an announcement and relies on it. -/
def lockedBundle : SpendBundle :=
  bundleOf [⟨sampleCoin, sampleProgram [1], sampleProgram (solutionOf [createOpenCoin 100000000,
    ⟨.ASSERT_HEIGHT_ABSOLUTE, [[3]]⟩, ⟨.CREATE_COIN_ANNOUNCEMENT, [[7]]⟩,
    ⟨.ASSERT_COIN_ANNOUNCEMENT, [announcementName.toBytes]⟩])⟩]

def rewardTable : Dict Bytes32 CoinRecord :=
  Dict.empty.set (sampleCoin.name sampleHash) ⟨sampleCoin, 1, 0, false, true, 1640000000⟩

def rewardNode : Node := { Node.new 100 100 with db := ⟨rewardTable, .empty, .empty⟩ }

def rewardPeak : BlockRecord :=
  { samplePeak with poolPuzzleHash := .ofNat 32 (2 ^ 254), farmerPuzzleHash := .ofNat 32 (2 ^ 255) }

def emptyManager : MempoolManager ℚ :=
  (exec (newPeak (sampleMempoolEnv 10) (some rewardPeak)) ⟨rewardNode, .new (sampleMempoolEnv 10)⟩).2.manager

def rewardManager : MempoolManager ℚ :=
  (submit (sampleMempoolEnv 10) rewardNode lockedBundle (.ofNat 32 1) emptyManager).2.manager

def recordBeforePeak : BlockRecord := { rewardPeak with headerHash := .ofNat 32 6, height := 4 }

def validatingNode : Node :=
  { rewardNode with
    db := ⟨rewardTable, Dict.empty.set rewardPeak.headerHash
      (sampleBlock 5 35 (by decide) (.ofNat 32 6) false 0 none), .empty⟩
    blockRecords := (Dict.empty.set recordBeforePeak.headerHash recordBeforePeak).set rewardPeak.headerHash rewardPeak }

def includingRewards : List Coin :=
  [coinOf (createPoolCoin 5 rewardPeak.poolPuzzleHash (calculatePoolReward 5) DEFAULT_CONSTANTS.genesisChallenge),
    coinOf (createFarmerCoin 5 rewardPeak.farmerPuzzleHash (calculateBaseFarmerReward 5)
      DEFAULT_CONSTANTS.genesisChallenge)]

def includingBody : SampleBody :=
  ⟨rewardPeak.headerHash, 1650000001, some (simpleSolutionGenerator lockedBundle).program, [],
    [sampleCoin.name sampleHash], includingRewards, 3541000, 200000000⟩

def includingFoliage : FoliageTransactionBlock :=
  { includingBody.foliageTransactionBlock with
    filterHash := sampleHash (encodedFilter (sampleMempoolEnv 10).toEnv (sampleChild :: includingRewards)
      [sampleCoin.name sampleHash])
    additionsRoot := rootOf (additionLeaves sampleHash (sampleChild :: includingRewards)) }

def includingBlock : FullBlock :=
  let block := sampleBlock 6 42 (by decide) rewardPeak.headerHash false 0 (some includingBody)
  { block with
    foliage := { block.foliage with
      foliageTransactionBlockHash := some (sampleHash includingFoliage.stream) }
    foliageTransactionBlock := some includingFoliage }

def includedResult : NPCResult := preValidateSpendbundle (sampleMempoolEnv 10) lockedBundle

def includedSpends : BlockSpends :=
  ⟨includingFoliage, includingBody.info, includingRewards, 5, includedResult.npcList, [sampleChild], [announcementName], []⟩

def includedCoins : Set Coin := { c | c ∈ [sampleCoin, sampleChild] }

def includedRank (k : Bytes32) : ℕ :=
  if k = sampleCoin.name sampleHash then 1 else if k = sampleChild.name sampleHash then 2 else 0

lemma includedCoins_names : ([sampleCoin, sampleChild].map (Coin.name sampleHash)).Nodup ∧
    ∀ c ∈ [sampleCoin, sampleChild], c.name sampleHash ≠ sampleCoin.parentCoinInfo ∧
      includedRank c.parentCoinInfo < includedRank (c.name sampleHash) := by
  decide +kernel

lemma coinIds_includedCoins : CoinIds (sampleMempoolEnv 10).toEnv includedCoins where
  injective := fun _ hc _ hc' h => inj_on_of_nodup_map includedCoins_names.1 hc hc' h
  acyclic := ⟨includedRank, fun c hc => (includedCoins_names.2 c hc).2⟩

lemma get?_rewardTable (h : rewardTable.get? k = some r) :
    k = sampleCoin.name sampleHash ∧ r = ⟨sampleCoin, 1, 0, false, true, 1640000000⟩ := by
  unfold rewardTable at h
  rw [get?_set] at h
  split at h
  · rename_i hk
    cases h
    exact ⟨hk, rfl⟩
  · cases h

lemma grounded_rewardTable : Grounded (sampleMempoolEnv 10).toEnv includedCoins rewardTable where
  named hk := by
    obtain ⟨rfl, rfl⟩ := get?_rewardTable hk
    rfl
  known hk := by
    obtain ⟨-, rfl⟩ := get?_rewardTable hk
    exact mem_cons_self
  parent hk hreward := by
    obtain ⟨-, rfl⟩ := get?_rewardTable hk
    cases hreward
  reward hk _ c hc := by
    obtain ⟨-, rfl⟩ := get?_rewardTable hk
    exact (includedCoins_names.2 c hc).1

lemma rewardNode_runs : (submit (sampleMempoolEnv 10) rewardNode lockedBundle (.ofNat 32 1) emptyManager).1 =
      .ok ⟨some 3541000, .SUCCESS, none⟩ ∧
    emptyManager.mempool.spends.get? (.ofNat 32 1) = none ∧
    ∀ item ∈ rewardManager.mempool.byFallingFee,
      item.spendBundle = lockedBundle ∧ item.npcResult = includedResult ∧ item.name = .ofNat 32 1 ∧
        rewardManager.mempool.spends.get? (.ofNat 32 1) = some item ∧ item.additions = [sampleChild] := by
  decide +kernel

lemma enters_submit {env : MempoolEnv ℚ} {node : Node} {s : MempoolManager ℚ} {result : AddResult}
    (hnew : s.mempool.spends.get? item.name = none)
    (hnpc : item.npcResult = preValidateSpendbundle env item.spendBundle)
    (h : (submit env node item.spendBundle item.name s).1 = .ok result)
    (hget : (submit env node item.spendBundle item.name s).2.manager.mempool.spends.get? item.name = some item) :
    Enters env true ⟨node, s⟩ item :=
  ⟨hnew, none, result, _, exec_of_submit hnpc h, hget⟩

lemma accepted_rewardManager {item : MempoolItem} (h : item ∈ rewardManager.mempool.byFallingFee) :
    AcceptedAt (sampleMempoolEnv 10) rewardPeak rewardTable item := by
  obtain ⟨hbundle, hnpc, hname, hget, -⟩ := rewardNode_runs.2.2 item h
  have henters : Enters (sampleMempoolEnv 10) true
      ⟨rewardNode, emptyManager⟩ item := by
    have hresult := rewardNode_runs.1
    rw [← hbundle, ← hname] at hresult
    refine enters_submit ?_ ?_ hresult ?_
    · exact rewardNode_runs.2.1
    · rw [hnpc, hbundle]
      rfl
    · rw [hbundle, hname]
      unfold rewardManager at hget
      exact hget
  refine ⟨by rw [hnpc, hbundle]; rfl, ⟨_, true, henters, ?_, rfl, fun k r hk => (by cases hk)⟩,
    _, item, henters, rfl, rfl⟩
  decide +kernel

lemma includingBlock_runs :
    (exec (collectSpends (sampleMempoolEnv 10).toEnv includingBlock 6 (some includedResult)) validatingNode).1 =
      .ok includedSpends ∧
    (exec (findCoins (sampleMempoolEnv 10).toEnv getGenerator (some rewardPeak) includingBlock 6 (some 5) includedSpends)
      validatingNode).1.isOk = true ∧
    createBundleFromMempool (sampleMempoolEnv 10) rewardManager rewardPeak.headerHash =
      .ok (some (lockedBundle, [sampleChild], [sampleCoin])) ∧
    includedSpends.npcList = (chooseItems (sampleMempoolEnv 10) 0 0 rewardManager.mempool.byFallingFee).flatMap
      (fun item => item.npcResult.npcList) ∧
    includedSpends.info.fees = ((chooseItems (sampleMempoolEnv 10) 0 0
      rewardManager.mempool.byFallingFee).map fee).sum := by
  decide +kernel

lemma followsPeak_includedSpends : FollowsPeak (sampleMempoolEnv 10) rewardPeak rewardTable
    (chooseItems (sampleMempoolEnv 10) 0 0 rewardManager.mempool.byFallingFee) lockedBundle.aggregatedSignature
    validatingNode (some rewardPeak) includingBlock 6 (some 5) includedSpends where
  npcList := includingBlock_runs.2.2.2.1
  signature := rfl
  positive := by decide
  prevHash := rfl
  prevRecord := by decide +kernel
  later := ⟨1650000000, rfl, by decide⟩
  named hk := by
    obtain ⟨rfl, rfl⟩ := get?_rewardTable hk
    rfl
  cache _ _ hk := by cases hk
  fresh := by decide +kernel
  ledger := by
    intro forkH since n₁ hfork hsince k r hk hunspent
    obtain rfl : (5 : ℤ) = forkH := Except.ok.inj hfork
    rw [sinceFork_extending (by decide) (by decide) hsince]
    refine findsCoin_of_unspent hk hunspent ?_
    obtain ⟨-, rfl⟩ := get?_rewardTable hk
    decide

/-- The block with the bundle is valid. -/
theorem sample_items_pass_in_block :
    (exec (validateTransactionBlock (sampleMempoolEnv 10).toEnv getGenerator (some rewardPeak) includingBlock 6
      (some includedResult) (some 5)) validatingNode).1 = .ok (some includedResult) := by
  rcases accepted_items_pass_in_block (fun _ _ _ => rfl) (by decide) coinIds_includedCoins grounded_rewardTable
    (fun item hitem => accepted_rewardManager hitem)
    (fun item hitem c hc => by
      rw [(rewardNode_runs.2.2 item hitem).2.2.2.2] at hc
      rw [mem_singleton.mp hc]
      exact mem_cons_of_mem _ mem_cons_self)
    includingBlock_runs.2.2.1 (exec_eq_of_fst includingBlock_runs.1) followsPeak_includedSpends with
    ⟨e, hraised⟩ | ⟨records, -, -, hvalid⟩
  · have hfound := includingBlock_runs.2.1
    rw [hraised] at hfound
    cases hfound
  · exact hvalid includingBlock_runs.2.2.2.2 (by decide +kernel)

end SectorChain.Proofs
