import SectorChain.Proofs.ConditionChecks
import SectorChain.Proofs.MempoolInvariant

/-!
# What an accepted item has passed
-/

namespace SectorChain.Proofs

open Lib List

variable {Q : Type} [LinearOrder Q] {env : MempoolEnv Q}
variable {additions : List Coin} {k : Bytes32} {newItem : MempoolItem} {npcList : List NPC}
  {records : Dict Bytes32 CoinRecord} {s' : MempoolNode Q} {α : Type}

/-- A call of `add_spendbundle` in the state `s` enters the item. -/
structure Enters (env : MempoolEnv Q) (validateSignature : Bool) (s : MempoolNode Q) (item : MempoolItem) :
    Prop where
  new : s.manager.mempool.spends.get? item.name = none
  entered : ∃ program result s', exec (addSpendbundle env item.spendBundle item.npcResult item.name
      validateSignature program) s = (.ok result, s') ∧ s'.manager.mempool.spends.get? item.name = some item

lemma includeItem_ok {replaced : List MempoolItem} {coins : Dict Bytes32 Coin}
    {m m' : Mempool Q} (h : exec (includeItem env newItem replaced coins) m = (.ok (), m')) :
    m'.spends.get? newItem.name = some newItem := by
  unfold includeItem Mempool.addToPool at h
  obtain ⟨_, m₁, -, h⟩ := exec_bind_ok.mp h
  rw [exec_get_bind] at h
  obtain ⟨_, m₂, -, h⟩ := exec_bind_ok.mp h
  cases h
  exact Dict.get?_set_self _ _ _

lemma Enters.admitted {validate : Bool} {s : MempoolNode Q} {item : MempoolItem} (h : Enters env validate s item) :
    ∃ peak removals replaced, Admitted env item.spendBundle item.npcResult item.name
      validate peak s item removals replaced := by
  obtain ⟨program, result, s', hrun, hget⟩ := h.entered
  rcases addSpendbundle_cases hrun with hprepared |
    ⟨peak, newItem, removals, replaced, s₁, m', hadmitted, hprepared, rfl, hlast⟩
  · rw [hprepared.mempool, h.new] at hget
    cases hget
  refine ⟨peak, removals, replaced, ?_⟩
  have hnew : m'.spends.get? newItem.name = some newItem := includeItem_ok hlast
  rw [hadmitted.ofName] at hnew
  obtain rfl : newItem = item := Option.some.inj (hnew.symm.trans hget)
  exact hadmitted

def SignedPairs (env : Env) (npcList : List NPC) (pairs : List (List (Bytes × Bytes))) : Prop :=
  List.Forall₂ (fun npc pairs => pkmPairsForConditionsDict env npc = .ok pairs) npcList pairs

/-- What the loop over the spends has checked. -/
structure SpendsChecked (env : Env) (peak : BlockRecord) (records : Dict Bytes32 CoinRecord)
    (npcList : List NPC) (coinNames puzzleNames : List Bytes32) : Prop where
  coinAnnouncements : coinAnnouncementsNamesForNpc env npcList = .ok coinNames
  puzzleAnnouncements : puzzleAnnouncementsNamesForNpc env npcList = .ok puzzleNames
  spends : ∀ npc ∈ npcList, ∃ record timestamp, records.get? npc.coinName = some record ∧
    npc.puzzleHash = record.coin.puzzleHash ∧ peak.timestamp = some timestamp ∧
    mempoolCheckConditionsDict env record coinNames puzzleNames npc peak.height timestamp = .ok none

lemma exec_lift_bind_ok {ε σ β : Type} {x : Except ε α} {f : α → Exec ε σ β} {b : β} {s s' : σ} :
    exec ((liftM x : Exec ε σ α) >>= f) s = (.ok b, s') ↔ ∃ a, x = .ok a ∧ exec (f a) s = (.ok b, s') := by
  cases x with
  | error e => simp [exec_bind]
  | ok a => simp

lemma checkSpend_ok {peak : BlockRecord} {coinNames puzzleNames : List Bytes32} {validate : Bool} {npc : NPC}
    {pairs : List (Bytes × Bytes)} {s : MempoolNode Q}
    (h : exec (checkSpend env peak newItem records coinNames puzzleNames validate npc) s = (.ok pairs, s')) :
    (∃ record time, records.get? npc.coinName = some record ∧
      npc.puzzleHash = record.coin.puzzleHash ∧ peak.timestamp = some time ∧
      mempoolCheckConditionsDict env.toEnv record coinNames puzzleNames npc peak.height time = .ok none) ∧
    (validate = true → pkmPairsForConditionsDict env.toEnv npc = .ok pairs) := by
  unfold checkSpend at h
  split at h
  · cases h
  rename_i record hrecord
  obtain ⟨_, hpuzzle, h⟩ := exec_lift_bind_ok.mp h
  obtain ⟨time, htimestamp, h⟩ := exec_lift_bind_ok.mp h
  obtain ⟨error, herror, h⟩ := exec_lift_bind_ok.mp h
  have htimestamp := assertSome_ok.mp (mapError_eq_ok.mp htimestamp)
  have hheight : chialispHeight peak = peak.height := by
    unfold chialispHeight BlockRecord.isTransactionBlock
    rw [htimestamp]
    rfl
  rw [hheight] at herror
  split at h
  · obtain ⟨_, _, -, hthrow⟩ := exec_bind_ok.mp h
    cases hthrow
  · obtain ⟨_, _, -, hthrow⟩ := exec_bind_ok.mp h
    cases hthrow
  · cases h
  · refine ⟨⟨record, time, hrecord, of_decide_eq_true (demand_ok hpuzzle), htimestamp,
      mapError_eq_ok.mp herror⟩, fun hsigned => ?_⟩
    rw [if_pos hsigned] at h
    exact mapError_eq_ok.mp (exec_lift_eq.mp h).1

lemma checkSpends_ok {peak : BlockRecord} {validate : Bool} {s : MempoolNode Q}
    (h : exec (checkSpends env peak newItem records validate npcList) s = (.ok (), s')) :
    (∃ coinNames puzzleNames, SpendsChecked env.toEnv peak records npcList coinNames puzzleNames) ∧
    (validate = true → ∃ pairs, SignedPairs env.toEnv npcList pairs ∧
      env.aggregateVerify (pairs.flatten.map Prod.fst) (pairs.flatten.map Prod.snd)
        newItem.spendBundle.aggregatedSignature = true) := by
  obtain ⟨coinNames, hcoinNames, h⟩ := exec_lift_bind_ok.mp h
  obtain ⟨puzzleNames, hpuzzleNames, h⟩ := exec_lift_bind_ok.mp h
  obtain ⟨pairs, s₁, hpairs, h⟩ := exec_bind_ok.mp h
  have hall := exec_mapM_ok hpairs
  constructor
  · refine ⟨coinNames, puzzleNames, mapError_eq_ok.mp hcoinNames, mapError_eq_ok.mp hpuzzleNames, ?_⟩
    intro npc hnpc
    obtain ⟨_, -, s₂, s₃, hspend⟩ := exists_of_mem_left hall hnpc
    exact (checkSpend_ok hspend).1
  intro hsigned
  rw [if_pos hsigned] at h
  refine ⟨pairs, hall.imp fun npc ps hrun => ?_, demand_ok (exec_lift_eq.mp h).1⟩
  obtain ⟨s₂, s₃, hspend⟩ := hrun
  exact (checkSpend_ok hspend).2 hsigned

def Reserves (cvps : List ConditionWithArgs) (sum : ℕ) : Prop :=
  ∃ amounts, List.Forall₂ (fun cvp amount => ∃ var, ConditionWithArgs.var cvp 0 = .ok var ∧
    intFromBytes var = (amount : ℕ)) cvps amounts ∧ amounts.sum = sum

lemma foldlM_reserved {cvps : List ConditionWithArgs} {start sum : ℕ} (h : cvps.foldlM (fun sum cvp => do
      let var ← orRaised (ConditionWithArgs.var cvp 0)
      demand (0 ≤ intFromBytes var) .RESERVE_FEE_CONDITION_FAILED
      return sum + (intFromBytes var).toNat) start = .ok sum) :
    ∃ amount, Reserves cvps amount ∧ sum = start + amount := by
  induction cvps generalizing start with
  | nil =>
    cases h
    exact ⟨0, ⟨[], .nil, rfl⟩, rfl⟩
  | cons cvp cvps ih =>
    obtain ⟨mid, hmid, h⟩ := bind_eq_ok.mp h
    obtain ⟨var, hvar, hmid⟩ := bind_eq_ok.mp hmid
    obtain ⟨_, hpos, hmid⟩ := bind_eq_ok.mp hmid
    cases hmid
    have hpos : 0 ≤ intFromBytes var := of_decide_eq_true (demand_ok hpos)
    obtain ⟨amount, ⟨amounts, hamounts, hsum⟩, rfl⟩ := ih h
    refine ⟨(intFromBytes var).toNat + amount,
      ⟨(intFromBytes var).toNat :: amounts, .cons ⟨var, mapError_eq_ok.mp hvar, ?_⟩ hamounts, ?_⟩, ?_⟩
    · rw [Int.toNat_of_nonneg hpos]
    · rw [sum_cons, hsum]
    · rw [Nat.add_assoc]

omit [LinearOrder Q] in
lemma additionAmount_ok {amount : ℕ} (h : additionAmount env additions = .ok amount) :
    amount = (additions.map Coin.amount).sum := by
  have hfold : ∀ (l : List Coin) (start : ℕ), l.foldlM (fun sum coin => do
      demand (coin.amount ≤ env.constants.maxCoinAmount) .COIN_AMOUNT_EXCEEDS_MAXIMUM
      addUint64 sum coin.amount) start = .ok amount → amount = start + (l.map Coin.amount).sum := by
    intro l
    induction l with
    | nil =>
      intro start h
      cases h
      rfl
    | cons coin l ih =>
      intro start h
      obtain ⟨mid, hmid, h⟩ := bind_eq_ok.mp h
      obtain ⟨_, -, hmid⟩ := bind_eq_ok.mp hmid
      unfold addUint64 at hmid
      split at hmid
      · cases hmid
        rw [ih _ h, map_cons, sum_cons, Nat.add_assoc]
      · cases hmid
  rw [hfold additions 0 h, Nat.zero_add]

lemma checkFees_ok {additionAmount removalAmount cost fees : ℕ}
    (h : checkFees npcList additionAmount removalAmount cost = .ok fees) :
    additionAmount + fees = removalAmount ∧
      ∃ sum, Reserves (npcList.flatMap fun npc => npc.conditionsOf .RESERVE_FEE) sum ∧ sum ≤ fees := by
  obtain ⟨_, hminting, h⟩ := bind_eq_ok.mp h
  obtain ⟨sum, hsum, h⟩ := bind_eq_ok.mp h
  obtain ⟨_, hcovers, h⟩ := bind_eq_ok.mp h
  obtain ⟨_, -, h⟩ := bind_eq_ok.mp h
  cases h
  have hle : additionAmount ≤ removalAmount := of_decide_eq_true (demand_ok hminting)
  obtain ⟨amount, hamount, rfl⟩ := foldlM_reserved hsum
  rw [Nat.zero_add] at hcovers
  exact ⟨by omega, amount, hamount, of_decide_eq_true (demand_ok hcovers)⟩

/-- The record of a coin that an item spends: its own, or what the table has. -/
inductive RecordAt (env : MempoolEnv Q) (peak : BlockRecord) (table : Dict Bytes32 CoinRecord)
    (item : MempoolItem) (k : Bytes32) (record : CoinRecord) : Prop where
  | ephemeral (coin : Coin) (timestamp : ℕ) : coin ∈ item.additions → coin.name env.stdHash = k →
      peak.timestamp = some timestamp →
      record = ⟨coin, peak.height + 1, 0, false, false, timestamp + 1⟩ → RecordAt env peak table item k record
  | stored : k ∉ createdNames env item → table.get? k = some record → record.spent = false →
      RecordAt env peak table item k record

structure ItemChecked (env : MempoolEnv Q) (peak : BlockRecord) (table : Dict Bytes32 CoinRecord)
    (item : MempoolItem) (records : Dict Bytes32 CoinRecord) : Prop where
  additions : additionsForNpc item.npcResult.npcList = .ok item.additions
  keys : records.keys = spentNames item
  record : ∀ {k record}, records.get? k = some record → RecordAt env peak table item k record
  amounts : (item.additions.map Coin.amount).sum + item.fee = (records.entries.map fun e => e.2.coin.amount).sum
  reserved : ∃ sum, Reserves (item.npcResult.npcList.flatMap fun npc => npc.conditionsOf .RESERVE_FEE) sum ∧
    sum ≤ item.fee
  spends : ∃ coinNames puzzleNames, SpendsChecked env.toEnv peak records item.npcResult.npcList coinNames puzzleNames

/-- The item was executed and accepted at the peak, with a coin store that has the coins of `table`. -/
structure AcceptedAt (env : MempoolEnv Q) (peak : BlockRecord) (table : Dict Bytes32 CoinRecord)
    (item : MempoolItem) : Prop where
  executed : item.npcResult = preValidateSpendbundle env item.spendBundle
  accepted : ∃ s validateSignature, Enters env validateSignature s item ∧ s.manager.peak = some peak ∧
    s.node.db.coinRecord = table ∧ s.node.coinRecordCache.Within table.get?
  signed : ∃ s first, Enters env true s first ∧ first.spendBundle = item.spendBundle ∧ first.npcResult = item.npcResult

section Checked

variable {newSpend : SpendBundle} {npc : NPCResult} {name : Bytes32} {validate : Bool}
  {peak : BlockRecord} {s : MempoolNode Q} {item : MempoolItem}
  {removals : Removals} {replaced : List MempoolItem} {table : Dict Bytes32 CoinRecord}

lemma Admitted.unspent (h : Admitted env newSpend npc name validate peak s item
    removals replaced) {record : CoinRecord} (hrecord : removals.records.get? k = some record) :
    record.spent = false := by
  obtain ⟨s₁, s₂, -, hresolve⟩ := h.admission.replaced
  rcases resolveConflicts_ok hresolve with ⟨hnone, -⟩ | ⟨conflicts, items, hcheck, -⟩
  · exact (checkRemovals_cases hnone (by simp) hrecord).1
  · exact (checkRemovals_cases hcheck (by simp) hrecord).1

omit [LinearOrder Q] in
lemma coinsByName_of_mem (h : k ∈ additions.map (Coin.name env.stdHash)) :
    ∃ coin, (coinsByName env.toEnv additions).get? k = some coin := by
  have hfold : ∀ (l : List Coin) (d : Dict Bytes32 Coin),
      k ∈ l.map (Coin.name env.stdHash) ∨ (∃ coin, d.get? k = some coin) →
      ∃ coin, (l.foldl (fun d coin => d.set (coin.name env.stdHash) coin) d).get? k = some coin := by
    intro l
    induction l with
    | nil =>
      rintro d (hmem | hd)
      · cases hmem
      · exact hd
    | cons a l ih =>
      intro d hd
      apply ih
      by_cases hk : k = a.name env.stdHash
      · exact .inr ⟨a, by rw [Dict.get?_set, if_pos hk]⟩
      rcases hd with hmem | ⟨coin, hcoin⟩
      · rcases mem_cons.mp hmem with hmem | hmem
        · exact absurd hmem hk
        · exact .inl hmem
      · exact .inr ⟨coin, by rw [Dict.get?_set, if_neg hk]; exact hcoin⟩
  exact hfold additions .empty (.inl h)

omit [LinearOrder Q] in
lemma peek_or_get? {env : Env} {node node₁ : Node} (hreads : Reads env node node₁)
    (hnamed : ∀ {k r}, node.db.coinRecord.get? k = some r → r.coin.name env.stdHash = k)
    (hcache : node.coinRecordCache.Within node.db.coinRecord.get?) (k : Bytes32) :
    (node₁.coinRecordCache.peek k).or (node₁.db.coinRecord.get? k) = node.db.coinRecord.get? k := by
  rw [hreads.db]
  cases hpeek : node₁.coinRecordCache.peek k with
  | none => rfl
  | some record =>
    rcases hreads.coinRecordCache _ _ hpeek with hold | ⟨hname, k', hrow⟩
    · exact (hcache _ _ hold).symm
    · have hkey : k' = k := (hnamed hrow).symm.trans hname.symm
      exact (hkey ▸ hrow).symm

lemma Admitted.checked (h : Admitted env newSpend npc name validate peak s item removals replaced)
    (hnamed : ∀ {k r}, s.node.db.coinRecord.get? k = some r → r.coin.name env.stdHash = k)
    (hcache : s.node.coinRecordCache.Within s.node.db.coinRecord.get?) :
    ItemChecked env peak s.node.db.coinRecord item removals.records := by
  obtain ⟨amount, hcoins, hfee⟩ := h.coins
  obtain ⟨hadditions, hamount, -, -⟩ := checkCoins_ok hcoins
  obtain ⟨hfees, hreserved⟩ := checkFees_ok hfee
  obtain ⟨records, hrecords, h₁, -, h₃⟩ := h.records
  obtain ⟨s₁, s₂, hspends⟩ := h.admission.spends
  refine ⟨by rw [h.ofNpc]; exact hadditions, h.keys.2, fun {k record} hrecord => ?_, ?_,
    by rw [h.ofNpc]; exact hreserved, (checkSpends_ok hspends).1⟩
  · have hmem := Dict.mem_entries.mpr hrecord
    rw [h₁] at hmem
    cases (forall₂_iff_zip.mp hrecords).2 hmem with
    | ephemeral coin hget hephemeral =>
      obtain ⟨time, htimestamp, hephemeral⟩ := bind_eq_ok.mp hephemeral
      cases hephemeral
      obtain ⟨hcoin, hname⟩ := coinsByName_get? hget
      exact .ephemeral coin time hcoin hname (assertSome_ok.mp htimestamp) rfl
    | stored node₁ hget hreads hfound =>
      rw [peek_or_get? hreads hnamed hcache] at hfound
      refine .stored ?_ hfound (h.unspent hrecord)
      intro hcreated
      obtain ⟨coin, hcoin⟩ := coinsByName_of_mem hcreated
      rw [hget] at hcoin
      cases hcoin
  · have hsum : (records.map fun r => r.coin.amount).sum =
        (removals.records.entries.map fun e => e.2.coin.amount).sum := by
      rw [h₁, show (fun e : Bytes32 × CoinRecord => e.2.coin.amount) =
        (fun r : CoinRecord => r.coin.amount) ∘ Prod.snd from rfl, ← map_map, map_snd_zip]
      exact hrecords.length_eq.ge
    rw [← hsum, ← h₃, ← hfees, additionAmount_ok hamount]

end Checked

end SectorChain.Proofs
