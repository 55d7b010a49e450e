import SectorChain.FullNode.MempoolManager
import SectorChain.Proofs.MempoolTables
import SectorChain.Proofs.Reads

/-!
# How a spend bundle gets in

What a call has checked before its last step is an `Admission`.
-/

namespace SectorChain.Proofs

open Lib List Dict

variable {Q : Type} [LinearOrder Q]

/-- Before it changes the mempool, a call has read the stores and may have kept its bundle. -/
structure Prepared (env : MempoolEnv Q) (newSpend : SpendBundle) (npcResult : NPCResult)
    (spendName : Bytes32) (s s' : MempoolNode Q) : Prop where
  node : Reads env.toEnv s.node s'.node
  mempool : s'.manager.mempool = s.manager.mempool
  peak : s'.manager.peak = s.manager.peak
  potential : ∀ {k item}, s'.manager.potentialTxs.get? k = some item → s.manager.potentialTxs.get? k = some item ∨
      (item.spendBundle = newSpend ∧ item.npcResult = npcResult ∧ item.spendBundleName = spendName)

variable {env : MempoolEnv Q} {newSpend : SpendBundle} {npc : NPCResult} {name : Bytes32}

instance : Std.Refl (Prepared env newSpend npc name) :=
  ⟨fun s => ⟨Reads.refl s.node, rfl, rfl, .inl⟩⟩

instance : IsTrans (MempoolNode Q) (Prepared env newSpend npc name) where
  trans _ _ _ h h' := by
    refine ⟨h.node.trans h'.node, h'.mempool.trans h.mempool, h'.peak.trans h.peak, fun hk => ?_⟩
    rcases h'.potential hk with hk | hitem
    · exact h.potential hk
    · exact .inr hitem

/-- Only the stores were read. -/
structure Consults (env : MempoolEnv Q) (s s' : MempoolNode Q) : Prop where
  node : Reads env.toEnv s.node s'.node
  manager : s'.manager = s.manager

instance : Std.Refl (Consults env) := ⟨fun s => ⟨Reads.refl s.node, rfl⟩⟩

instance : IsTrans (MempoolNode Q) (Consults env) :=
  ⟨fun _ _ _ h h' => ⟨h.node.trans h'.node, h'.manager.trans h.manager⟩⟩

lemma Consults.prepared {s s' : MempoolNode Q} (h : Consults env s s') : Prepared env newSpend npc name s s' := by
  refine ⟨h.node, by rw [h.manager], by rw [h.manager], fun hk => ?_⟩
  rw [h.manager] at hk
  exact .inl hk

lemma keeps_getCoinRecordOnNode (name : Bytes32) : Keeps (Consults env) (onNode (getCoinRecord env.toEnv name)) :=
  fun s => ⟨keeps_getCoinRecord env.toEnv name s.node, rfl⟩

lemma keeps_removalRecord (peak : BlockRecord) (additionsDict : Dict Bytes32 Coin) (name : Bytes32) :
    Keeps (Consults env) (removalRecord env peak additionsDict name) := by
  apply keeps_bind (keeps_adapt (keeps_getCoinRecordOnNode name))
  intro record
  split
  · exact keeps_lift _
  · exact keeps_pure _
  · exact keeps_throw _

lemma keeps_findRemovals (peak : BlockRecord) (additions : List Coin) (npcList : List NPC) :
    Keeps (Consults env) (findRemovals env peak additions npcList) := by
  apply keeps_foldlM
  intro removals name _
  apply keeps_bind (keeps_removalRecord peak _ name)
  intro record
  apply keeps_lift_bind
  intro amount
  exact keeps_pure _

lemma shrinkPotential_cases (fuel : ℕ) (s : MempoolManager Q) :
    (exec (shrinkPotential fuel) s).2.mempool = s.mempool ∧ (exec (shrinkPotential fuel) s).2.peak = s.peak ∧
      ∀ k item, (exec (shrinkPotential fuel) s).2.potentialTxs.get? k = some item →
        s.potentialTxs.get? k = some item := by
  induction fuel generalizing s with
  | zero => exact ⟨rfl, rfl, fun _ _ => id⟩
  | succ fuel ih =>
    unfold shrinkPotential
    rw [exec_get_bind]
    split
    · split
      · exact ⟨rfl, rfl, fun _ _ => id⟩
      · obtain ⟨hmempool, hpeak, hpotential⟩ := ih _
        refine ⟨hmempool, hpeak, fun k item hk => ?_⟩
        exact get?_of_popFirst (hpotential k item hk)
    · exact ⟨rfl, rfl, fun _ _ => id⟩

section Pending

variable {item : MempoolItem} (hspend : item.spendBundle = newSpend) (hnpc : item.npcResult = npc)
  (hname : item.spendBundleName = name)
include hspend hnpc hname

lemma keeps_addToPotentialTxSet :
    Keeps (Prepared env newSpend npc name) (onManager (addToPotentialTxSet item)) := by
  intro s
  unfold onManager addToPotentialTxSet
  rw [exec_mk, exec_get_bind]
  split
  · exact Std.Refl.refl s
  obtain ⟨hmempool, hpeak, hpotential⟩ := shrinkPotential_cases
    ((s.manager.potentialTxs.set item.spendBundleName item).entries.length + 1)
    { s.manager with
      potentialTxs := s.manager.potentialTxs.set item.spendBundleName item
      potentialCacheCost := s.manager.potentialCacheCost + item.cost }
  refine ⟨Reads.refl _, hmempool, hpeak, fun {k item'} hk => ?_⟩
  have hk := hpotential k item' hk
  rw [get?_set] at hk
  split at hk
  · cases hk
    exact .inr ⟨hspend, hnpc, hname⟩
  · exact .inl hk

lemma keeps_pending {α : Type} (error : Err) :
    Keeps (Prepared env newSpend npc name) (pending item error : AddM Q α) := by
  apply keeps_bind (keeps_adapt (keeps_addToPotentialTxSet hspend hnpc hname))
  intro _
  exact keeps_throw _

lemma keeps_resolveConflicts (removals : Dict Bytes32 CoinRecord) :
    Keeps (Prepared env newSpend npc name) (resolveConflicts env item removals) := by
  apply keeps_get_bind
  intro s
  dsimp only
  split
  · apply keeps_lift_bind
    intro items
    split
    · exact keeps_pure _
    · exact keeps_pending hspend hnpc hname _
  · exact keeps_throw _
  · exact keeps_pure _

lemma keeps_checkSpends (peak : BlockRecord) (removals : Dict Bytes32 CoinRecord) (validate : Bool)
    (npcList : List NPC) :
    Keeps (Prepared env newSpend npc name)
      (checkSpends env peak item removals validate npcList) := by
  apply keeps_lift_bind
  intro coinAnnouncements
  apply keeps_lift_bind
  intro puzzleAnnouncements
  apply keeps_bind
  · apply keeps_mapM
    intro spend _
    unfold checkSpend
    split
    · exact keeps_throw _
    apply keeps_lift_bind
    intro _
    apply keeps_lift_bind
    intro timestamp
    apply keeps_lift_bind
    intro error
    split
    · exact keeps_pending hspend hnpc hname _
    · exact keeps_pending hspend hnpc hname _
    · exact keeps_throw _
    · split
      · exact keeps_lift _
      · exact keeps_pure _
  · intro pairs
    split
    · exact keeps_lift _
    · exact keeps_pure _

end Pending

/-- `removals` are the coins that are spent, `replaced` the items that have to go. -/
structure Admission (env : MempoolEnv Q) (peak : BlockRecord) (validateSignature : Bool)
    (s : MempoolNode Q) (newItem : MempoolItem) (removals : Removals) (replaced : List MempoolItem) :
    Prop where
  found : ∃ s₁, exec (findRemovals env peak newItem.additions newItem.npcResult.npcList) s = (.ok removals, s₁)
  coins : newItem.removals = removals.coins.entries.map Prod.snd
  capacity : checkCapacity env s.manager.mempool newItem.fee newItem.cost = .ok ()
  replaced : ∃ s₁ s₂, s₁.manager = s.manager ∧
    exec (resolveConflicts env newItem removals.records) s₁ = (.ok replaced, s₂)
  spends : ∃ s₁ s₂, exec (checkSpends env peak newItem removals.records validateSignature
    newItem.npcResult.npcList) s₁ = (.ok (), s₂)

lemma addChecked_cases {peak : BlockRecord} {validate : Bool} {program : Bytes} {cost : ℕ}
    {additions : List Coin} {additionAmount : ℕ} {s s' : MempoolNode Q} {r : Except AddExit AddResult}
    (hrun : exec (addChecked env peak newSpend npc name validate program cost
      additions additionAmount) s = (r, s')) :
    (Prepared env newSpend npc name s s' ∧ ∃ e, r = .error e) ∨
      ∃ newItem removals replaced s₁, newItem.spendBundle = newSpend ∧ newItem.npcResult = npc ∧
        newItem.spendBundleName = name ∧ newItem.cost = cost ∧ newItem.additions = additions ∧
        checkFees npc.npcList additionAmount removals.amount cost = .ok newItem.fee ∧
        Admission env peak validate s newItem removals replaced ∧
        Prepared env newSpend npc name s s₁ ∧
        exec (do
          calling (onMempool (includeItem env newItem replaced removals.coins))
          return (⟨some cost, .SUCCESS, none⟩ : AddResult) : AddM Q AddResult) s₁ = (r, s') := by
  rcases exec_bind_cases hrun with ⟨e, hfound, rfl⟩ | ⟨removals, s₁, hfound, hrun⟩
  · exact .inl ⟨((keeps_findRemovals _ _ _).rel hfound).prepared, e, rfl⟩
  have hconsults : Consults env s s₁ := (keeps_findRemovals _ _ _).rel hfound
  rcases exec_lift_bind_cases hrun with ⟨e, -, rfl, rfl⟩ | ⟨fees, hfees, hrun⟩
  · exact .inl ⟨hconsults.prepared, e, rfl⟩
  rw [exec_get_bind] at hrun
  rcases exec_lift_bind_cases hrun with ⟨e, -, rfl, rfl⟩ | ⟨_, hcapacity, hrun⟩
  · exact .inl ⟨hconsults.prepared, e, rfl⟩
  generalize hitem : (⟨newSpend, fees, npc, cost, name, additions,
    removals.coins.entries.map Prod.snd, program⟩ : MempoolItem) = newItem at hrun
  have hspend : newItem.spendBundle = newSpend := by rw [← hitem]
  have hnpc : newItem.npcResult = npc := by rw [← hitem]
  have hname : newItem.spendBundleName = name := by rw [← hitem]
  have hresolves : Keeps (Prepared env newSpend npc name) (resolveConflicts env newItem removals.records) :=
    keeps_resolveConflicts hspend hnpc hname _
  rcases exec_bind_cases hrun with ⟨e, hresolve, rfl⟩ | ⟨replaced, s₂, hresolve, hrun⟩
  · exact .inl ⟨IsTrans.trans _ _ _ hconsults.prepared (hresolves.rel hresolve), e, rfl⟩
  have hprepared₂ : Prepared env newSpend npc name s s₂ :=
    IsTrans.trans _ _ _ hconsults.prepared (hresolves.rel hresolve)
  rcases exec_bind_cases hrun with ⟨e, hspends, rfl⟩ | ⟨_, s₃, hspends, hrun⟩
  · exact .inl ⟨IsTrans.trans _ _ _ hprepared₂ ((keeps_checkSpends hspend hnpc hname _ _ _ _).rel hspends), e, rfl⟩
  refine .inr ⟨newItem, removals, replaced, s₃, hspend, hnpc, hname, by rw [← hitem], by rw [← hitem],
    by rw [← hitem]; exact hfees, ?_, ?_, hrun⟩
  · subst hitem
    constructor
    · exact ⟨s₁, hfound⟩
    · rfl
    · rw [← hconsults.manager]
      exact hcapacity
    · exact ⟨s₁, s₂, hconsults.manager, hresolve⟩
    · exact ⟨s₂, s₃, hspends⟩
  · exact IsTrans.trans _ _ _ hprepared₂ ((keeps_checkSpends hspend hnpc hname _ _ _ _).rel hspends)

/-- The item that a call gets to its last step with. -/
structure Admitted (env : MempoolEnv Q) (newSpend : SpendBundle) (npcResult : NPCResult) (spendName : Bytes32)
    (validateSignature : Bool) (peak : BlockRecord) (s : MempoolNode Q) (newItem : MempoolItem)
    (removals : Removals) (replaced : List MempoolItem) : Prop where
  atPeak : s.manager.peak = some peak
  ofSpend : newItem.spendBundle = newSpend
  ofNpc : newItem.npcResult = npcResult
  ofName : newItem.name = spendName
  noError : npcResult.error = none
  coins : ∃ amount, checkCoins env npcResult.npcList = .ok (newItem.additions, amount) ∧
    checkFees npcResult.npcList amount removals.amount newItem.cost = .ok newItem.fee
  fresh : s.manager.mempool.spends.get? spendName = none
  admission : Admission env peak validateSignature s newItem removals replaced

lemma addSpendbundle_cases {validate : Bool} {program : Option Bytes} {s s' : MempoolNode Q}
    {r : Except PyError AddResult}
    (hrun : exec (addSpendbundle env newSpend npc name validate program) s = (r, s')) :
    Prepared env newSpend npc name s s' ∨
      ∃ peak newItem removals replaced s₁ m', Admitted env newSpend npc name validate
          peak s newItem removals replaced ∧
        Prepared env newSpend npc name s s₁ ∧
        s' = { s₁ with manager := { s₁.manager with mempool := m' } } ∧
        exec (includeItem env newItem replaced removals.coins) s.manager.mempool = (r.map fun _ => (), m') := by
  unfold addSpendbundle at hrun
  rw [exec_mk] at hrun
  unfold addSteps at hrun
  rw [exec_get_bind] at hrun
  cases hpeak : s.manager.peak with
  | none =>
    rw [hpeak] at hrun
    cases hrun
    exact .inl (Std.Refl.refl s)
  | some peak =>
    rw [hpeak] at hrun
    dsimp only at hrun
    generalize calculateCostOfProgram env.toEnv
      (program.getD (simpleSolutionGenerator newSpend).program) npc = cost at hrun
    by_cases hlimit : cost ≤ limitCost env
    · rw [decide_eq_true hlimit, show demand true .BLOCK_COST_EXCEEDS_MAX = .ok () from rfl, exec_lift_ok_bind] at hrun
      cases herror : npc.error with
      | some error =>
        rw [herror] at hrun
        cases hrun
        exact .inl (Std.Refl.refl s)
      | none =>
        rw [herror] at hrun
        cases hcoins : checkCoins env npc.npcList with
        | error e =>
          rw [hcoins] at hrun
          left
          cases e <;> cases hrun <;> exact Std.Refl.refl s
        | ok coins =>
          obtain ⟨additions, amount⟩ := coins
          rw [hcoins, exec_lift_ok_bind] at hrun
          rw [exec_get_bind] at hrun
          by_cases hold : s.manager.mempool.spends.contains name = true
          · rw [if_pos hold] at hrun
            cases hrun
            exact .inl (Std.Refl.refl s)
          rw [if_neg hold] at hrun
          rcases hchecked : exec (addChecked env peak newSpend npc name validate
            (program.getD (simpleSolutionGenerator newSpend).program) cost additions amount) s
            with ⟨r', s''⟩
          rw [hchecked] at hrun
          rcases addChecked_cases hchecked with ⟨hprepared, e, rfl⟩ |
            ⟨newItem, removals, replaced, s₁, hspend, hnpc, hname, hcost', hadditions, hfee, hadmission,
              hprepared, hinclude⟩
          · left
            cases e <;> cases hrun <;> exact hprepared
          right
          have hadmitted : Admitted env newSpend npc name validate peak s
              newItem removals replaced := by
            refine ⟨hpeak, hspend, hnpc, hname, herror, ⟨amount, ?_, ?_⟩, ?_, hadmission⟩
            · rw [hadditions, hcoins]
            · rw [hcost']
              exact hfee
            · rw [Dict.contains_iff, not_exists] at hold
              exact Option.eq_none_iff_forall_ne_some.mpr hold
          rw [← hprepared.mempool]
          unfold calling onMempool onManager at hinclude
          rw [exec_bind, exec_adapt, exec_mk, exec_mk] at hinclude
          rcases hlast : exec (includeItem env newItem replaced removals.coins) s₁.manager.mempool
            with ⟨e | u, m'⟩
          all_goals
            rw [hlast] at hinclude
            cases hinclude
            cases hrun
            exact ⟨peak, newItem, removals, replaced, s₁, m', hadmitted, hprepared, rfl, hlast⟩
    · rw [decide_eq_false hlimit] at hrun
      cases hrun
      exact .inl (Std.Refl.refl s)

inductive Found (env : MempoolEnv Q) (peak : BlockRecord) (additionsDict : Dict Bytes32 Coin) (node : Node)
    (name : Bytes32) (record : CoinRecord) : Prop where
  | ephemeral (coin : Coin) : additionsDict.get? name = some coin →
      ephemeralRecord peak coin = .ok record → Found env peak additionsDict node name record
  | stored (node₁ : Node) : additionsDict.get? name = none → Reads env.toEnv node node₁ →
      (node₁.coinRecordCache.peek name).or (node₁.db.coinRecord.get? name) = some record →
      Found env peak additionsDict node name record

omit [LinearOrder Q] in
lemma Found.of_reads {peak : BlockRecord} {additionsDict : Dict Bytes32 Coin} {node node' : Node} {name : Bytes32}
    {record : CoinRecord} (hreads : Reads env.toEnv node node') (h : Found env peak additionsDict node' name record) :
    Found env peak additionsDict node name record := by
  cases h with
  | ephemeral coin hget hrecord => exact .ephemeral coin hget hrecord
  | stored node₁ hget hreads' hrecord => exact .stored node₁ hget (hreads.trans hreads') hrecord

lemma removalRecord_ok {peak : BlockRecord} {additionsDict : Dict Bytes32 Coin} {name : Bytes32} {record : CoinRecord}
    {s s' : MempoolNode Q} (hrun : exec (removalRecord env peak additionsDict name) s = (.ok record, s')) :
    Found env peak additionsDict s.node name record := by
  unfold removalRecord calling onNode at hrun
  rw [exec_bind, exec_adapt, exec_mk] at hrun
  obtain ⟨r, cache, faults, hget, -, -, hok⟩ := getCoinRecord_cases env.toEnv name s.node
  rw [hget] at hrun
  cases r with
  | error e => cases hrun
  | ok stored =>
    have hstored := hok stored rfl
    cases hdict : additionsDict.get? name with
    | some coin =>
      rw [hdict] at hrun
      obtain ⟨hrecord, -⟩ := exec_lift_eq.mp hrun
      exact .ephemeral coin hdict (mapError_eq_ok.mp hrecord)
    | none =>
      rw [hdict] at hrun
      cases stored with
      | none => cases hrun
      | some record' =>
        cases hrun
        exact .stored s.node hdict (Reads.refl _) hstored.symm

lemma foldlM_removals {peak : BlockRecord} {additionsDict : Dict Bytes32 Coin} {names : List Bytes32}
    {acc removals : Removals} {s s' : MempoolNode Q}
    (hrun : exec (names.foldlM (Removals.add env peak additionsDict) acc) s = (.ok removals, s'))
    (hkeys : acc.coins.keys = acc.records.keys) (hnodup : (acc.records.keys ++ names).Nodup) :
    ∃ records, List.Forall₂ (Found env peak additionsDict s.node) names records ∧
      removals.records.entries = acc.records.entries ++ names.zip records ∧
      removals.coins.entries = acc.coins.entries ++ names.zip (records.map CoinRecord.coin) ∧
      removals.amount = acc.amount + (records.map fun r => r.coin.amount).sum := by
  induction names generalizing acc s with
  | nil =>
    cases hrun
    exact ⟨[], .nil, by simp, by simp, by simp⟩
  | cons name names ih =>
    obtain ⟨acc', s₁, hfirst, hrest⟩ := exec_bind_ok.mp hrun
    obtain ⟨record, s₂, hrecord, hfirst⟩ := exec_bind_ok.mp hfirst
    have hnew : name ∉ acc.records.keys := fun hmem =>
      disjoint_of_nodup_append hnodup hmem mem_cons_self
    have hreads := ((keeps_removalRecord peak additionsDict name).rel hrecord).node
    unfold addUint64 at hfirst
    split at hfirst
    · cases hfirst
      have hentries := entries_set_of_notMem hnew record
      have hentries' := entries_set_of_notMem (hkeys ▸ hnew) record.coin
      have hrecords : (acc.records.set name record).keys = acc.records.keys ++ [name] := by
        unfold Dict.keys
        rw [hentries, map_append]
        rfl
      have hcoins : (acc.coins.set name record.coin).keys = acc.coins.keys ++ [name] := by
        unfold Dict.keys
        rw [hentries', map_append]
        rfl
      obtain ⟨records, hfound, h₁, h₂, h₃⟩ := ih hrest (by rw [hrecords, hcoins, hkeys])
        (by rw [hrecords, append_assoc]; exact hnodup)
      refine ⟨record :: records, .cons (removalRecord_ok hrecord) ?_, ?_, ?_, ?_⟩
      · exact hfound.imp fun _ _ h => h.of_reads hreads
      · rw [h₁, hentries, append_assoc]
        rfl
      · rw [h₂, hentries', append_assoc]
        rfl
      · rw [h₃, map_cons, sum_cons, Nat.add_assoc]
    · cases hfirst

def spentNames (item : MempoolItem) : List Bytes32 := item.npcResult.npcList.map NPC.coinName

def createdNames (env : MempoolEnv Q) (item : MempoolItem) : List Bytes32 :=
  item.additions.map (Coin.name env.stdHash)

lemma demand_ok {ok : Bool} {error : Err} (h : demand ok error = .ok ()) : ok = true := by
  unfold demand at h
  split at h
  · assumption
  · cases h

omit [LinearOrder Q] in
lemma checkCoins_ok {npcList : List NPC} {additions : List Coin} {amount : ℕ}
    (h : checkCoins env npcList = .ok (additions, amount)) :
    additionsForNpc npcList = .ok additions ∧ additionAmount env additions = .ok amount ∧
      (additions.map (Coin.name env.stdHash)).Nodup ∧ (npcList.map NPC.coinName).Nodup := by
  obtain ⟨additions', hadditions, h⟩ := bind_eq_ok.mp h
  obtain ⟨amount', hamount, h⟩ := bind_eq_ok.mp h
  obtain ⟨_, houtputs, h⟩ := bind_eq_ok.mp h
  obtain ⟨_, hinputs, h⟩ := bind_eq_ok.mp h
  cases h
  exact ⟨mapError_eq_ok.mp hadditions, hamount, of_decide_eq_true (demand_ok houtputs),
    of_decide_eq_true (demand_ok hinputs)⟩

section Admitted

variable {validate : Bool} {peak : BlockRecord} {s : MempoolNode Q}
  {newItem : MempoolItem} {removals : Removals} {replaced : List MempoolItem}
variable (h : Admitted env newSpend npc name validate peak s newItem removals replaced)
include h

lemma Admitted.nodup : (createdNames env newItem).Nodup ∧ (spentNames newItem).Nodup := by
  obtain ⟨amount, hcoins, -⟩ := h.coins
  obtain ⟨-, -, hcreated, hspent⟩ := checkCoins_ok hcoins
  refine ⟨hcreated, ?_⟩
  unfold spentNames
  rw [h.ofNpc]
  exact hspent

lemma Admitted.records : ∃ records, List.Forall₂ (Found env peak (coinsByName env.toEnv newItem.additions) s.node)
        (spentNames newItem) records ∧
      removals.records.entries = (spentNames newItem).zip records ∧
      removals.coins.entries = (spentNames newItem).zip (records.map CoinRecord.coin) ∧
      removals.amount = (records.map fun r => r.coin.amount).sum := by
  obtain ⟨s₁, hfound⟩ := h.admission.found
  obtain ⟨records, hrecords, h₁, h₂, h₃⟩ := foldlM_removals hfound rfl h.nodup.2
  exact ⟨records, hrecords, h₁, h₂, by rw [h₃, Nat.zero_add]⟩

lemma Admitted.keys : removals.coins.keys = spentNames newItem ∧ removals.records.keys = spentNames newItem := by
  obtain ⟨records, hrecords, h₁, h₂, -⟩ := h.records
  unfold Dict.keys
  rw [h₁, h₂]
  constructor
  · rw [map_fst_zip]
    rw [length_map, hrecords.length_eq]
  · rw [map_fst_zip]
    rw [hrecords.length_eq]

end Admitted

lemma resolveConflicts_ok {newItem : MempoolItem} {records : Dict Bytes32 CoinRecord} {replaced : List MempoolItem}
    {s s' : MempoolNode Q} (hrun : exec (resolveConflicts env newItem records) s = (.ok replaced, s')) :
    (checkRemovals env s.manager.mempool records = (none, []) ∧ replaced = []) ∨
      ∃ conflicts items, checkRemovals env s.manager.mempool records = (some .MEMPOOL_CONFLICT, conflicts) ∧
        conflictingPoolItems env s.manager.mempool conflicts = .ok items ∧
        canReplace env items records newItem.fee (newItem.feePerCost env) = true ∧
        replaced = items.entries.map Prod.snd := by
  unfold resolveConflicts at hrun
  rw [exec_get_bind] at hrun
  unfold checkRemovals at hrun ⊢
  dsimp only at hrun ⊢
  split at hrun
  · rename_i conflicts hcheck
    right
    obtain ⟨items, s₁, hitems, hrun⟩ := exec_bind_ok.mp hrun
    refine ⟨conflicts, items, hcheck, mapError_eq_ok.mp (exec_lift_eq.mp hitems).1, ?_⟩
    split at hrun
    · rename_i hreplace
      cases hrun
      exact ⟨hreplace, rfl⟩
    · obtain ⟨_, _, -, hthrow⟩ := exec_bind_ok.mp hrun
      cases hthrow
  · cases hrun
  rename_i hcheck
  left
  cases hrun
  refine ⟨?_, rfl⟩
  split at hcheck
  · cases hcheck
  · split at hcheck
    · cases hcheck
    · rename_i hspent hconflicts
      rw [if_neg hspent, if_neg hconflicts]

lemma checkRemovals_cases {m : Mempool Q} {records : Dict Bytes32 CoinRecord} {error : Option Err} {conflicts : List Coin}
    (h : checkRemovals env m records = (error, conflicts)) (herror : error ≠ some .DOUBLE_SPEND) {k : Bytes32}
    {record : CoinRecord} (hrecord : records.get? k = some record) :
    record.spent = false ∧ (record.coin ∈ conflicts ∨ m.removals.get? (record.coin.name env.stdHash) = none) := by
  have hmem : record ∈ records.entries.map Prod.snd := mem_map.mpr ⟨(k, record), mem_entries.mpr hrecord, rfl⟩
  unfold checkRemovals at h
  dsimp only at h
  split at h
  · cases h
    exact absurd rfl herror
  rename_i hspent
  rw [any_eq_true, not_exists] at hspent
  refine ⟨by simpa using fun hs => hspent record ⟨hmem, hs⟩, ?_⟩
  by_cases hin : m.removals.contains (record.coin.name env.stdHash) = true
  · have hconflict : record.coin ∈ ((records.entries.map Prod.snd).map CoinRecord.coin).filter
        fun c => m.removals.contains (c.name env.stdHash) := mem_filter.mpr ⟨mem_map_of_mem hmem, hin⟩
    split at h
    · cases h
      exact .inl hconflict
    · rename_i hnone
      exact absurd (length_pos_of_mem hconflict) hnone
  · right
    rw [Dict.contains_iff, not_exists] at hin
    exact Option.eq_none_iff_forall_ne_some.mpr hin

lemma foldlM_conflicting {m : Mempool Q} {conflicts : List Coin} {acc items : Dict Bytes32 MempoolItem}
    (h : conflicts.foldlM (fun items conflicting =>
      match m.removals.get? (conflicting.name env.stdHash) with
      | some sb => .ok (items.set sb.name sb)
      | none => .error .keyError) acc = (.ok items : Except PyError (Dict Bytes32 MempoolItem))) :
    (∀ {k item}, items.get? k = some item → acc.get? k = some item ∨ item.name = k ∧
      ∃ c ∈ conflicts, m.removals.get? (c.name env.stdHash) = some item) ∧
    (∀ k, acc.contains k = true → items.contains k = true) ∧
    ∀ c ∈ conflicts, ∃ item, m.removals.get? (c.name env.stdHash) = some item ∧ items.contains item.name = true := by
  induction conflicts generalizing acc with
  | nil =>
    cases h
    exact ⟨.inl, fun _ => id, fun c hc => nomatch hc⟩
  | cons c conflicts ih =>
    rw [foldlM_cons] at h
    cases hsb : m.removals.get? (c.name env.stdHash) with
    | none =>
      rw [hsb] at h
      cases h
    | some sb =>
      rw [hsb] at h
      obtain ⟨hitems, hkeys, hall⟩ := ih h
      refine ⟨fun {k item} hk => ?_, fun k hk => ?_, fun c' hc' => ?_⟩
      · rcases hitems hk with hk | ⟨hname, c', hc', hget⟩
        · rw [get?_set] at hk
          split at hk
          · rename_i hname
            cases hk
            exact .inr ⟨hname.symm, c, mem_cons_self, hsb⟩
          · exact .inl hk
        · exact .inr ⟨hname, c', mem_cons_of_mem c hc', hget⟩
      · apply hkeys
        rw [Dict.contains_iff] at hk ⊢
        obtain ⟨v, hv⟩ := hk
        rw [get?_set]
        split
        · exact ⟨_, rfl⟩
        · exact ⟨v, hv⟩
      · rcases mem_cons.mp hc' with rfl | hc'
        · refine ⟨sb, hsb, hkeys sb.name ?_⟩
          rw [Dict.contains_iff]
          exact ⟨sb, get?_set_self _ _ _⟩
        · exact hall c' hc'

lemma conflictingPoolItems_ok {m : Mempool Q} {conflicts : List Coin} {items : Dict Bytes32 MempoolItem}
    (h : conflictingPoolItems env m conflicts = .ok items) :
    (∀ {k item}, items.get? k = some item → item.name = k ∧
      ∃ c ∈ conflicts, m.removals.get? (c.name env.stdHash) = some item) ∧
    ∀ c ∈ conflicts, ∃ item, m.removals.get? (c.name env.stdHash) = some item ∧ items.contains item.name = true := by
  obtain ⟨hitems, -, hall⟩ := foldlM_conflicting h
  refine ⟨fun hk => ?_, hall⟩
  rcases hitems hk with hk | hitem
  · cases hk
  · exact hitem

end SectorChain.Proofs
