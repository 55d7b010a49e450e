import SectorChain.Proofs.MempoolInvariant

/-!
# Stated and executed coins

A generator leaves out the stated puzzle hashes.
-/

namespace SectorChain.Proofs

open Lib List

section Stated

variable {Q : Type} {env : MempoolEnv Q} {coins : Set Coin}
variable {bundle : SpendBundle} {item : MempoolItem} {items : List MempoolItem} {npc : NPCResult}
  {name : Bytes32}

/-- Every coin has the puzzle hash of the puzzle that is revealed for it. -/
def RevealsPuzzles (env : MempoolEnv Q) (bundle : SpendBundle) : Prop :=
  ∀ cs ∈ bundle.coinSolutions, cs.puzzleReveal.program.treeHash env.stdHash = cs.coin.puzzleHash

/-- The coins that the bundle states are the coins of its executed conditions. -/
structure StatesCoins (env : MempoolEnv Q) (bundle : SpendBundle) (npcList : List NPC) : Prop where
  removals : bundle.removals.map (Coin.name env.stdHash) = npcList.map NPC.coinName
  additions : bundle.additions env = additionsForNpc npcList

lemma executedCoin_eq {cs : CoinSolution} :
    executedCoin env cs = cs.coin ↔ cs.puzzleReveal.program.treeHash env.stdHash = cs.coin.puzzleHash := by
  constructor
  · intro h
    exact congrArg Coin.puzzleHash h
  · intro h
    unfold executedCoin
    rw [h]

lemma statesCoins_of_executed {npcList : List NPC}
    (hexecuted : List.Forall₂ (Executed env) bundle.coinSolutions npcList) (h : RevealsPuzzles env bundle) :
    StatesCoins env bundle npcList := by
  unfold RevealsPuzzles at h
  have hboth : bundle.coinSolutions.map (fun cs => cs.coin.name env.stdHash) = npcList.map NPC.coinName ∧
      bundle.coinSolutions.mapM (CoinSolution.additions env) = npcList.mapM createdOutputsForConditionsDict := by
    generalize bundle.coinSolutions = solutions at hexecuted h
    induction hexecuted with
    | nil => exact ⟨rfl, rfl⟩
    | cons hhead _ ih =>
      obtain ⟨hnames, hcreated⟩ := ih fun cs hcs => h cs (mem_cons_of_mem _ hcs)
      have hname := hhead.coinName
      rw [executedCoin_eq.mpr (h _ mem_cons_self)] at hname
      refine ⟨by rw [map_cons, map_cons, hnames, hname], ?_⟩
      rw [mapM_cons, mapM_cons, hcreated, hhead.created, hname]
      rfl
  refine ⟨by rw [SpendBundle.removals, map_map]; exact hboth.1, ?_⟩
  unfold SpendBundle.additions additionsForNpc
  rw [hboth.2]

lemma revealsPuzzles_of_names (hinj : Set.InjOn (Coin.name env.stdHash) coins) {npcList : List NPC}
    (hexecuted : List.Forall₂ (Executed env) bundle.coinSolutions npcList)
    (hcoins : ∀ cs ∈ bundle.coinSolutions, cs.coin ∈ coins ∧ executedCoin env cs ∈ coins)
    (h : bundle.removals.map (Coin.name env.stdHash) = npcList.map NPC.coinName) : RevealsPuzzles env bundle := by
  unfold RevealsPuzzles
  rw [SpendBundle.removals] at h
  generalize bundle.coinSolutions = solutions at hexecuted hcoins h
  induction hexecuted with
  | nil => exact fun cs hcs => (nomatch hcs)
  | cons hhead _ ih =>
    obtain ⟨hname, hnames⟩ := List.cons.inj h
    intro cs hcs
    rcases mem_cons.mp hcs with rfl | hcs
    · obtain ⟨hcoin, hcoin'⟩ := hcoins cs mem_cons_self
      exact executedCoin_eq.mp (hinj hcoin' hcoin (hhead.coinName.symm.trans hname.symm))
    · exact ih (fun cs hcs => hcoins cs (mem_cons_of_mem _ hcs)) hnames cs hcs

/-- The bundle was executed, reveals its puzzles, and all coins involved are among `coins`. -/
def Revealing (env : MempoolEnv Q) (coins : Set Coin) : Submission := fun bundle npcResult _ =>
  npcResult = preValidateSpendbundle env bundle ∧ RevealsPuzzles env bundle ∧ (∀ c ∈ bundle.removals, c ∈ coins) ∧
    ∀ created, additionsForNpc npcResult.npcList = .ok created → ∀ c ∈ created, c ∈ coins

lemma Revealing.statesCoins (hrom : RomLaws env) (h : Revealing env coins bundle npc name)
    (herror : npc.error = none) : StatesCoins env bundle npc.npcList := by
  obtain ⟨rfl, hreveals, -, -⟩ := h
  exact statesCoins_of_executed (executed_of_noError hrom herror) hreveals

lemma Revealing.stated (hrom : RomLaws env) (h : Revealing env coins bundle npc name) :
    Stated env coins bundle npc name := by
  intro herror
  have hstates := h.statesCoins hrom herror
  refine ⟨⟨List.Perm.of_eq hstates.removals, fun created hcreated => ⟨created, ?_, List.Perm.refl _⟩⟩, h.2.2.2⟩
  rw [hstates.additions, hcreated]

/-- Coin records stand under the names of their coins, and hold coins of `coins`. -/
structure KnownStore (env : Env) (coins : Set Coin) (n : Node) : Prop extends KeyedStore env n where
  tableCoins : ∀ {k r}, n.db.coinRecord.get? k = some r → r.coin ∈ coins
  cacheCoins : ∀ {k r}, n.coinRecordCache.peek k = some r → r.coin ∈ coins

lemma KnownStore.of_reads {env : Env} {n n' : Node} (hreads : Reads env n n') (h : KnownStore env coins n) :
    KnownStore env coins n' where
  toKeyedStore := h.toKeyedStore.of_reads hreads
  tableCoins hk := h.tableCoins (hreads.db ▸ hk)
  cacheCoins hk := by
    rcases hreads.coinRecordCache _ _ hk with hk | ⟨-, k', hk⟩
    · exact h.cacheCoins hk
    · exact h.tableCoins hk

lemma Found.coin_mem {peak : BlockRecord} {additions : List Coin} {node : Node} {k : Bytes32}
    {record : CoinRecord} (hstore : KnownStore env.toEnv coins node) (hadditions : ∀ c ∈ additions, c ∈ coins)
    (h : Found env peak (coinsByName env.toEnv additions) node k record) : record.coin ∈ coins := by
  cases h with
  | ephemeral coin hget hrecord =>
    obtain ⟨timestamp, -, hrecord⟩ := bind_eq_ok.mp hrecord
    cases hrecord
    exact hadditions coin (coinsByName_get? hget).1
  | stored node₁ hget hreads hrecord =>
    have hstore₁ := hstore.of_reads hreads
    rcases Option.or_eq_some_iff.mp hrecord with hcache | ⟨-, htable⟩
    · exact hstore₁.cacheCoins hcache
    · exact hstore₁.tableCoins htable

/-- An item lists the coins that it spends and creates. -/
structure Faithful (env : MempoolEnv Q) (coins : Set Coin) (item : MempoolItem) : Prop where
  revealing : Meets (Revealing env coins) item
  noError : item.npcResult.error = none
  additions : additionsForNpc item.npcResult.npcList = .ok item.additions
  removals : item.removals.map (Coin.name env.stdHash) = spentNames item
  known : ∀ c ∈ item.removals, c ∈ coins

lemma Faithful.additions_eq (hrom : RomLaws env) (h : Faithful env coins item) :
    item.spendBundle.additions env = .ok item.additions := by
  rw [(h.revealing.statesCoins hrom h.noError).additions, h.additions]

lemma Faithful.mem_removals (hrom : RomLaws env) (hinj : Set.InjOn (Coin.name env.stdHash) coins)
    (h : Faithful env coins item) (c : Coin) : c ∈ item.spendBundle.removals ↔ c ∈ item.removals := by
  have hnames : item.spendBundle.removals.map (Coin.name env.stdHash) = item.removals.map (Coin.name env.stdHash) :=
    (h.revealing.statesCoins hrom h.noError).removals.trans h.removals.symm
  have hstated : ∀ c ∈ item.spendBundle.removals, c ∈ coins := h.revealing.2.2.1
  constructor
  · intro hc
    obtain ⟨c', hc', hname⟩ := mem_map.mp (hnames ▸ mem_map_of_mem hc)
    exact hinj (h.known c' hc') (hstated c hc) hname ▸ hc'
  · intro hc
    obtain ⟨c', hc', hname⟩ := mem_map.mp (hnames ▸ mem_map_of_mem hc)
    exact hinj (hstated c' hc') (h.known c hc) hname ▸ hc'

lemma additions_aggregateBundles (h : ∀ item ∈ items, item.spendBundle.additions env = .ok item.additions) :
    (SpendBundle.aggregateBundles env (items.map MempoolItem.spendBundle)).additions env =
      .ok (items.flatMap MempoolItem.additions) := by
  unfold SpendBundle.additions SpendBundle.aggregateBundles
  rw [flatMap_map]
  exact flatten_mapM_flatMap h

lemma mem_removals_aggregateBundles {c : Coin} :
    c ∈ (SpendBundle.aggregateBundles env (items.map MempoolItem.spendBundle)).removals ↔
      ∃ item ∈ items, c ∈ item.spendBundle.removals := by
  unfold SpendBundle.removals SpendBundle.aggregateBundles
  simp only [map_flatMap, mem_flatMap, mem_map]
  constructor
  · rintro ⟨bundle, ⟨item, hitem, rfl⟩, hc⟩
    exact ⟨item, hitem, hc⟩
  · rintro ⟨item, hitem, hc⟩
    exact ⟨_, ⟨item, hitem, rfl⟩, hc⟩

lemma mem_of_chooseItems {costSum feeSum : ℕ} (h : item ∈ chooseItems env costSum feeSum items) : item ∈ items := by
  induction items generalizing costSum feeSum with
  | nil => cases h
  | cons i items ih =>
    unfold chooseItems at h
    split at h
    · rcases mem_cons.mp h with rfl | h
      · exact mem_cons_self
      · exact mem_cons_of_mem i (ih h)
    · cases h

end Stated

variable {Q : Type} [LinearOrder Q] {env : MempoolEnv Q} {coins : Set Coin}

lemma noError_of_success {newSpend : SpendBundle} {validate : Bool} {program : Option Bytes}
    {s s' : MempoolNode Q} {result : AddResult}
    (hrun : exec (addSpendbundle env newSpend npc name validate program) s = (.ok result, s'))
    (hstatus : result.status = .SUCCESS) : npc.error = none := by
  cases herror : npc.error with
  | none => rfl
  | some error =>
    unfold addSpendbundle addSteps at hrun
    rw [exec_mk, exec_get_bind] at hrun
    cases hpeak : s.manager.peak with
    | none =>
      rw [hpeak] at hrun
      cases hrun
      cases hstatus
    | some peak =>
      rw [hpeak] at hrun
      dsimp only at hrun
      unfold demand at hrun
      split at hrun
      · rename_i hsteps
        split at hsteps
        · rw [herror] at hsteps
          cases hsteps
        · cases hsteps
      · rename_i result' s'' hsteps
        cases hrun
        split at hsteps
        · rw [herror] at hsteps
          cases hsteps
          cases hstatus
        · cases hsteps
          cases hstatus
      · cases hrun

lemma Admitted.faithful {newSpend : SpendBundle} {validate : Bool}
    {peak : BlockRecord} {s : MempoolNode Q} {newItem : MempoolItem} {removals : Removals} {replaced : List MempoolItem}
    (hstore : KnownStore env.toEnv coins s.node) (hgood : Revealing env coins newSpend npc name)
    (h : Admitted env newSpend npc name validate peak s newItem removals replaced) :
    Faithful env coins newItem := by
  obtain ⟨amount, hcoins, -⟩ := h.coins
  have hadditions := (checkCoins_ok hcoins).1
  obtain ⟨records, hrecords, -, h₂, -⟩ := h.records
  have hcoins' : newItem.removals = records.map CoinRecord.coin := by
    rw [h.admission.coins, h₂, map_snd_zip]
    rw [length_map, hrecords.length_eq]
  refine ⟨?_, h.ofNpc ▸ h.noError, by rw [h.ofNpc]; exact hadditions, ?_, ?_⟩
  · unfold Meets
    rw [h.ofSpend, h.ofNpc]
    exact hgood
  · rw [hcoins', map_map]
    generalize spentNames newItem = names at hrecords
    clear h₂ hcoins'
    induction hrecords with
    | nil => rfl
    | cons hhead _ ih => rw [map_cons, ih, Function.comp_apply, hhead.name_eq hstore.toKeyedStore]
  intro c hc
  rw [hcoins'] at hc
  obtain ⟨record, hrecord, rfl⟩ := mem_map.mp hc
  obtain ⟨k, -, hfound⟩ := exists_of_mem_right hrecords hrecord
  exact hfound.coin_mem hstore (hgood.2.2.2 _ hadditions)

lemma mem_byFallingFee {m : Mempool Q} (hindexed : Indexed env m)
    (h : item ∈ m.byFallingFee) : m.spends.get? item.name = some item := by
  obtain ⟨bucket, hbucket, hitem⟩ := mem_flatMap.mp h
  obtain ⟨e, he, rfl⟩ := mem_map.mp hitem
  have hmem : (bucket.1, e.2) ∈ m.inOrder := mem_flatMap.mpr
    ⟨bucket, mem_reverse.mp hbucket, mem_map.mpr ⟨e, he, rfl⟩⟩
  exact (hindexed.mem_inOrder.mp hmem).1

lemma createBundleFromMempool_ok (hrom : RomLaws env) (hinj : Set.InjOn (Coin.name env.stdHash) coins)
    {s : MempoolManager Q} (hindexed : Indexed env s.mempool)
    (hitems : ∀ k item, s.mempool.spends.get? k = some item → Faithful env coins item)
    (lastTbHeaderHash : Bytes32) : ∃ r, createBundleFromMempool env s lastTbHeaderHash = .ok r := by
  have hfaithful : ∀ item ∈ chooseItems env 0 0 s.mempool.byFallingFee, Faithful env coins item :=
    fun item hitem => hitems _ item (mem_byFallingFee hindexed (mem_of_chooseItems hitem))
  unfold createBundleFromMempool
  split
  · exact ⟨none, rfl⟩
  dsimp only
  generalize chooseItems env 0 0 s.mempool.byFallingFee = items at hfaithful
  split
  · rw [additions_aggregateBundles fun item hitem => (hfaithful item hitem).additions_eq hrom, ok_bind]
    have hadditions : sameSet (items.flatMap MempoolItem.additions)
        (items.flatMap MempoolItem.additions) = true := sameSet_iff.mpr fun c => Iff.rfl
    have hremovals : sameSet (SpendBundle.aggregateBundles env (items.map MempoolItem.spendBundle)).removals
        (items.flatMap MempoolItem.removals) = true := by
      apply sameSet_iff.mpr
      intro c
      rw [mem_removals_aggregateBundles, mem_flatMap]
      constructor
      · rintro ⟨item, hitem, hc⟩
        exact ⟨item, hitem, ((hfaithful item hitem).mem_removals hrom hinj c).mp hc⟩
      · rintro ⟨item, hitem, hc⟩
        exact ⟨item, hitem, ((hfaithful item hitem).mem_removals hrom hinj c).mpr hc⟩
    rw [hadditions, hremovals]
    exact ⟨_, rfl⟩
  · exact ⟨none, rfl⟩

lemma preserved_faithful (hrom : RomLaws env) (hinj : Set.InjOn (Coin.name env.stdHash) coins) :
    Preserved env (Revealing env coins) (KnownStore env.toEnv coins) fun m => Linked env coins m ∧
      ∀ k item, m.spends.get? k = some item → Faithful env coins item :=
  preserved_linked_items hinj (fun h => h.stated hrom) KnownStore.of_reads KnownStore.toKeyedStore
    Faithful.revealing Admitted.faithful

/-- A bundle that was accepted states the coins that it executes exactly if it reveals the puzzles of its coins. -/
theorem stated_coins_iff (env : MempoolEnv Q) (hrom : RomLaws env) (coins : Set Coin)
    (hinj : Set.InjOn (Coin.name env.stdHash) coins) :
    (∀ (s s' : MempoolNode Q) (bundle : SpendBundle) (spendName : Bytes32) (validateSignature : Bool)
      (program : Option Bytes) (result : AddResult),
      exec (addSpendbundle env bundle (preValidateSpendbundle env bundle) spendName validateSignature program)
        s = (.ok result, s') → result.status = .SUCCESS →
      (∀ cs ∈ bundle.coinSolutions, cs.coin ∈ coins ∧ executedCoin env cs ∈ coins) →
      (StatesCoins env bundle (preValidateSpendbundle env bundle).npcList ↔ RevealsPuzzles env bundle)) ∧
    ∀ s, Reached env (Revealing env coins) (KnownStore env.toEnv coins) s →
      (∀ name item, s.mempool.spends.get? name = some item →
        (exec (Mempool.removeFromPool env item) s.mempool).1 = .ok ()) ∧
      ∀ lastTbHeaderHash, ∃ r, createBundleFromMempool env s lastTbHeaderHash = .ok r := by
  constructor
  · intro s s' bundle spendName validateSignature program result hrun hstatus hcoins
    have hexecuted := executed_of_noError hrom (noError_of_success hrun hstatus)
    exact ⟨fun h => revealsPuzzles_of_names hinj hexecuted hcoins h.removals, statesCoins_of_executed hexecuted⟩
  intro s hs
  obtain ⟨hlinked, hitems⟩ := (hs.safe (preserved_faithful hrom hinj)).pool
  refine ⟨fun name item hitem => ?_, createBundleFromMempool_ok hrom hinj hlinked.indexed hitems⟩
  have hname := hlinked.indexed.keyed hitem
  obtain ⟨m', hrun, -, -⟩ := hlinked.removeFromPool (hname ▸ hitem)
  rw [hrun]

def sampleCoins : Set Coin := { c | c ∈ [sampleCoin, otherCoin, sampleChild] }

lemma injOn_sampleCoins : Set.InjOn (Coin.name (sampleMempoolEnv 10).stdHash) sampleCoins :=
  fun _ hc _ hc' h => inj_on_of_nodup_map
    (show ([sampleCoin, otherCoin, sampleChild].map (Coin.name sampleHash)).Nodup by decide +kernel) hc hc' h

lemma knownStore_sampleNode : KnownStore (sampleMempoolEnv 10).toEnv sampleCoins sampleNode where
  toKeyedStore := keyedStore_nodeWith _
  tableCoins hk := by
    have hmem := (get?_nodeWith hk).1
    exact mem_append_left [sampleChild] hmem
  cacheCoins hk := (by cases hk)

lemma revealing_sampleBundle (name : Bytes32) : Revealing (sampleMempoolEnv 10) sampleCoins sampleBundle
    (preValidateSpendbundle (sampleMempoolEnv 10) sampleBundle) name := by
  refine ⟨rfl, ?_, ?_, ?_⟩
  · unfold RevealsPuzzles
    decide +kernel
  · intro c hc
    rw [mem_singleton.mp hc]
    exact mem_cons_self
  · intro created hcreated c hc
    cases hcreated
    rw [mem_singleton.mp hc]
    exact mem_append_right [sampleCoin, otherCoin] mem_cons_self

/-- A bundle that reveals the puzzle of its coin. -/
theorem sample_bundle_states_coins : (StatesCoins (sampleMempoolEnv 10) sampleBundle
        (preValidateSpendbundle (sampleMempoolEnv 10) sampleBundle).npcList ↔
      RevealsPuzzles (sampleMempoolEnv 10) sampleBundle) ∧
    sampleManager.mempool.spends.contains (.ofNat 32 1) = true ∧
    (∀ name item, sampleManager.mempool.spends.get? name = some item →
      (exec (Mempool.removeFromPool (sampleMempoolEnv 10) item) sampleManager.mempool).1 = .ok ()) ∧
    ∃ r, createBundleFromMempool (sampleMempoolEnv 10) sampleManager samplePeak.headerHash = .ok r := by
  obtain ⟨hstates, hreached⟩ := stated_coins_iff (sampleMempoolEnv 10) (romLaws_sampleMempoolEnv 10)
    sampleCoins injOn_sampleCoins
  have hresult : (submit (sampleMempoolEnv 10) sampleNode sampleBundle (.ofNat 32 1)
      (atPeak (sampleMempoolEnv 10) sampleNode)).1 = .ok ⟨some 2941000, .SUCCESS, none⟩ := by
    decide +kernel
  have hs : Reached (sampleMempoolEnv 10) (Revealing (sampleMempoolEnv 10) sampleCoins)
      (KnownStore (sampleMempoolEnv 10).toEnv sampleCoins) sampleManager :=
    reached_submit (reached_atPeak knownStore_sampleNode) knownStore_sampleNode (revealing_sampleBundle _)
  refine ⟨hstates _ _ _ _ _ _ _ (exec_of_submit rfl hresult) rfl ?_, by decide +kernel,
    (hreached _ hs).1, (hreached _ hs).2 _⟩
  intro cs hcs
  rw [mem_singleton.mp hcs]
  refine ⟨mem_cons_self, ?_⟩
  exact mem_cons_self

def misstatedBundle : SpendBundle :=
  bundleOf [{ openSpend sampleCoin 100000000 with coin := { sampleCoin with puzzleHash := .ofNat 32 3 } }]

def misstatedManager : MempoolManager ℚ :=
  (submit (sampleMempoolEnv 10) sampleNode misstatedBundle (.ofNat 32 1)
    (atPeak (sampleMempoolEnv 10) sampleNode)).2.manager

/-- No coin that the bundle states is one that it spends. Its item cannot be removed. -/
theorem misstated_bundle_accepted : Reached (sampleMempoolEnv 10)
        (fun bundle npc _ => npc = preValidateSpendbundle (sampleMempoolEnv 10) bundle)
        (KnownStore (sampleMempoolEnv 10).toEnv sampleCoins) misstatedManager ∧
      (submit (sampleMempoolEnv 10) sampleNode misstatedBundle (.ofNat 32 1)
        (atPeak (sampleMempoolEnv 10) sampleNode)).1 = .ok ⟨some 2941000, .SUCCESS, none⟩ ∧
      (∀ c ∈ misstatedBundle.removals, c.name sampleHash ∉
        (preValidateSpendbundle (sampleMempoolEnv 10) misstatedBundle).npcList.map NPC.coinName) ∧
      misstatedBundle.additions (sampleMempoolEnv 10) ≠
        additionsForNpc (preValidateSpendbundle (sampleMempoolEnv 10) misstatedBundle).npcList ∧
      (misstatedManager.mempool.spends.get? (.ofNat 32 1)).map (fun item =>
        (exec (Mempool.removeFromPool (sampleMempoolEnv 10) item) misstatedManager.mempool).1) =
        some (.error .keyError) ∧
      createBundleFromMempool (sampleMempoolEnv 10) misstatedManager samplePeak.headerHash =
        .error .assertionError := by
  refine ⟨reached_submit (reached_atPeak knownStore_sampleNode) knownStore_sampleNode rfl, ?_⟩
  decide +kernel

end SectorChain.Proofs
