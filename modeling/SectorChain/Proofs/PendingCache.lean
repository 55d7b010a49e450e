import SectorChain.Proofs.MempoolRuns

/-!
# The cache of pending transactions

The cache lowers its limit where it should lower its cost.
-/

namespace SectorChain.Proofs

open Lib

variable {Q : Type} [LinearOrder Q] {env : MempoolEnv Q} {s : MempoolManager Q}

inductive CacheCall where
  | addToPotentialTxSet (item : MempoolItem)
  | newPeak (node : Node) (peak : Option BlockRecord)

def CacheCall.run (env : MempoolEnv Q) (s : MempoolManager Q) : CacheCall → Except PyError Unit × MempoolManager Q
  | .addToPotentialTxSet item => exec (SectorChain.addToPotentialTxSet item) s
  | .newPeak node peak =>
    let r := exec (SectorChain.newPeak env peak) ⟨node, s⟩
    (r.1.map fun _ => (), r.2.manager)

structure Accounted (env : MempoolEnv Q) (s : MempoolManager Q) : Prop where
  cost : s.potentialCacheCost = (s.potentialTxs.entries.map fun e => e.2.cost).sum
  atMost : s.potentialCacheCost ≤ env.constants.maxBlockCostClvm * 5
  limit : s.potentialCacheMaxTotalCost = env.constants.maxBlockCostClvm * 5

/-- The peak is no reason to rebuild the mempool. -/
def Ignored (env : MempoolEnv Q) (s : MempoolManager Q) (peak : Option BlockRecord) : Prop :=
  ∀ p ∈ peak, ∀ timestamp ∈ p.timestamp, s.peak = some p ∨ timestamp ≤ env.constants.initialFreezeEndTimestamp

/-- An item is known or fits, and a peak is ignored or finds nothing pending. -/
def CacheCall.Fits (env : MempoolEnv Q) (s : MempoolManager Q) : CacheCall → Prop
  | .addToPotentialTxSet item => s.potentialTxs.contains item.spendBundleName ∨
      (s.potentialCacheCost : ℤ) + item.cost ≤ s.potentialCacheMaxTotalCost
  | .newPeak _ peak => Ignored env s peak ∨ s.potentialTxs.entries = [] ∧ 100000 ≤ mempoolMaxTotalCost env

/-- The managers that calls lead to, all of which meet a condition in the state they find. -/
inductive CacheRun (env : MempoolEnv Q) (Ok : MempoolManager Q → CacheCall → Prop) : MempoolManager Q → Prop where
  | start : CacheRun env Ok (.new env)
  | call {s : MempoolManager Q} (c : CacheCall) : CacheRun env Ok s → Ok s c → CacheRun env Ok (c.run env s).2

/-- The books are right, and the mempool is empty: only pending items could have got into it. -/
structure Quiet (env : MempoolEnv Q) (s : MempoolManager Q) : Prop extends Accounted env s where
  mempool : s.mempool = .new (mempoolMaxTotalCost env)

lemma exec_shrinkPotential (fuel : ℕ) (h : (s.potentialCacheCost : ℤ) ≤ s.potentialCacheMaxTotalCost) :
    exec (shrinkPotential (fuel + 1)) s = (.ok (), s) := by
  unfold shrinkPotential
  rw [exec_get_bind, if_neg (by omega)]
  rfl

lemma Quiet.addToPotentialTxSet (h : Quiet env s) (item : MempoolItem)
    (hfits : (CacheCall.addToPotentialTxSet item).Fits env s) :
    (exec (SectorChain.addToPotentialTxSet item) s).1 = .ok () ∧
      Quiet env (exec (SectorChain.addToPotentialTxSet item) s).2 := by
  unfold SectorChain.addToPotentialTxSet
  rw [exec_get_bind]
  cases hknown : s.potentialTxs.contains item.spendBundleName with
  | true => exact ⟨rfl, h⟩
  | false =>
    have hroom : (s.potentialCacheCost : ℤ) + item.cost ≤ s.potentialCacheMaxTotalCost := by
      rcases hfits with hcontains | hroom
      · rw [hknown] at hcontains
        cases hcontains
      · exact hroom
    have hnew : item.spendBundleName ∉ s.potentialTxs.keys := by
      intro hmem
      rw [Dict.contains_iff.mpr (Dict.mem_keys.mp hmem)] at hknown
      cases hknown
    rw [if_neg Bool.false_ne_true, exec_modify_bind, exec_get_bind, exec_shrinkPotential _ (by push_cast; exact hroom)]
    refine ⟨rfl, ⟨?_, ?_, h.limit⟩, h.mempool⟩
    · rw [Dict.entries_set_of_notMem hnew, List.map_append, List.sum_append, ← h.cost]
      rfl
    · have hlimit := h.limit
      dsimp only
      omega

lemma Quiet.rebuild (h : Quiet env s) (node : Node) (peak : BlockRecord) (hnone : s.potentialTxs.entries = [])
    (hroom : 100000 ≤ mempoolMaxTotalCost env) :
    (exec (SectorChain.rebuild env peak) ⟨node, s⟩).1 = .ok [] ∧
      Quiet env (exec (SectorChain.rebuild env peak) ⟨node, s⟩).2.manager := by
  have hspends : s.mempool.spends.entries = [] := by
    rw [h.mempool]
    rfl
  have hrate : (Mempool.new (mempoolMaxTotalCost env) : Mempool Q).getMinFeeRate env 100000 = .ok (env.perCost 0 1) := by
    have hcapacity : (Mempool.new (mempoolMaxTotalCost env) : Mempool Q).atFullCapacity 100000 = false := by
      simpa [Mempool.atFullCapacity, Mempool.new] using hroom
    unfold Mempool.getMinFeeRate
    rw [hcapacity]
    rfl
  unfold SectorChain.rebuild
  rw [exec_get_bind, exec_onManager_modify_bind, hspends, List.map_nil, List.forM, exec_pure_bind, exec_get_bind,
    exec_onManager_modify_bind]
  rw [hnone, List.map_nil, List.foldlM_nil, exec_pure_bind, exec_get_bind, hrate]
  refine ⟨rfl, ⟨?_, h.atMost, h.limit⟩, rfl⟩
  rw [h.cost, hnone]
  rfl

lemma Quiet.newPeak (h : Quiet env s) (node : Node) (peak : Option BlockRecord)
    (hfits : (CacheCall.newPeak node peak).Fits env s) :
    (exec (SectorChain.newPeak env peak) ⟨node, s⟩).1 = .ok [] ∧
      Quiet env (exec (SectorChain.newPeak env peak) ⟨node, s⟩).2.manager := by
  unfold SectorChain.newPeak
  cases peak with
  | none => exact ⟨rfl, h⟩
  | some p =>
    dsimp only
    cases htimestamp : p.timestamp with
    | none => exact ⟨rfl, h⟩
    | some timestamp =>
      rw [exec_get_bind]
      by_cases hsame : s.peak = some p
      · rw [if_pos hsame]
        exact ⟨rfl, h⟩
      rw [if_neg hsame]
      split
      · exact ⟨rfl, h⟩
      · rename_i hlate
        rcases hfits with hignored | ⟨hnone, hroom⟩
        · exact absurd (hignored p rfl timestamp htimestamp) (not_or.mpr ⟨hsame, hlate⟩)
        · exact h.rebuild node p hnone hroom

lemma Quiet.run (h : Quiet env s) (c : CacheCall) (hfits : c.Fits env s) :
    (c.run env s).1 = .ok () ∧ Quiet env (c.run env s).2 := by
  cases c with
  | addToPotentialTxSet item => exact h.addToPotentialTxSet item hfits
  | newPeak node peak =>
    obtain ⟨hok, hquiet⟩ := h.newPeak node peak hfits
    refine ⟨?_, hquiet⟩
    unfold CacheCall.run
    dsimp only
    rw [hok]
    rfl

/-- In a run whose calls all fit, the books are right in every state, and no call raises. -/
theorem pending_cache_accounted (env : MempoolEnv Q) (s : MempoolManager Q)
    (hs : CacheRun env (fun s c => c.Fits env s) s) :
    Accounted env s ∧ ∀ c : CacheCall, c.Fits env s → (c.run env s).1 = .ok () := by
  have hquiet : Quiet env s := by
    induction hs with
    | start => exact ⟨⟨rfl, Nat.zero_le _, rfl⟩, rfl⟩
    | call c _ hfits ih => exact (ih.run c hfits).2
  exact ⟨hquiet.toAccounted, fun c hfits => (hquiet.run c hfits).1⟩

def pendingItem (cost : ℕ) : MempoolItem :=
  ⟨sampleBundle, 0, ⟨some .GENERATOR_RUNTIME_ERROR, [], 0⟩, cost, .ofNat 32 1, [], [], []⟩

def keepingManager : MempoolManager ℚ :=
  (CacheCall.run (sampleMempoolEnv 10) (.new (sampleMempoolEnv 10)) (.addToPotentialTxSet (pendingItem 7))).2

theorem pending_cache_accounted_one :
    keepingManager.potentialCacheCost = 7 ∧ Accounted (sampleMempoolEnv 10) keepingManager ∧
      (CacheCall.run (sampleMempoolEnv 10) keepingManager (.newPeak sampleNode none)).1 = .ok () := by
  have hfits : (CacheCall.addToPotentialTxSet (pendingItem 7)).Fits (sampleMempoolEnv 10) (.new (sampleMempoolEnv 10)) :=
    .inr (by decide)
  obtain ⟨haccounted, hreturns⟩ := pending_cache_accounted (sampleMempoolEnv 10) keepingManager
    (.call _ .start hfits)
  exact ⟨by decide +kernel, haccounted, hreturns (.newPeak sampleNode none) (.inl fun p hp => (by cases hp))⟩

/-- The cost of an item is left after a peak, and an item above the limit lowers it and raises. -/
theorem pending_cache_not_accounted : ¬Accounted (sampleMempoolEnv 10)
        (CacheCall.run (sampleMempoolEnv 10) keepingManager (.newPeak sampleNode (some samplePeak))).2 ∧
      let r := CacheCall.run (sampleMempoolEnv 10) (.new (sampleMempoolEnv 10))
        (.addToPotentialTxSet (pendingItem (DEFAULT_CONSTANTS.maxBlockCostClvm * 5 + 1)))
      r.1 = .error .indexError ∧ ¬Accounted (sampleMempoolEnv 10) r.2 := by
  constructor
  · intro h
    have hcost := h.cost
    cases hcost
  · intro r
    refine ⟨by decide +kernel, fun h => ?_⟩
    have hlimit : r.2.potentialCacheMaxTotalCost ≠ (DEFAULT_CONSTANTS.maxBlockCostClvm * 5 : ℤ) := by decide +kernel
    exact hlimit h.limit

end SectorChain.Proofs
