import SectorChain.Proofs.BodyChecks
import SectorChain.Proofs.ExecutedSpends
import SectorChain.Proofs.MempoolSteps

/-!
# Runs of the mempool manager

A property holds in all runs if it survives the last step of a call.
-/

namespace SectorChain.Proofs

open Lib

variable {Q : Type} [LinearOrder Q]

abbrev Submission := SpendBundle → NPCResult → Bytes32 → Prop

def Meets (Good : Submission) (item : MempoolItem) : Prop :=
  Good item.spendBundle item.npcResult item.spendBundleName

/-- The managers that calls on `Good` bundles and `Sound` nodes lead to. -/
inductive Reached (env : MempoolEnv Q) (Good : Submission) (Sound : Node → Prop) :
    MempoolManager Q → Prop where
  | start : Reached env Good Sound (MempoolManager.new env)
  | add {s : MempoolManager Q} (node : Node) (newSpend : SpendBundle) (npcResult : NPCResult)
      (spendName : Bytes32) (validateSignature : Bool) (program : Option Bytes) :
      Reached env Good Sound s → Sound node → Good newSpend npcResult spendName →
      Reached env Good Sound
        (exec (addSpendbundle env newSpend npcResult spendName validateSignature program) ⟨node, s⟩).2.manager
  | peak {s : MempoolManager Q} (node : Node) (peak : Option BlockRecord) :
      Reached env Good Sound s → Sound node →
      Reached env Good Sound (exec (newPeak env peak) ⟨node, s⟩).2.manager
  | remove {s : MempoolManager Q} (item : MempoolItem) :
      Reached env Good Sound s → s.mempool.spends.get? item.name = some item →
      Reached env Good Sound { s with mempool := (exec (Mempool.removeFromPool env item) s.mempool).2 }
  | evict {s : MempoolManager Q} (cost : ℕ) :
      Reached env Good Sound s →
      Reached env Good Sound { s with mempool :=
        (exec (Mempool.makeRoom env cost (s.mempool.spends.entries.length + 1)) s.mempool).2 }

/-- A property of mempools that every change of the mempool keeps. -/
structure Preserved (env : MempoolEnv Q) (Good : Submission) (Sound : Node → Prop)
    (P : Mempool Q → Prop) : Prop where
  reads : ∀ {n n'}, Reads env.toEnv n n' → Sound n → Sound n'
  new : P (.new (mempoolMaxTotalCost env))
  good : ∀ {m k item}, P m → m.spends.get? k = some item → Meets Good item
  includeItem : ∀ {newSpend npcResult spendName validateSignature peak s newItem removals replaced
    r m'}, Sound s.node → P s.manager.mempool → Good newSpend npcResult spendName →
    Admitted env newSpend npcResult spendName validateSignature peak s newItem removals replaced →
    exec (includeItem env newItem replaced removals.coins) s.manager.mempool = (r, m') → P m'
  remove : ∀ {m item}, P m → m.spends.get? item.name = some item → P (exec (Mempool.removeFromPool env item) m).2
  evict : ∀ {m cost fuel}, P m → P (exec (Mempool.makeRoom env cost fuel) m).2

/-- The property, and bundles that were kept for later are `Good`. -/
structure Safe (Good : Submission) (P : Mempool Q → Prop) (s : MempoolManager Q) : Prop where
  pool : P s.mempool
  potential : ∀ {k item}, s.potentialTxs.get? k = some item → Meets Good item

variable {env : MempoolEnv Q} {Good : Submission} {Sound : Node → Prop} {P : Mempool Q → Prop}

def StaysSafe (Good : Submission) (Sound : Node → Prop) (P : Mempool Q → Prop) (s s' : MempoolNode Q) :
    Prop :=
  Sound s.node ∧ Safe Good P s.manager → Sound s'.node ∧ Safe Good P s'.manager

instance : Std.Refl (StaysSafe Good Sound P) := ⟨fun _ => id⟩

instance : IsTrans (MempoolNode Q) (StaysSafe Good Sound P) := ⟨fun _ _ _ h h' hs => h' (h hs)⟩

lemma keeps_addSpendbundle (h : Preserved env Good Sound P) {newSpend : SpendBundle}
    {npc : NPCResult} {name : Bytes32} (hgood : Good newSpend npc name)
    (validate : Bool) (program : Option Bytes) :
    Keeps (StaysSafe Good Sound P)
      (addSpendbundle env newSpend npc name validate program) := by
  rintro s ⟨hsound, hsafe⟩
  have hpotential : ∀ {s'}, Prepared env newSpend npc name s s' →
      ∀ {k item}, s'.manager.potentialTxs.get? k = some item → Meets Good item := by
    intro s' hprepared k item hk
    rcases hprepared.potential hk with hk | ⟨hspend, hnpc, hname⟩
    · exact hsafe.potential hk
    · unfold Meets
      rw [hspend, hnpc, hname]
      exact hgood
  rcases hrun : exec (addSpendbundle env newSpend npc name validate program) s
    with ⟨r, s'⟩
  rcases addSpendbundle_cases hrun with hprepared |
    ⟨peak, newItem, removals, replaced, s₁, m', hadmitted, hprepared, rfl, hlast⟩
  · refine ⟨h.reads hprepared.node hsound, ?_, hpotential hprepared⟩
    rw [hprepared.mempool]
    exact hsafe.pool
  · refine ⟨h.reads hprepared.node hsound, ?_, hpotential hprepared⟩
    exact h.includeItem hsound hsafe.pool hgood hadmitted hlast

lemma exec_onManager_modify_bind {β : Type} (f : MempoolManager Q → MempoolManager Q)
    (g : PUnit → ManagerM Q β) (s : MempoolNode Q) :
    exec (onManager (modify f) >>= g) s = exec (g ⟨⟩) { s with manager := f s.manager } := rfl

lemma keeps_rebuild (h : Preserved env Good Sound P) (peak : BlockRecord) :
    Keeps (StaysSafe Good Sound P) (rebuild env peak) := by
  rintro s ⟨hsound, hsafe⟩
  have hitems : ∀ item ∈ s.manager.mempool.spends.entries.map Prod.snd, Meets Good item := by
    intro item hitem
    obtain ⟨⟨k, item'⟩, hmem, rfl⟩ := List.mem_map.mp hitem
    exact h.good hsafe.pool (Dict.mem_entries.mp hmem)
  have hempty : Safe Good P { s.manager with
      peak := some peak, mempool := .new (mempoolMaxTotalCost env) } := ⟨h.new, hsafe.potential⟩
  have hreadd : Keeps (StaysSafe Good Sound P)
      ((s.manager.mempool.spends.entries.map Prod.snd).forM (readdItem env)) := by
    apply keeps_forM
    intro item hitem
    apply keeps_bind (keeps_addSpendbundle h (hitems item hitem) _ _)
    intro result
    split
    · rintro s' ⟨hsound', hsafe'⟩
      exact ⟨hsound', hsafe'.pool, hsafe'.potential⟩
    · exact keeps_pure _
  unfold rebuild
  rw [exec_get_bind, exec_onManager_modify_bind]
  rcases hrun : exec ((s.manager.mempool.spends.entries.map Prod.snd).forM (readdItem env))
    { s with manager := { s.manager with
        peak := some peak, mempool := .new (mempoolMaxTotalCost env) } } with ⟨e | u, s₂⟩
  · rw [exec_bind_of_error hrun]
    exact hreadd.rel hrun ⟨hsound, hempty⟩
  rw [exec_bind_of_ok hrun]
  obtain ⟨hsound₂, hsafe₂⟩ := hreadd.rel hrun ⟨hsound, hempty⟩
  have hretry : Keeps (StaysSafe Good Sound P)
      ((s₂.manager.potentialTxs.entries.map Prod.snd).foldlM (retryItem env) []) := by
    apply keeps_foldlM
    intro txsAdded item hitem
    obtain ⟨⟨k, item'⟩, hmem, rfl⟩ := List.mem_map.mp hitem
    apply keeps_bind (keeps_addSpendbundle h (hsafe₂.potential (Dict.mem_entries.mp hmem)) _ _)
    intro result
    exact keeps_pure _
  have hlast : Keeps (StaysSafe Good Sound P) (do
      let txsAdded ← (s₂.manager.potentialTxs.entries.map Prod.snd).foldlM (retryItem env) []
      let _ ← (← get).manager.mempool.getMinFeeRate env 100000
      return txsAdded) := by
    apply keeps_bind hretry
    intro txsAdded
    apply keeps_get_bind
    intro s'
    apply keeps_lift_bind
    intro rate
    exact keeps_pure _
  exact hlast _ ⟨hsound₂, hsafe₂.pool, fun hk => nomatch hk⟩

lemma keeps_newPeak (h : Preserved env Good Sound P) (peak : Option BlockRecord) :
    Keeps (StaysSafe Good Sound P) (newPeak env peak) := by
  unfold newPeak
  split
  · exact keeps_pure _
  split
  · exact keeps_pure _
  apply keeps_get_bind
  intro s
  split
  · exact keeps_pure _
  · split
    · exact keeps_pure _
    · exact keeps_rebuild h _

lemma Reached.safe (h : Preserved env Good Sound P) {s : MempoolManager Q}
    (hs : Reached env Good Sound s) : Safe Good P s := by
  induction hs with
  | start => exact ⟨h.new, fun hk => nomatch hk⟩
  | add node newSpend npc name validate program _ hsound hgood ih =>
    exact (keeps_addSpendbundle h hgood validate program ⟨node, _⟩ ⟨hsound, ih⟩).2
  | peak node peak _ hsound ih => exact (keeps_newPeak h peak ⟨node, _⟩ ⟨hsound, ih⟩).2
  | remove item _ hitem ih => exact ⟨h.remove ih.pool hitem, ih.potential⟩
  | evict cost _ ih => exact ⟨h.evict ih.pool, ih.potential⟩

section Sample

variable {env : MempoolEnv ℚ} {node : Node}
variable {Good : Submission} {Sound : Node → Prop} {bundle : SpendBundle} {name : Bytes32} {s : MempoolManager ℚ}

/-- Anyone may spend a coin with this puzzle. -/
def openPuzzle : SExp := .atom [1]

def openPuzzleHash : Bytes32 := openPuzzle.treeHash sampleHash

def sampleRunPuzzle (puzzle solution : SExp) : Option SExp := if puzzle = openPuzzle then some solution else none

def mempoolEnvOf (run : Bytes → SExp → Option (ℕ × SExp)) (mempoolBlockBuffer : ℕ) : MempoolEnv ℚ where
  toEnv := sampleEnv run
  runPuzzle := sampleRunPuzzle
  aggregate := fun _ => .ofNat 96 0
  perCost := fun fee cost => fee / cost
  mempoolBlockBuffer := mempoolBlockBuffer

/-- A run of a generator that quotes its spends. -/
def sampleRom (program : Bytes) (_ : SExp) : Option (ℕ × SExp) :=
  match SExp.fromBytes program with
  | some (.pair (.atom [1]) (.pair spends (.atom []))) =>
    (processCoinSolutions (mempoolEnvOf (fun _ _ => none) 0) spends).map fun out => (1000, .pair out (.atom []))
  | _ => none

def sampleMempoolEnv (mempoolBlockBuffer : ℕ) : MempoolEnv ℚ := mempoolEnvOf sampleRom mempoolBlockBuffer

lemma processCoinSolutions_congr {Q : Type} {env env' : MempoolEnv Q} (hrun : env.runPuzzle = env'.runPuzzle)
    (hhash : env.stdHash = env'.stdHash) (spends : SExp) :
    processCoinSolutions env spends = processCoinSolutions env' spends := by
  have hspend : processCoinSolution env = processCoinSolution env' := by
    funext spend
    unfold processCoinSolution
    rw [hrun, hhash]
  induction spends with
  | atom bs => rfl
  | pair spend spends _ ih => rw [processCoinSolutions, processCoinSolutions, hspend, ih]

lemma romLaws_sampleMempoolEnv (mempoolBlockBuffer : ℕ) : RomLaws (sampleMempoolEnv mempoolBlockBuffer) where
  quoted := by
    intro strict maxCost program args spends cost result hprogram hrun
    have hrun : (sampleRom program args).filter (fun r => r.1 ≤ maxCost) = some (cost, result) := hrun
    rw [Option.filter_eq_some_iff] at hrun
    have hrom := hrun.1
    unfold sampleRom at hrom
    rw [hprogram] at hrom
    obtain ⟨out, hout, heq⟩ := Option.map_eq_some_iff.mp hrom
    cases heq
    refine ⟨out, ?_, rfl⟩
    rw [← hout]
    refine processCoinSolutions_congr ?_ ?_ spends
    · rfl
    · rfl

def sampleProgram (buf : Bytes) : SerializedProgram :=
  match h : SExp.fromBytes buf with
  | some program => ⟨buf, program, h⟩
  | none => ⟨[0x80], .atom [], rfl⟩

def solutionOf (conditions : List ConditionWithArgs) : Bytes :=
  conditions.flatMap (fun c => [0xff, 0xff] ++ c.opcode.value ++
    c.vars.flatMap (fun arg => 0xff :: SExp.atomAsBin arg) ++ [0x80]) ++ [0x80]

def openCoin (tag : ℕ) (amount : ℕ) (hamount : amount < 2 ^ 64) : Coin :=
  ⟨.ofNat 32 tag, openPuzzleHash, amount, hamount⟩

def createOpenCoin (amount : ℕ) : ConditionWithArgs := ⟨.CREATE_COIN, [openPuzzleHash.toBytes, intToBytes amount]⟩

def openSpend (coin : Coin) (amount : ℕ) : CoinSolution :=
  ⟨coin, sampleProgram [1], sampleProgram (solutionOf [createOpenCoin amount])⟩

def bundleOf (coinSolutions : List CoinSolution) : SpendBundle := ⟨coinSolutions, .ofNat 96 0⟩

def samplePeak : BlockRecord where
  headerHash := .ofNat 32 7
  prevHash := .ofNat 32 6
  height := 5
  weight := 35
  poolPuzzleHash := samplePool
  farmerPuzzleHash := sampleFarmer
  prevTransactionBlockHeight := 4
  timestamp := some 1650000000
  prevTransactionBlockHash := some (.ofNat 32 6)
  fees := some 0
  rewardClaimsIncorporated := some []
  subEpochSummaryIncluded := none
  slotData := []

def nodeWith (coins : List Coin) : Node :=
  { Node.new 100 100 with db := ⟨coins.foldl (fun d coin =>
      d.set (coin.name sampleHash) ⟨coin, 1, 0, false, false, 1640000000⟩) .empty, .empty, .empty⟩ }

def submit (env : MempoolEnv ℚ) (node : Node) (bundle : SpendBundle) (name : Bytes32) (s : MempoolManager ℚ) :
    Except PyError AddResult × MempoolNode ℚ :=
  exec (addSpendbundle env bundle (preValidateSpendbundle env bundle) name true none) ⟨node, s⟩

lemma get?_nodeWith {coins : List Coin} {k : Bytes32} {r : CoinRecord}
    (h : (nodeWith coins).db.coinRecord.get? k = some r) : r.coin ∈ coins ∧ r.coin.name sampleHash = k := by
  have hstep : ∀ (d : Dict Bytes32 CoinRecord) (coin : Coin),
      (d.set (coin.name sampleHash) ⟨coin, 1, 0, false, false, 1640000000⟩).get? k = some r →
        (r.coin = coin ∧ coin.name sampleHash = k) ∨ d.get? k = some r := by
    intro d coin hd
    rw [Dict.get?_set] at hd
    split at hd
    · rename_i hk
      cases hd
      exact .inl ⟨rfl, hk.symm⟩
    · exact .inr hd
  rcases Dict.exists_of_foldl (Q := fun d : Dict Bytes32 CoinRecord => d.get? k = some r) hstep h with
    ⟨coin, hmem, hcoin, hname⟩ | hc
  · exact hcoin ▸ ⟨hmem, hname⟩
  · cases hc

def atPeak (env : MempoolEnv ℚ) (node : Node) : MempoolManager ℚ :=
  (exec (newPeak env (some samplePeak)) ⟨node, .new env⟩).2.manager

lemma reached_atPeak (hnode : Sound node) : Reached env Good Sound (atPeak env node) :=
  .peak node _ .start hnode

lemma reached_submit (hs : Reached env Good Sound s)
    (hnode : Sound node) (hgood : Good bundle (preValidateSpendbundle env bundle) name) :
    Reached env Good Sound (submit env node bundle name s).2.manager :=
  .add node bundle _ name true none hs hnode hgood

lemma exec_of_submit {npcResult : NPCResult} {result : AddResult}
    (hnpc : npcResult = preValidateSpendbundle env bundle) (h : (submit env node bundle name s).1 = .ok result) :
    exec (addSpendbundle env bundle npcResult name true none) ⟨node, s⟩ =
      (.ok result, (submit env node bundle name s).2) := by
  subst hnpc
  exact exec_eq_of_fst h

def sampleCoin : Coin := openCoin 100 300000000 (by decide)

def otherCoin : Coin := openCoin 101 2000000000 (by decide)

def sampleBundle : SpendBundle := bundleOf [openSpend sampleCoin 100000000]

def sampleChild : Coin := ⟨sampleCoin.name sampleHash, openPuzzleHash, 100000000, by decide⟩

def replacingBundle : SpendBundle := bundleOf [openSpend sampleCoin 100000000, openSpend otherCoin 0]

def sampleNode : Node := nodeWith [sampleCoin, otherCoin]

def sampleManager : MempoolManager ℚ :=
  (submit (sampleMempoolEnv 10) sampleNode sampleBundle (.ofNat 32 1)
    (atPeak (sampleMempoolEnv 10) sampleNode)).2.manager

def generousBundle : SpendBundle := bundleOf [openSpend otherCoin 0]

lemma zero_lt_amount : 0 < 2 ^ 64 := by decide

def otherChild : Coin := ⟨otherCoin.name sampleHash, openPuzzleHash, 0, zero_lt_amount⟩

def twoItemManager : MempoolManager ℚ :=
  (submit (sampleMempoolEnv 10) sampleNode generousBundle (.ofNat 32 2) sampleManager).2.manager

lemma preValidate_sampleBundles : ∀ e ∈ [(sampleBundle, sampleChild), (generousBundle, otherChild)],
    let npcList := (preValidateSpendbundle (sampleMempoolEnv 10) e.1).npcList
    e.1.removals.map (Coin.name sampleHash) = npcList.map NPC.coinName ∧
      e.1.additions (sampleMempoolEnv 10) = .ok [e.2] ∧ additionsForNpc npcList = .ok [e.2] := by
  decide +kernel

end Sample

end SectorChain.Proofs
