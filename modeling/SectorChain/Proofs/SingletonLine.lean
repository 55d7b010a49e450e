import SectorChain.Lib.Line
import SectorChain.Proofs.SpendHistory
import SectorChain.Wallet.Puzzles.Singleton

/-!
# Singletons are unique

Each singleton coin creates one coin with an odd amount.
-/

namespace SectorChain.Proofs

open Lib Clvm List Option
open LedgerSpend (createdCoin? outputs)

variable {Q : Type}

section TopLayer

variable {stdHash : Bytes → Bytes32} {runPuzzle : SExp → SExp → Option SExp}

/-- What the top layer has checked and computed. -/
structure TopLayerRun (stdHash : Bytes → Bytes32) (runPuzzle : SExp → SExp → Option SExp)
    (struct inner solution out : SExp) where
  lineageProof : SExp
  innerSolution : SExp
  myAmount : Bytes
  fullPuzhash : Bytes
  myId : Bytes
  conditions : SExp
  morphed : SExp
  lineageProof_eq : nth? 0 solution = some lineageProof
  myAmount_eq : nthAtom? 1 solution = some myAmount
  innerSolution_eq : nth? 2 solution = some innerSolution
  odd : intFromBytes myAmount % 2 = 1
  fullPuzhash_eq : calculateFullPuzzleHash stdHash struct (sha256tree stdHash inner) = some fullPuzhash
  myId_eq : myIdOfLineage stdHash struct lineageProof fullPuzhash myAmount = some myId
  conditions_eq : runPuzzle inner (.pair (truthDataToTruthStruct (.atom myId) (.atom fullPuzhash)
    (.atom (sha256tree stdHash inner)) (.atom myAmount) lineageProof struct) innerSolution) = some conditions
  morphed_eq : checkAndMorphConditionsForSingleton stdHash struct conditions false = some morphed
  out_eq : out = .pair (.ofList [opcode .ASSERT_MY_COIN_ID, .atom myId]) morphed

lemma singletonTopLayer_eq_some {struct inner sol out : SExp}
    (h : singletonTopLayer stdHash runPuzzle struct inner sol = some out) :
    Nonempty (TopLayerRun stdHash runPuzzle struct inner sol out) := by
  obtain ⟨lineage, hlineage, h⟩ := bind_eq_some_iff.mp h
  obtain ⟨myAmount, hamount, h⟩ := bind_eq_some_iff.mp h
  obtain ⟨innerSolution, hinner, h⟩ := bind_eq_some_iff.mp h
  split at h
  · rename_i hodd
    obtain ⟨fullPuzhash, hfull, h⟩ := bind_eq_some_iff.mp h
    obtain ⟨myId, hid, h⟩ := bind_eq_some_iff.mp h
    obtain ⟨conds, hrun, h⟩ := bind_eq_some_iff.mp h
    obtain ⟨morphed, hmorphed, h⟩ := bind_eq_some_iff.mp h
    exact ⟨⟨lineage, innerSolution, myAmount, fullPuzhash, myId, conds, morphed, hlineage, hamount,
      hinner, hodd, hfull, hid, hrun, hmorphed, (Option.some.inj h).symm⟩⟩
  · cases h

lemma myIdOfLineage_eq_some {modHash launcherId launcherHash fullPuzhash myAmount myId : Bytes} {lineage : SExp}
    {struct : SExp} (hstruct : struct = .pair (.atom modHash) (.pair (.atom launcherId) (.atom launcherHash)))
    (h : myIdOfLineage stdHash struct lineage fullPuzhash myAmount = some myId) :
    (∃ parentParent parentInner parentAmount, nthAtom? 0 lineage = some parentParent ∧
      nthAtom? 1 lineage = some parentInner ∧ nthAtom? 2 lineage = some parentAmount ∧
      myId = sha256 stdHash [sha256 stdHash [parentParent,
        puzzleHashOfCurriedFunction stdHash modHash [parentInner, sha256tree stdHash struct], parentAmount],
        fullPuzhash, myAmount]) ∨
    (∃ parentInfo amount, nthAtom? 0 lineage = some parentInfo ∧ nthAtom? 1 lineage = some amount ∧
      nthAtom? 2 lineage = none ∧ launcherId = sha256 stdHash [parentInfo, launcherHash, amount] ∧
      myId = sha256 stdHash [launcherId, fullPuzhash, myAmount]) := by
  obtain ⟨tail, htail, h⟩ := bind_eq_some_iff.mp h
  obtain ⟨tail', htail', h⟩ := bind_eq_some_iff.mp h
  split at h
  · obtain ⟨parentParent, hparent, h⟩ := bind_eq_some_iff.mp h
    obtain ⟨parentInner, hpuzzle, h⟩ := bind_eq_some_iff.mp h
    obtain ⟨parentAmount, hamount, h⟩ := bind_eq_some_iff.mp h
    subst hstruct
    cases h
    exact .inl ⟨parentParent, parentInner, parentAmount, hparent, hpuzzle, hamount, rfl⟩
  rename_i heve
  have hthird : nthAtom? 2 lineage = none := by
    have hnil : tail' = .atom [] := by simpa [truthy] using heve
    unfold nthAtom?
    rw [nth?, htail, bind_some, nth?, htail', hnil]
    rfl
  obtain ⟨lid, hlid, h⟩ := bind_eq_some_iff.mp h
  obtain ⟨t₁, ht₁, h⟩ := bind_eq_some_iff.mp h
  obtain ⟨t₂, ht₂, h⟩ := bind_eq_some_iff.mp h
  obtain ⟨lph, hlph, h⟩ := bind_eq_some_iff.mp h
  obtain ⟨parentInfo, hparent, h⟩ := bind_eq_some_iff.mp h
  obtain ⟨amount, hamount, h⟩ := bind_eq_some_iff.mp h
  subst hstruct
  cases hlid
  cases ht₁
  cases ht₂
  cases hlph
  split at h
  · rename_i hlauncher
    exact .inr ⟨parentInfo, amount, hparent, hamount, hthird, hlauncher, (Option.some.inj h).symm⟩
  · cases h

end TopLayer

def oddCoins (name : Bytes32) (conditions : List SExp) : List Coin :=
  (conditions.filterMap (createdCoin? name)).filter fun c => c.amount % 2 = 1

/-- A condition with the escape value. -/
def Escapes (condition : SExp) : Prop := createdCoinValueOr0 condition = some (.atom ESCAPE_VALUE)

lemma createdCoinValueOr0_of_created {name : Bytes32} {condition : SExp} {c : Coin}
    (h : createdCoin? name condition = some c) :
    ∃ amount, createdCoinValueOr0 condition = some (.atom amount) ∧ intFromBytes amount = c.amount := by
  obtain ⟨-, amount, rest, rfl, hamount⟩ := createdCoin?_eq_some h
  exact ⟨amount, rfl, hamount⟩

lemma oddConsM113_eq_some {value : SExp} {odd m113 : Bool} (h : oddConsM113 value = some (odd, m113)) :
    ∃ amount, value = .atom amount ∧ odd = decide (intFromBytes amount % 2 = 1) ∧
      m113 = decide (amount = ESCAPE_VALUE) := by
  obtain ⟨amount, hamount, h⟩ := bind_eq_some_iff.mp h
  cases h
  cases value with
  | atom bs =>
    cases hamount
    exact ⟨_, rfl, rfl, rfl⟩
  | pair l r => cases hamount

lemma oddCoins_cons (name : Bytes32) (condition : SExp) (conds : List SExp) :
    oddCoins name (condition :: conds) = oddCoins name conds ∨
      ∃ c, oddCoins name (condition :: conds) = c :: oddCoins name conds := by
  unfold oddCoins
  rw [filterMap_cons]
  cases createdCoin? name condition with
  | none => exact .inl rfl
  | some c =>
    rw [filter_cons]
    split
    · exact .inr ⟨c, rfl⟩
    · exact .inl rfl

lemma not_escapes {condition : SExp} {amount : Bytes} (hvalue : createdCoinValueOr0 condition = some (.atom amount))
    (hescape : amount ≠ ESCAPE_VALUE) : ¬ Escapes condition := by
  intro hesc
  rw [Escapes, hvalue] at hesc
  cases hesc
  exact hescape rfl

lemma oddCoins_morphed {stdHash : Bytes → Bytes32} {struct conds morphed : SExp} {found : Bool} (name : Bytes32)
    (h : checkAndMorphConditionsForSingleton stdHash struct conds found = some morphed) :
    (found = true → oddCoins name (listElements morphed) = [] ∧ ∀ c ∈ listElements conds, ¬ Escapes c) ∧
      (oddCoins name (listElements morphed) = [] ∨
        (∃ c, oddCoins name (listElements morphed) = [c]) ∧ ∀ c ∈ listElements conds, ¬ Escapes c) := by
  induction conds generalizing found morphed with
  | atom bs =>
    unfold checkAndMorphConditionsForSingleton at h
    split at h
    · cases h
      exact ⟨fun _ => ⟨rfl, forall_mem_nil _⟩, .inl rfl⟩
    · cases h
  | pair condition conds _ ih =>
    obtain ⟨value, hvalue, h⟩ := bind_eq_some_iff.mp h
    obtain ⟨⟨odd, m113⟩, hodd, h⟩ := bind_eq_some_iff.mp h
    obtain ⟨amount, rfl, rfl, rfl⟩ := oddConsM113_eq_some hodd
    dsimp only at h
    split at h
    · cases h
    rename_i hnotBoth
    by_cases hoddAmount : intFromBytes amount % 2 = 1
    · -- the odd output, so the rest has none
      have hfound : found = false := by simpa [hoddAmount] using hnotBoth
      simp only [hoddAmount, decide_true, Bool.true_or, if_true] at h
      obtain ⟨first, hfirst, h⟩ := bind_eq_some_iff.mp h
      obtain ⟨rest, hrest, h⟩ := bind_eq_some_iff.mp h
      obtain ⟨hnone, hstay⟩ := (ih hrest).1 rfl
      refine ⟨fun htrue => (by rw [hfound] at htrue; cases htrue), ?_⟩
      by_cases hescape : amount = ESCAPE_VALUE
      · simp only [hescape, decide_true, if_true] at h
        cases h
        exact .inl hnone
      simp only [hescape, decide_false] at h
      cases h
      have hnot := not_escapes hvalue hescape
      rcases oddCoins_cons name first (listElements rest) with hsame | ⟨c, hc⟩
      · exact .inl (hsame.trans hnone)
      · exact .inr ⟨⟨c, hc.trans (by rw [hnone])⟩, forall_mem_cons.mpr ⟨hnot, hstay⟩⟩
    · -- an even output, or another condition
      simp only [hoddAmount, decide_false, Bool.false_or] at h
      obtain ⟨rest, hrest, h⟩ := bind_eq_some_iff.mp h
      have hescape : amount ≠ ESCAPE_VALUE := by
        rintro rfl
        exact hoddAmount (by decide)
      simp only [hescape, decide_false] at h
      cases h
      have hnot := not_escapes hvalue hescape
      have hsame : oddCoins name (condition :: listElements rest) = oddCoins name (listElements rest) := by
        unfold oddCoins
        rw [filterMap_cons]
        cases hcreated : createdCoin? name condition with
        | none => rfl
        | some c =>
          obtain ⟨amount', hvalue', hamount⟩ := createdCoinValueOr0_of_created hcreated
          rw [hvalue] at hvalue'
          cases hvalue'
          have heven : ¬ c.amount % 2 = 1 := by omega
          simp [heven]
      have ih := ih hrest
      change (found = true → oddCoins name (condition :: listElements rest) = [] ∧ _) ∧
        (oddCoins name (condition :: listElements rest) = [] ∨
          (∃ c, oddCoins name (condition :: listElements rest) = [c]) ∧ _)
      rw [hsame]
      refine ⟨fun htrue => ?_, ?_⟩
      · exact ⟨(ih.1 htrue).1, forall_mem_cons.mpr ⟨hnot, (ih.1 htrue).2⟩⟩
      · exact ih.2.imp id fun hone => ⟨hone.1, forall_mem_cons.mpr ⟨hnot, hone.2⟩⟩

/-- The loaded programs do what their source says. -/
structure SingletonLaws (env : MempoolEnv Q) (mods : SingletonMods) : Prop where
  topLayer : ∀ struct inner solution, env.runPuzzle (curry mods.singletonMod [struct, inner]) solution =
    singletonTopLayer env.stdHash env.runPuzzle struct inner solution
  launcher : ∀ solution, env.runPuzzle mods.singletonLauncher solution = singletonLauncher env.stdHash solution

/-- What a singleton hashes to check its lineage. -/
def lineageTuples (stdHash : Bytes → Bytes32) (mods : SingletonMods) (launcherId : Bytes32) (inner solution : SExp) :
    List (List Bytes) :=
  let modHash := sha256tree stdHash mods.singletonMod
  let structHash := sha256tree stdHash (singletonStruct stdHash mods launcherId)
  let fullPuzhash := puzzleHashOfCurriedFunction stdHash modHash [sha256tree stdHash inner, structHash]
  Option.getD (do
    let lineageProof ← nth? 0 solution
    let myAmount ← nthAtom? 1 solution
    let first ← nthAtom? 0 lineageProof
    let second ← nthAtom? 1 lineageProof
    match nthAtom? 2 lineageProof with
    | some third =>
      let parent := [first, puzzleHashOfCurriedFunction stdHash modHash [second, structHash], third]
      return parent :: [sha256 stdHash parent, fullPuzhash, myAmount] :: curryTuples stdHash modHash [structHash, second]
    | none =>
      return [[first, sha256tree stdHash mods.singletonLauncher, second], [launcherId.toBytes, fullPuzhash, myAmount]])
    []

/-- A spend with the singleton puzzle of a launcher. -/
def SingletonSpend (env : MempoolEnv Q) (mods : SingletonMods) (launcherId : Bytes32) (inner : SExp)
    (s : LedgerSpend) : Prop :=
  s.puzzle = puzzleForSingleton env.stdHash mods launcherId inner

/-- There are no collisions among what the history and its singletons hash. -/
structure SingletonHashes (env : MempoolEnv Q) (mods : SingletonMods) (launcherId : Bytes32) (T : Set (List Bytes))
    (blocks : List LedgerBlock) : Prop extends HashLaws env T blocks where
  launcher : Hashed env.stdHash T mods.singletonLauncher
  lineage : ∀ s ∈ allSpends blocks, ∀ inner, SingletonSpend env mods launcherId inner s →
    ∀ t ∈ lineageTuples env.stdHash mods launcherId inner s.solution, t ∈ T

def singletonHash (env : MempoolEnv Q) (mods : SingletonMods) (launcherId : Bytes32) (innerHash : Bytes) : Bytes :=
  puzzleHashOfCurriedFunction env.stdHash (sha256tree env.stdHash mods.singletonMod)
    [innerHash, sha256tree env.stdHash (singletonStruct env.stdHash mods launcherId)]

/-- Where a singleton comes from, according to its lineage proof. -/
inductive Lineage (env : MempoolEnv Q) (mods : SingletonMods) (launcherId : Bytes32) (T : Set (List Bytes))
    (s : LedgerSpend) : Prop where
  | singleton (parentParent parentInner parentAmount : Bytes) :
      [parentParent, singletonHash env mods launcherId parentInner, parentAmount] ∈ T →
      (∀ t ∈ curryTuples env.stdHash (sha256tree env.stdHash mods.singletonMod)
        [sha256tree env.stdHash (singletonStruct env.stdHash mods launcherId), parentInner], t ∈ T) →
      s.coin.parentCoinInfo.toBytes =
        sha256 env.stdHash [parentParent, singletonHash env mods launcherId parentInner, parentAmount] →
      Lineage env mods launcherId T s
  | launcher (parentInfo amount : Bytes) :
      [parentInfo, sha256tree env.stdHash mods.singletonLauncher, amount] ∈ T →
      launcherId.toBytes = sha256 env.stdHash
        [parentInfo, sha256tree env.stdHash mods.singletonLauncher, amount] →
      s.coin.parentCoinInfo = launcherId → Lineage env mods launcherId T s

section History

variable {env : MempoolEnv Q} {mods : SingletonMods} {launcherId : Bytes32} {T : Set (List Bytes)}
  {blocks : List LedgerBlock} {s : LedgerSpend} {inner : SExp}
variable (hlaws : SingletonLaws env mods) (hhistory : History env blocks)
  (hhashes : SingletonHashes env mods launcherId T blocks) (hs : s ∈ allSpends blocks)
  (hinner : SingletonSpend env mods launcherId inner s)
  (run : TopLayerRun env.stdHash env.runPuzzle (singletonStruct env.stdHash mods launcherId) inner s.solution
    s.conditions) (hid : run.myId = (s.coin.name env.stdHash).toBytes)

include hlaws hhistory hs hinner in
lemma SingletonSpend.exists_run : ∃ run : TopLayerRun env.stdHash env.runPuzzle
    (singletonStruct env.stdHash mods launcherId) inner s.solution s.conditions,
      run.myId = (s.coin.name env.stdHash).toBytes := by
  obtain ⟨b, hb, hsb⟩ := mem_allSpends.mp hs
  obtain ⟨safeMode, hexecutes⟩ := hhistory.executes hs
  have hrun := hexecutes.run
  rw [hinner, puzzleForSingleton, hlaws.topLayer] at hrun
  obtain ⟨run⟩ := singletonTopLayer_eq_some hrun
  have hcond : .pair (opcode .ASSERT_MY_COIN_ID) (.pair (.atom run.myId) (.atom [])) ∈ s.outputs := by
    rw [outputs, congrArg listElements run.out_eq]
    exact mem_cons_self
  exact ⟨run, (hhistory.valid b hb).myCoinId hsb hcond⟩

include hhashes hs hinner hid in
lemma SingletonSpend.lineage :
    run.fullPuzhash = s.coin.puzzleHash.toBytes ∧ run.myAmount = intToBytes s.coin.amount ∧
      Lineage env mods launcherId T s := by
  have hfull : run.fullPuzhash = singletonHash env mods launcherId (sha256tree env.stdHash inner) :=
    (Option.some.inj run.fullPuzhash_eq).symm
  have htuples := hhashes.lineage s hs inner hinner
  unfold lineageTuples at htuples
  rw [run.lineageProof_eq, run.myAmount_eq] at htuples
  have hmine : ∀ {parent}, [parent, run.fullPuzhash, run.myAmount] ∈ T →
      run.myId = sha256 env.stdHash [parent, run.fullPuzhash, run.myAmount] →
      s.coin.parentCoinInfo.toBytes = parent ∧ s.coin.puzzleHash.toBytes = run.fullPuzhash ∧
        intToBytes s.coin.amount = run.myAmount := by
    intro parent hmem hmyId
    have htuple := hhashes.coinTuple_eq hs hmem (hid.symm.trans hmyId)
    simp only [coinTuple, List.cons.injEq, and_true] at htuple
    exact htuple
  rcases myIdOfLineage_eq_some rfl run.myId_eq with
    ⟨parentParent, parentInner, parentAmount, h₀, h₁, h₂, hmyId⟩ | ⟨parentInfo, amount, h₀, h₁, h₂, hlauncher, hmyId⟩
  · simp only [bind_eq_bind, bind_some, h₀, h₁, h₂, Option.pure_def, getD_some, forall_mem_cons] at htuples
    obtain ⟨hparent, hmem, hcurry⟩ := htuples
    obtain ⟨hid, hpuzzle, hamount⟩ := hmine (hfull ▸ hmem) hmyId
    exact ⟨hpuzzle.symm, hamount.symm, .singleton parentParent parentInner parentAmount hparent hcurry hid⟩
  · simp only [bind_eq_bind, bind_some, h₀, h₁, h₂, Option.pure_def, getD_some, forall_mem_cons] at htuples
    obtain ⟨hparent, hmem, -⟩ := htuples
    obtain ⟨hid, hpuzzle, hamount⟩ := hmine (hfull ▸ hmem) hmyId
    exact ⟨hpuzzle.symm, hamount.symm, .launcher parentInfo amount hparent hlauncher (SizedBytes.toBytes_injective hid)⟩

include hhashes hs hinner hid in
lemma SingletonSpend.odd : s.coin.amount % 2 = 1 := by
  have hodd := run.odd
  rw [(hinner.lineage hhashes hs run hid).2.1,
    show intFromBytes (intToBytes s.coin.amount) = s.coin.amount from beInt_intToBytes _] at hodd
  omega

lemma oddCoins_run {name : Bytes32} : oddCoins name s.outputs = oddCoins name (listElements run.morphed) := by
  rw [outputs, congrArg listElements run.out_eq]
  rfl

include hhistory hhashes hs hinner in
lemma exists_singleton_parent {parentParent parentInner parentAmount : Bytes}
    (htuple : [parentParent, singletonHash env mods launcherId parentInner, parentAmount] ∈ T)
    (hcurry : ∀ t ∈ curryTuples env.stdHash (sha256tree env.stdHash mods.singletonMod)
      [sha256tree env.stdHash (singletonStruct env.stdHash mods launcherId), parentInner], t ∈ T)
    (hparent : s.coin.parentCoinInfo.toBytes =
      sha256 env.stdHash [parentParent, singletonHash env mods launcherId parentInner, parentAmount]) :
    ∃ p ∈ allSpends blocks, s.coin ∈ p.created ∧ ∃ inner', SingletonSpend env mods launcherId inner' p := by
  obtain ⟨p, hp, hcreated, -, hcoin⟩ := hhashes.exists_parent hhistory hs htuple hparent
  refine ⟨p, hp, hcreated, ?_⟩
  simp only [coinTuple, List.cons.injEq, and_true] at hcoin
  obtain ⟨safeMode, hexecutes⟩ := hhistory.executes hp
  have hpuzzle : sha256tree env.stdHash p.puzzle = singletonHash env mods launcherId parentInner := by
    rw [← hcoin.2.1, hexecutes.puzzleHash]
    rfl
  obtain ⟨program, args, hcurried, hprogram, hargs, hmod, hmap⟩ :=
    eq_curry_of_hash hhashes.injective (hhashes.puzzles p hp) hcurry hpuzzle
  -- the program and the struct are those of the child
  have hmine := hhashes.puzzles s hs
  rw [hinner] at hmine
  have hmod' : program = mods.singletonMod := eq_of_sha256tree hhashes.injective hprogram hmine.right.left.right hmod
  simp only [reverse_cons, reverse_nil, nil_append, cons_append, map_eq_cons_iff, map_eq_nil_iff] at hmap
  obtain ⟨struct', _, rfl, hstruct, inner', _, rfl, -, rfl⟩ := hmap
  have hstruct' : struct' = singletonStruct env.stdHash mods launcherId :=
    eq_of_sha256tree hhashes.injective (hargs struct' mem_cons_self)
      hmine.right.right.left.right.left.right hstruct
  refine ⟨inner', ?_⟩
  rw [SingletonSpend, hcurried, hmod', hstruct', puzzleForSingleton]

include hlaws hhistory hs in
lemma created_launcher (hpuzzle : s.puzzle = mods.singletonLauncher) {c : Coin} (hc : c ∈ s.created) :
    s.created = [c] := by
  obtain ⟨safeMode, hexecutes⟩ := hhistory.executes hs
  have hrun := hexecutes.run
  rw [hpuzzle, hlaws.launcher] at hrun
  obtain ⟨puzzleHash, -, hrun⟩ := bind_eq_some_iff.mp hrun
  obtain ⟨amount, -, hrun⟩ := bind_eq_some_iff.mp hrun
  obtain ⟨keyValueList, -, hrun⟩ := bind_eq_some_iff.mp hrun
  have hcreated : s.created = (createdCoin? s.npc.coinName
      (.ofList [opcode .CREATE_COIN, puzzleHash, amount])).toList := by
    rw [LedgerSpend.created, outputs, ← Option.some.inj hrun, listElements_ofList, filterMap_cons]
    cases createdCoin? s.npc.coinName (.ofList [opcode .CREATE_COIN, puzzleHash, amount]) with
    | none => rfl
    | some c' => rfl
  rw [hcreated, Option.mem_toList] at hc
  rw [hcreated, Option.mem_def.mp hc]
  rfl

def oddCreated (s : LedgerSpend) : List Coin := s.created.filter fun c => c.amount % 2 = 1

/-- The conditions of the inner puzzle, which gets the truths about the coin. -/
def innerConditions (env : MempoolEnv Q) (mods : SingletonMods) (launcherId : Bytes32) (inner : SExp)
    (s : LedgerSpend) : Option SExp := do
  let lineageProof ← nth? 0 s.solution
  let innerSolution ← nth? 2 s.solution
  env.runPuzzle inner (.pair (truthDataToTruthStruct (.atom (s.coin.name env.stdHash).toBytes)
    (.atom s.coin.puzzleHash.toBytes) (.atom (sha256tree env.stdHash inner)) (.atom (intToBytes s.coin.amount))
    lineageProof (singletonStruct env.stdHash mods launcherId)) innerSolution)

include hhashes hs hinner hid in
lemma conditions_run : innerConditions env mods launcherId inner s = some run.conditions := by
  obtain ⟨hfull, hamount, -⟩ := hinner.lineage hhashes hs run hid
  unfold innerConditions
  rw [run.lineageProof_eq, run.innerSolution_eq, ← hid, ← hfull, ← hamount]
  exact run.conditions_eq

/-- The spend ends the singleton: its inner puzzle returns an output of `-113`. -/
def Melts (env : MempoolEnv Q) (mods : SingletonMods) (launcherId : Bytes32) (s : LedgerSpend) : Prop :=
  ∃ inner conditions, SingletonSpend env mods launcherId inner s ∧
    innerConditions env mods launcherId inner s = some conditions ∧ ∃ c ∈ listElements conditions, Escapes c

include hlaws hhistory hhashes hs hinner

lemma SingletonSpend.oddCreated_cases : oddCreated s = [] ∨ (∃ c, oddCreated s = [c]) ∧
      ∀ conds, innerConditions env mods launcherId inner s = some conds → ∀ c ∈ listElements conds, ¬ Escapes c := by
  obtain ⟨run, hid⟩ := hinner.exists_run hlaws hhistory hs
  have hodd : oddCreated s = oddCoins s.npc.coinName (listElements run.morphed) := oddCoins_run run
  rw [hodd]
  refine (oddCoins_morphed s.npc.coinName run.morphed_eq).2.imp id fun hone => ⟨hone.1, ?_⟩
  intro conds hconditions
  rw [conditions_run hhashes hs hinner run hid] at hconditions
  cases hconditions
  exact hone.2

lemma SingletonSpend.predecessor :
    (∃ p ∈ allSpends blocks, p.coin.name env.stdHash = launcherId ∧ p.created = [s.coin]) ∨
      ∃ p ∈ allSpends blocks, (∃ inner', SingletonSpend env mods launcherId inner' p) ∧ oddCreated p = [s.coin] := by
  obtain ⟨run, hid⟩ := hinner.exists_run hlaws hhistory hs
  cases (hinner.lineage hhashes hs run hid).2.2 with
  | singleton parentParent parentInner parentAmount htuple hcurry hparent =>
    obtain ⟨p, hp, hcreated, inner', hinner'⟩ :=
      exists_singleton_parent hhistory hhashes hs hinner htuple hcurry hparent
    refine .inr ⟨p, hp, ⟨inner', hinner'⟩, ?_⟩
    have hmem : s.coin ∈ oddCreated p := mem_filter.mpr ⟨hcreated, decide_eq_true (hinner.odd hhashes hs run hid)⟩
    rcases hinner'.oddCreated_cases hlaws hhistory hhashes hp with hnone | ⟨⟨c, hc⟩, -⟩
    · rw [hnone] at hmem
      cases hmem
    · rw [hc] at hmem ⊢
      rw [mem_singleton.mp hmem]
  | launcher parentInfo amount htuple hlauncher hparent =>
    obtain ⟨p, hp, hcreated, hname, hcoin⟩ := hhashes.exists_parent hhistory hs htuple (by rw [hparent, hlauncher])
    refine .inl ⟨p, hp, hname.trans hparent, ?_⟩
    simp only [coinTuple, List.cons.injEq, and_true] at hcoin
    obtain ⟨safeMode, hexecutes⟩ := hhistory.executes hp
    have hpuzzle : p.puzzle = mods.singletonLauncher := by
      refine eq_of_sha256tree hhashes.injective (hhashes.puzzles p hp) hhashes.launcher ?_
      rw [← hcoin.2.1, hexecutes.puzzleHash]
      rfl
    exact created_launcher hlaws hhistory hp hpuzzle hcreated

omit hinner in
lemma Melts.oddCreated_eq (h : Melts env mods launcherId s) : oddCreated s = [] := by
  obtain ⟨inner, conds, hinner, hconditions, c, hc, hescape⟩ := h
  rcases hinner.oddCreated_cases hlaws hhistory hhashes hs with hnone | ⟨-, hstay⟩
  · exact hnone
  · exact absurd hescape (hstay conds hconditions c hc)

end History

def SpendsFirst (env : MempoolEnv Q) (launcherId : Bytes32) (blocks : List LedgerBlock) (s : LedgerSpend) : Prop :=
  ∃ p ∈ allSpends blocks, p.coin.name env.stdHash = launcherId ∧ p.created = [s.coin]

/-- The second spend spends the only odd child of the first. -/
def SpendsOddChild (s t : LedgerSpend) : Prop := oddCreated s = [t.coin]

lemma SpendsOddChild.parent {s t : LedgerSpend} (h : SpendsOddChild s t) :
    t.coin.parentCoinInfo = s.npc.coinName := by
  have hmem : t.coin ∈ oddCreated s := by
    rw [h]
    exact mem_singleton_self _
  exact LedgerSpend.parent_of_created (mem_filter.mp hmem).1

lemma SpendsFirst.coin_unique {env : MempoolEnv Q} {launcherId : Bytes32} {T : Set (List Bytes)} {blocks : List LedgerBlock}
    (hhistory : History env blocks) (hhashes : HashLaws env T blocks) {s t : LedgerSpend}
    (hs : SpendsFirst env launcherId blocks s) (ht : SpendsFirst env launcherId blocks t) : s.coin = t.coin := by
  obtain ⟨p, hp, hpname, hpcreated⟩ := hs
  obtain ⟨q, hq, hqname, hqcreated⟩ := ht
  obtain rfl := hhashes.eq_of_name hhistory hp hq (hpname.trans hqname.symm)
  rw [hpcreated] at hqcreated
  exact (List.cons.inj hqcreated).1

/-- The spends with the singleton puzzle of a launcher form one line, and one that ends it is the last. -/
theorem singleton_line {env : MempoolEnv Q} {mods : SingletonMods} {launcherId : Bytes32} {T : Set (List Bytes)}
    {blocks : List LedgerBlock} (hlaws : SingletonLaws env mods) (hhistory : History env blocks)
    (hhashes : SingletonHashes env mods launcherId T blocks) :
    ∃ line : List LedgerSpend, line.Nodup ∧
      (∀ s, s ∈ line ↔ s ∈ allSpends blocks ∧ ∃ inner, SingletonSpend env mods launcherId inner s) ∧
      (∀ s ∈ line.head?, SpendsFirst env launcherId blocks s) ∧ line.IsChain SpendsOddChild ∧
      ∀ s ∈ line, Melts env mods launcherId s → line.getLast? = some s := by
  classical
  let singletons := (allSpends blocks).filter fun s => ∃ inner, SingletonSpend env mods launcherId inner s
  have hmem : ∀ {s}, s ∈ singletons ↔ s ∈ allSpends blocks ∧ ∃ inner, SingletonSpend env mods launcherId inner s := by
    intro s
    simp [singletons]
  have heq : ∀ {s t}, s ∈ singletons → t ∈ singletons → s.coin = t.coin → s = t := fun hs ht hcoin =>
    hhistory.eq_of_coin (hmem.mp hs).1 (hmem.mp ht).1 hcoin
  obtain ⟨rank, hacyclic⟩ := hhashes.acyclic
  have hrank : ∀ s ∈ singletons, ∀ t ∈ singletons, SpendsOddChild s t →
      rank (s.coin.name env.stdHash) < rank (t.coin.name env.stdHash) := by
    intro s hs t ht hnext
    obtain ⟨safeMode, hexecutes⟩ := hhistory.executes (hmem.mp hs).1
    rw [← hexecutes.coinName, ← hnext.parent]
    exact hacyclic t (hmem.mp ht).1
  have hroot : ∀ s ∈ singletons, ∀ t ∈ singletons, SpendsFirst env launcherId blocks s →
      SpendsFirst env launcherId blocks t → s = t := fun s hs t ht hfirst hfirst' =>
    heq hs ht (hfirst.coin_unique hhistory hhashes.toHashLaws hfirst')
  have hnext : ∀ s ∈ singletons, ∀ t ∈ singletons, ∀ u ∈ singletons, SpendsOddChild s t → SpendsOddChild s u →
      t = u := by
    intro s hs t ht u hu hst hsu
    rw [SpendsOddChild, hst] at hsu
    exact heq ht hu (List.cons.inj hsu).1
  have hprev : ∀ t ∈ singletons, SpendsFirst env launcherId blocks t ∨ ∃ s ∈ singletons, SpendsOddChild s t := by
    intro t ht
    obtain ⟨hmine, inner, hinner⟩ := hmem.mp ht
    rcases hinner.predecessor hlaws hhistory hhashes hmine with hfirst | ⟨p, hp, hsingleton, hodd⟩
    · exact .inl hfirst
    · exact .inr ⟨p, hmem.mpr ⟨hp, hsingleton⟩, hodd⟩
  obtain ⟨line, hnodup, hline, hchain, hhead⟩ := exists_line hrank hroot hnext hprev
  refine ⟨line, hnodup, fun s => (hline s).trans hmem, hhead, hchain, ?_⟩
  intro s hs hmelts
  have hnone := hmelts.oddCreated_eq hlaws hhistory hhashes (hmem.mp ((hline s).mp hs)).1
  obtain ⟨before, after, rfl⟩ := append_of_mem hs
  cases after with
  | nil => simp
  | cons t after =>
    have hlast : SpendsOddChild s t := (isChain_append.mp hchain).2.1.rel
    rw [SpendsOddChild, hnone] at hlast
    cases hlast

def sampleMods : SingletonMods := ⟨.atom [0x70], .atom [0x71]⟩

def singletonRun (base : SExp → SExp → Option SExp) : SExp → SExp → Option SExp
  | .pair (.atom kw) (.pair (.pair (.atom q) (.atom mod)) (.pair (.pair (.atom kw₁) (.pair (.pair (.atom q₁) struct)
      (.pair (.pair (.atom kw₂) (.pair (.pair (.atom q₂) inner) (.pair (.atom one) (.atom n₂)))) (.atom n₁))))
      (.atom n))), solution =>
    if kw = A_KW ∧ q = [1] ∧ mod = [0x70] ∧ kw₁ = C_KW ∧ q₁ = [1] ∧ kw₂ = C_KW ∧ q₂ = [1] ∧ one = [1] ∧ n₂ = [] ∧
        n₁ = [] ∧ n = [] then
      singletonTopLayer sampleHash (fun _ => singletonRun base inner) struct inner solution
    else none
  | .atom code, solution =>
    if code = [0x71] then singletonLauncher sampleHash solution else base (.atom code) solution
  | puzzle, solution => base puzzle solution

lemma singletonLaws_singletonRun (base : SExp → SExp → Option SExp) :
    SingletonLaws (ledgerEnv (singletonRun base)) sampleMods where
  topLayer := fun struct inner sol => by
    rfl
  launcher := fun sol => by
    rfl

/-- The path `3` of CLVM, the rest of the environment: the inner solution is the list of conditions. -/
def restPuzzle : SExp := .atom [3]

def restRun (puzzle solution : SExp) : Option SExp := if puzzle = restPuzzle then solution.rest? else none

def lineRun : SExp → SExp → Option SExp := singletonRun restRun

/-- A coin that is created and spent at height 5. -/
def recordOf (coin : Coin) : CoinRecord := ⟨coin, 5, 0, false, false, 1600000000⟩

def launcherCoin : Coin := ⟨.ofNat 32 5, sampleMods.singletonLauncher.treeHash sampleHash, 1, by decide⟩

def lineLauncherId : Bytes32 := launcherCoin.name sampleHash

def linePuzzle : SExp := puzzleForSingleton sampleHash sampleMods lineLauncherId restPuzzle

def lineHash : Bytes32 := linePuzzle.treeHash sampleHash

def firstCoin : Coin := ⟨lineLauncherId, lineHash, 1, by decide⟩

def secondCoin : Coin := ⟨firstCoin.name sampleHash, lineHash, 1, by decide⟩

def createInner (amount : Bytes) : SExp :=
  .ofList [.ofList [opcode .CREATE_COIN, .atom (sha256tree sampleHash restPuzzle), .atom amount]]

def launchSpend : LedgerSpend := executedSpend lineRun (recordOf launcherCoin) sampleMods.singletonLauncher
  (.ofList [.atom lineHash.toBytes, .atom [1], .atom []])

def firstSpend : LedgerSpend := executedSpend lineRun (recordOf firstCoin) linePuzzle
  (.ofList [.ofList [.atom launcherCoin.parentCoinInfo.toBytes, .atom [1]], .atom [1], createInner [1]])

def meltSpend : LedgerSpend := executedSpend lineRun (recordOf secondCoin) linePuzzle
  (.ofList [.ofList [.atom lineLauncherId.toBytes, .atom (sha256tree sampleHash restPuzzle), .atom [1]], .atom [1],
    createInner ESCAPE_VALUE])

def lineBlock : LedgerBlock where
  height := 5
  prevTransactionBlockHeight := 4
  timestamp := 1600000000
  spends := [launchSpend, firstSpend, meltSpend]
  rewards := [launcherCoin]

def lineTuples : List (List Bytes) :=
  [launcherCoin, firstCoin, secondCoin].map coinTuple ++ treeTuples sampleHash linePuzzle ++
    treeTuples sampleHash sampleMods.singletonLauncher ++
    [firstSpend, meltSpend].flatMap fun s =>
      lineageTuples sampleHash sampleMods lineLauncherId restPuzzle s.solution

lemma history_lineBlock : History (ledgerEnv lineRun) [lineBlock] where
  valid := by
    intro b hb
    rw [mem_singleton.mp hb]
    refine valid_of_passes lineRun ?_ (by decide +kernel)
    intro s hs
    rcases mem_cons.mp hs with rfl | hs
    · exact executes_executedSpend lineRun (by decide +kernel)
    rcases mem_cons.mp hs with rfl | hs
    · exact executes_executedSpend lineRun (by decide +kernel)
    · rw [mem_singleton.mp hs]
      exact executes_executedSpend lineRun (by decide +kernel)
  spentOnce := by decide +kernel
  origin := by decide +kernel

def innerOf : SExp → SExp
  | .pair _ (.pair _ (.pair (.pair _ (.pair _ (.pair (.pair _ (.pair (.pair _ inner) _)) _))) _)) => inner
  | puzzle => puzzle

lemma singletonHashes_lineBlock :
    SingletonHashes (ledgerEnv lineRun) sampleMods lineLauncherId {t | t ∈ lineTuples} [lineBlock] where
  injective := injOn_sampleHash (by decide +kernel)
  coins := by decide +kernel
  puzzles := by
    have hall : ∀ s ∈ allSpends [lineBlock], ∀ t ∈ treeTuples sampleHash s.puzzle, t ∈ lineTuples := by decide +kernel
    exact hall
  rewards := by
    have hall : ∀ b ∈ [lineBlock], ∀ c ∈ b.rewards, ∀ t ∈ lineTuples,
        c.parentCoinInfo.toBytes ≠ sha256 sampleHash t := by decide +kernel
    exact hall
  acyclic := ⟨fun name => [launcherCoin.parentCoinInfo, lineLauncherId, firstCoin.name sampleHash].idxOf name,
      by decide +kernel⟩
  launcher := by
    have hall : ∀ t ∈ treeTuples sampleHash sampleMods.singletonLauncher, t ∈ lineTuples := by decide +kernel
    exact hall
  lineage := by
    intro s hs inner hinner
    have hinner : inner = innerOf s.puzzle := by
      rw [hinner]
      rfl
    subst hinner
    have hall : ∀ s ∈ allSpends [lineBlock], ∀ t ∈ lineageTuples sampleHash sampleMods lineLauncherId
        (innerOf s.puzzle) s.solution, t ∈ lineTuples := by decide +kernel
    exact hall s hs

theorem singleton_line_of_two : ∃ line : List LedgerSpend, line.Nodup ∧ (∀ s, s ∈ line ↔ s ∈ allSpends [lineBlock] ∧
      ∃ inner, SingletonSpend (ledgerEnv lineRun) sampleMods lineLauncherId inner s) ∧
    (∀ s ∈ line.head?, SpendsFirst (ledgerEnv lineRun) lineLauncherId [lineBlock] s) ∧ line.IsChain SpendsOddChild ∧
    ∀ s ∈ line, Melts (ledgerEnv lineRun) sampleMods lineLauncherId s → line.getLast? = some s :=
  singleton_line (singletonLaws_singletonRun restRun) history_lineBlock singletonHashes_lineBlock

end SectorChain.Proofs
