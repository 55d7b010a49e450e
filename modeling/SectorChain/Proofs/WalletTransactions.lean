import SectorChain.Proofs.CoinSelection
import SectorChain.Proofs.ExecutedSpends

/-!
# Transactions of the standard wallet

Coins met before the origin coin assert no announcement of it.
-/

namespace SectorChain.Proofs.WalletCoins

open Lib WalletStateManager Wallet List

variable {coin : Coin}

/-- The conditions of a solution whose delegated puzzle quotes them. -/
def spendConditions (spend : CoinSolution) : List ConditionWithArgs :=
  ((quotedConditions spend.solution.program).bind parseSexpToConditions).getD []

def outputs (spend : CoinSolution) : List ConditionWithArgs :=
  (spendConditions spend).filter fun c => c.opcode = .CREATE_COIN

def outputTotal (spend : CoinSolution) : ℤ :=
  ((outputs spend).map fun c => intFromBytes (c.vars.getD 1 [])).sum

def announced (spend : CoinSolution) : List Bytes :=
  ((spendConditions spend).filter fun c => c.opcode = .CREATE_COIN_ANNOUNCEMENT).map fun c => c.vars.getD 0 []

def asserted (spend : CoinSolution) : List Bytes :=
  ((spendConditions spend).filter fun c => c.opcode = .ASSERT_COIN_ANNOUNCEMENT).map fun c => c.vars.getD 0 []

lemma ofBytes?_value (op : ConditionOpcode) : ConditionOpcode.ofBytes? op.value = some op := by
  cases op <;> rfl

lemma asAtomList_ofList (args : List Bytes) : (SExp.ofList (args.map .atom)).asAtomList = args := by
  induction args with
  | nil => rfl
  | cons arg args ih =>
    change arg :: (SExp.ofList (args.map .atom)).asAtomList = _
    rw [ih]

lemma parse_makeCondition (op : ConditionOpcode) (args : List Bytes) :
    parseSexpToCondition (makeCondition op args) = some ⟨op, args⟩ := by
  unfold parseSexpToCondition makeCondition
  rw [asAtomList_ofList]
  simp only [ofBytes?_value, Option.getD_some]

lemma parse_conditions (conditions : List ConditionWithArgs) :
    parseSexpToConditions (.ofList (conditions.map fun c => makeCondition c.opcode c.vars)) = some conditions := by
  induction conditions with
  | nil => rfl
  | cons c conditions ih =>
    rw [map_cons, SExp.ofList, parseSexpToConditions, parse_makeCondition, ih]
    rfl

/-- The conditions of `make_solution`, before they are written down. -/
def solutionConditions (args : SolutionArgs) : List ConditionWithArgs :=
  args.primaries.map (fun p => ⟨.CREATE_COIN, [p.puzzlehash.toBytes, intToBytes p.amount]⟩) ++
    (if args.minTime > 0 then [⟨.ASSERT_SECONDS_ABSOLUTE, [intToBytes args.minTime]⟩] else []) ++
    (args.me.map fun name => ⟨.ASSERT_MY_COIN_ID, [name.toBytes]⟩).toList ++
    (if args.fee ≠ 0 then [⟨.RESERVE_FEE, [intToBytes args.fee]⟩] else []) ++
    args.coinAnnouncements.map (fun message => ⟨.CREATE_COIN_ANNOUNCEMENT, [message]⟩) ++
    args.coinAnnouncementsToAssert.map
      (fun hash => ⟨.ASSERT_COIN_ANNOUNCEMENT, [(hash.map SizedBytes.toBytes).getD []]⟩) ++
    args.puzzleAnnouncements.map (fun message => ⟨.CREATE_PUZZLE_ANNOUNCEMENT, [message]⟩) ++
    args.puzzleAnnouncementsToAssert.map (fun hash => ⟨.ASSERT_PUZZLE_ANNOUNCEMENT, [hash.toBytes]⟩)

lemma conditionList_eq (args : SolutionArgs) :
    conditionList args = (solutionConditions args).map fun c => makeCondition c.opcode c.vars := by
  unfold conditionList solutionConditions
  simp only [map_append, map_map, apply_ite (List.map _), map_cons, map_nil]
  cases args.me with
  | none => rfl
  | some name => rfl

lemma spendConditions_makeSolution {spend : CoinSolution} {args : SolutionArgs}
    (h : spend.solution.program = makeSolution args) : spendConditions spend = solutionConditions args := by
  unfold spendConditions
  rw [h, makeSolution, conditionList_eq]
  change (parseSexpToConditions _).getD [] = _
  rw [parse_conditions]
  rfl

lemma filter_map_opcode {α : Type} (op op' : ConditionOpcode) (f : α → List Bytes) (l : List α) :
    (l.map fun a => (⟨op, f a⟩ : ConditionWithArgs)).filter (fun c => decide (c.opcode = op')) =
      if op = op' then l.map fun a => ⟨op, f a⟩ else [] := by
  by_cases hop : op = op'
  · rw [if_pos hop, filter_eq_self]
    intro c hc
    obtain ⟨a, -, rfl⟩ := mem_map.mp hc
    exact decide_eq_true hop
  · rw [if_neg hop, filter_eq_nil_iff]
    intro c hc
    obtain ⟨a, -, rfl⟩ := mem_map.mp hc
    simpa using hop

lemma filter_solutionConditions (args : SolutionArgs) (op : ConditionOpcode)
    (hop : op = .CREATE_COIN ∨ op = .CREATE_COIN_ANNOUNCEMENT ∨ op = .ASSERT_COIN_ANNOUNCEMENT) :
    (solutionConditions args).filter (fun c => decide (c.opcode = op)) =
      (if .CREATE_COIN = op then args.primaries.map fun p =>
        ⟨.CREATE_COIN, [p.puzzlehash.toBytes, intToBytes p.amount]⟩ else []) ++
      (if .CREATE_COIN_ANNOUNCEMENT = op then args.coinAnnouncements.map fun message =>
        ⟨.CREATE_COIN_ANNOUNCEMENT, [message]⟩ else []) ++
      (if .ASSERT_COIN_ANNOUNCEMENT = op then args.coinAnnouncementsToAssert.map fun hash =>
        ⟨.ASSERT_COIN_ANNOUNCEMENT, [(hash.map SizedBytes.toBytes).getD []]⟩ else []) := by
  unfold solutionConditions
  simp only [filter_append, filter_map_opcode, apply_ite (List.filter _)]
  -- the other conditions have other opcodes
  rcases hop with rfl | rfl | rfl <;> cases args.me <;> simp

section

variable {spend : CoinSolution} {args : SolutionArgs}

lemma outputs_makeSolution (h : spend.solution.program = makeSolution args) :
    outputs spend = args.primaries.map fun p => ⟨.CREATE_COIN, [p.puzzlehash.toBytes, intToBytes p.amount]⟩ := by
  unfold outputs
  rw [spendConditions_makeSolution h, filter_solutionConditions args _ (.inl rfl)]
  simp

lemma outputTotal_makeSolution (h : spend.solution.program = makeSolution args) :
    outputTotal spend = (args.primaries.map Primary.amount).sum := by
  unfold outputTotal
  rw [outputs_makeSolution h]
  generalize args.primaries = primaries
  induction primaries with
  | nil => rfl
  | cons p primaries ih =>
    have hamount : intFromBytes (intToBytes p.amount) = p.amount := beInt_intToBytes p.amount
    rw [map_cons, map_cons, sum_cons, ih]
    exact congrArg (· + _) hamount

lemma announced_makeSolution (h : spend.solution.program = makeSolution args) :
    announced spend = args.coinAnnouncements := by
  unfold announced
  rw [spendConditions_makeSolution h, filter_solutionConditions args _ (.inr (.inl rfl))]
  simp [Function.comp_def]

lemma asserted_makeSolution (h : spend.solution.program = makeSolution args) :
    asserted spend = args.coinAnnouncementsToAssert.map fun hash => (hash.map SizedBytes.toBytes).getD [] := by
  unfold asserted
  rw [spendConditions_makeSolution h, filter_solutionConditions args _ (.inr (.inr rfl))]
  simp [Function.comp_def]

end

lemma returns_of_isOk {ε σ α : Type} (m : Exec ε σ α) (s : σ) (h : (exec m s).1.isOk = true) :
    ∃ a s', exec m s = (.ok a, s') := by
  generalize exec m s = result at h ⊢
  obtain ⟨outcome, s'⟩ := result
  cases outcome with
  | ok a => exact ⟨a, s', rfl⟩
  | error e => cases h

section

variable {env : StandardWalletEnv} {id : ℕ} {s s' : WalletStateManager}

lemma ofProgram_ok {program : SExp} {p : SerializedProgram} (h : SerializedProgram.ofProgram program = .ok p) :
    p.program = program := by
  unfold SerializedProgram.ofProgram at h
  split at h
  · obtain rfl := Except.ok.inj h
    rfl
  · cases h

lemma coinSolution_ok {puzzle solution : SExp} {spend : CoinSolution}
    (h : coinSolution coin puzzle solution = .ok spend) : spend.coin = coin ∧ spend.solution.program = solution := by
  obtain ⟨puzzleReveal, -, h⟩ := bind_eq_ok.mp h
  obtain ⟨p, hp, h⟩ := bind_eq_ok.mp h
  obtain rfl := Except.ok.inj h
  exact ⟨rfl, ofProgram_ok hp⟩

variable {args : TransactionArgs} {coins rest : List Coin} {change : ℕ} {spends : List CoinSolution}

/-- One round of a loop that makes a spend and continues with `more`. -/
lemma consSpend_ok {puzzle solution : SExp} {more : WalletM (List CoinSolution)}
    (h : exec (do
      let spend ← (coinSolution coin puzzle solution : WalletM CoinSolution)
      return spend :: (← more)) s = (.ok spends, s')) :
    ∃ spend spends' s₁, spends = spend :: spends' ∧ spend.coin = coin ∧ spend.solution.program = solution ∧
      exec more s₁ = (.ok spends', s') := by
  obtain ⟨spend, s₁, hspend, h⟩ := exec_bind_ok.mp h
  obtain ⟨spends', s₂, hmore, h⟩ := exec_bind_ok.mp h
  cases h
  obtain ⟨hcoin, hprogram⟩ := coinSolution_ok (exec_lift_eq.mp hspend).1
  exact ⟨spend, spends', s₁, rfl, hcoin, hprogram, hmore⟩

/-- The solution of a coin that asserts an announcement. -/
abbrev assertingSolution (hash : Option Bytes32) : SExp := makeSolution { coinAnnouncementsToAssert := [hash] }

/-- The solution of the coin that creates the outputs. -/
abbrev announcingSolution (args : TransactionArgs) (primaries : List Primary) (message : Bytes) : SExp := makeSolution
  { primaries := primaries
    fee := args.fee
    coinAnnouncements := [message]
    coinAnnouncementsToAssert := args.announcementsToConsume.map some }

lemma generateSpends_announced {hash : Bytes32}
    (h : exec (generateSpends env id args coins change rest (some hash)) s = (.ok spends, s')) :
    ∀ spend ∈ spends, spend.solution.program = assertingSolution (some hash) := by
  induction rest generalizing s spends with
  | nil =>
    cases h
    exact forall_mem_nil _
  | cons coin rest ih =>
    obtain ⟨puzzle, s₁, -, h⟩ := exec_bind_ok.mp h
    obtain ⟨spend, spends', s₂, rfl, -, hsolution, hrest⟩ := consSpend_ok h
    exact forall_mem_cons.mpr ⟨hsolution, ih hrest⟩

lemma generateSpends_coins {hash : Option Bytes32}
    (h : exec (generateSpends env id args coins change rest hash) s = (.ok spends, s')) :
    spends.map CoinSolution.coin = rest := by
  induction rest generalizing s spends hash with
  | nil =>
    cases h
    rfl
  | cons coin rest ih =>
    obtain ⟨puzzle, s₁, -, h⟩ := exec_bind_ok.mp h
    split at h
    · obtain ⟨⟨solution, announcement⟩, s₂, -, h⟩ := exec_bind_ok.mp h
      obtain ⟨spend, spends', s₃, rfl, hcoin, -, hrest⟩ := consSpend_ok h
      rw [map_cons, hcoin, ih hrest]
    · obtain ⟨spend, spends', s₂, rfl, hcoin, -, hrest⟩ := consSpend_ok h
      rw [map_cons, hcoin, ih hrest]

lemma allPrimaries_ok {primaries : List Primary}
    (h : exec (allPrimaries env id args change) s = (.ok primaries, s')) :
    (primaries.map Primary.amount).sum = primariesAmount args + args.amount + change ∧ primaries ≠ [] := by
  have hrequested : ((requestedPrimaries args).map Primary.amount).sum = primariesAmount args + args.amount := by
    unfold requestedPrimaries primariesAmount
    rw [map_append, sum_append]
    rfl
  have hne : requestedPrimaries args ≠ [] := append_ne_nil_of_right_ne_nil _ (cons_ne_nil _ _)
  unfold allPrimaries at h
  split at h
  · obtain ⟨changePuzzleHash, s₁, -, h⟩ := exec_bind_ok.mp h
    cases h
    refine ⟨?_, append_ne_nil_of_left_ne_nil hne _⟩
    rw [map_append, sum_append, hrequested]
    rfl
  · cases h
    exact ⟨by omega, hne⟩

lemma originSolution_ok {solution : SExp} {announcement : Announcement}
    (h : exec (originSolution env id args coins change coin) s = (.ok (solution, announcement), s')) :
    ∃ primaries, solution = announcingSolution args primaries announcement.message ∧
      announcement.originInfo = coin.name env.stdHash ∧
      (primaries.map Primary.amount).sum = primariesAmount args + args.amount + change ∧ primaries ≠ [] := by
  obtain ⟨primaries, s₁, hprimaries, h⟩ := exec_bind_ok.mp h
  obtain ⟨outputs, s₂, -, h⟩ := exec_bind_ok.mp h
  cases h
  exact ⟨primaries, rfl, rfl, allPrimaries_ok hprimaries⟩

lemma generateSpends_origin (horigin : args.originId = none ∨ args.originId = some (coin.name env.stdHash))
    (h : exec (generateSpends env id args coins change (coin :: rest) none) s = (.ok spends, s')) :
    ∃ primaries message spend spends', spends = spend :: spends' ∧
        spend.solution.program = announcingSolution args primaries message ∧
      (primaries.map Primary.amount).sum = primariesAmount args + args.amount + change ∧ primaries ≠ [] ∧
      ∀ other ∈ spends', other.solution.program =
        assertingSolution (some (Announcement.name env.stdHash ⟨coin.name env.stdHash, message⟩)) := by
  obtain ⟨puzzle, s₁, -, h⟩ := exec_bind_ok.mp h
  rw [if_pos ⟨rfl, horigin⟩] at h
  obtain ⟨⟨solution, announcement⟩, s₂, hsolution, h⟩ := exec_bind_ok.mp h
  obtain ⟨spend, spends', s₃, rfl, -, hprogram, hrest⟩ := consSpend_ok h
  obtain ⟨primaries, hargs, hinfo, hsum, hne⟩ := originSolution_ok hsolution
  refine ⟨primaries, announcement.message, spend, spends', rfl, hprogram.trans hargs, hsum, hne, ?_⟩
  rw [← hinfo]
  exact generateSpends_announced hrest

lemma generateSpends_not_origin (horigin : ¬ (args.originId = none ∨ args.originId = some (coin.name env.stdHash)))
    (h : exec (generateSpends env id args coins change (coin :: rest) none) s = (.ok spends, s')) :
    ∃ spend spends', spends = spend :: spends' ∧ spend.solution.program = assertingSolution none := by
  obtain ⟨puzzle, s₁, -, h⟩ := exec_bind_ok.mp h
  rw [if_neg fun hor => horigin hor.2] at h
  obtain ⟨spend, spends', s₂, rfl, -, hprogram, -⟩ := consSpend_ok h
  exact ⟨spend, spends', rfl, hprogram⟩

/-- What `_generate_unsigned_transaction` passes to the loop. -/
lemma generateUnsignedTransaction_ok {coinSet : Finset Coin} (hcoins : args.coins = some coinSet)
    (h : exec (generateUnsignedTransaction env id args) s = (.ok spends, s')) :
    0 < (env.coinOrder.list coinSet).length ∧ totalAmount args ≤ ((env.coinOrder.list coinSet).map Coin.amount).sum ∧
      ∃ s₁, exec (generateSpends env id args (env.coinOrder.list coinSet)
        (((env.coinOrder.list coinSet).map Coin.amount).sum - totalAmount args) (env.coinOrder.list coinSet) none) s₁ =
          (.ok spends, s') := by
  obtain ⟨_, s₁, -, h⟩ := exec_bind_ok.mp h
  obtain ⟨selected, s₂, hselected, h⟩ := exec_bind_ok.mp h
  unfold coinsToSpend at hselected
  rw [hcoins] at hselected
  cases hselected
  obtain ⟨_, s₃, hlength, h⟩ := exec_bind_ok.mp h
  obtain ⟨_, s₄, hvalue, h⟩ := exec_bind_ok.mp h
  split at h
  · cases h
  · exact ⟨of_decide_eq_true (pyAssert_ok.mp (exec_lift_eq.mp hlength).1),
      of_decide_eq_true (pyAssert_ok.mp (exec_lift_eq.mp hvalue).1),
      s₄, h⟩

end

/-- One coin creates all outputs, and all other coins assert an announcement that it makes. -/
def BoundTogether (stdHash : Bytes → Bytes32) (fee : ℕ) (spends : List CoinSolution) : Prop :=
  ∃ before origin after, spends = before ++ origin :: after ∧ outputs origin ≠ [] ∧
    (∀ other ∈ before ++ after, outputs other = []) ∧
    (spends.map outputTotal).sum + fee = ((spends.map fun spend => spend.coin.amount).sum : ℕ) ∧
    ∀ other ∈ before ++ after, ∃ message ∈ announced origin,
      (Announcement.name stdHash ⟨origin.coin.name stdHash, message⟩).toBytes ∈ asserted other

section

variable {env : StandardWalletEnv} {id : ℕ} {s s' : WalletStateManager} {args : TransactionArgs}
  {spends : List CoinSolution}

lemma outputs_asserting {spend : CoinSolution} {hash : Option Bytes32}
    (h : spend.solution.program = assertingSolution hash) : outputs spend = [] :=
  outputs_makeSolution h

lemma outputTotal_asserting {spends : List CoinSolution}
    (h : ∀ spend ∈ spends, outputs spend = []) : (spends.map outputTotal).sum = 0 := by
  refine sum_eq_zero fun total htotal => ?_
  obtain ⟨spend, hspend, rfl⟩ := mem_map.mp htotal
  unfold outputTotal
  rw [h spend hspend]
  rfl

lemma boundTogether_of_origin {coins : List Coin} {rest : List Coin} (hcoins : coins = coin :: rest)
    (hle : totalAmount args ≤ (coins.map Coin.amount).sum)
    (horigin : args.originId = none ∨ args.originId = some (coin.name env.stdHash)) (h : exec (generateSpends env
      id args coins ((coins.map Coin.amount).sum - totalAmount args) coins none) s = (.ok spends, s')) :
    BoundTogether env.stdHash args.fee spends := by
  have hinputs := generateSpends_coins h
  nth_rewrite 3 [hcoins] at h
  obtain ⟨primaries, message, spend, spends', rfl, hprogram, hsum, hne, hall⟩ := generateSpends_origin horigin h
  have hcoin : spend.coin = coin := (List.cons.inj (hinputs.trans hcoins)).1
  have hothers : ∀ other ∈ spends', outputs other = [] := fun other hother => outputs_asserting (hall other hother)
  refine ⟨[], spend, spends', rfl, ?_, hothers, ?_, fun other hother => ⟨message, ?_, ?_⟩⟩
  · rw [outputs_makeSolution hprogram, Ne, map_eq_nil_iff]
    exact hne
  · have hamounts : (spend :: spends').map (fun spend => spend.coin.amount) = coins.map Coin.amount := by
      rw [← hinputs, map_map]
      rfl
    have htotal : totalAmount args = args.amount + args.fee + primariesAmount args := rfl
    rw [map_cons, sum_cons, outputTotal_asserting hothers, outputTotal_makeSolution hprogram, hsum, hamounts]
    omega
  · rw [announced_makeSolution hprogram]
    exact mem_singleton_self _
  · rw [asserted_makeSolution (hall other hother), hcoin]
    exact mem_singleton_self _

lemma not_boundTogether {coins : List Coin} {rest : List Coin} {change fee : ℕ}
    (horigin : ¬ (args.originId = none ∨ args.originId = some (coin.name env.stdHash)))
    (h : exec (generateSpends env id args coins change (coin :: rest) none) s = (.ok spends, s')) :
    ¬ BoundTogether env.stdHash fee spends := by
  obtain ⟨spend, spends', rfl, hprogram⟩ := generateSpends_not_origin horigin h
  rintro ⟨before, origin, after, heq, houtputs, -, -, hasserted⟩
  cases before with
  | nil =>
    obtain ⟨rfl, -⟩ := List.cons.inj heq
    exact houtputs (outputs_asserting hprogram)
  | cons first before =>
    obtain ⟨rfl, -⟩ := List.cons.inj heq
    obtain ⟨message, -, hmem⟩ := hasserted spend mem_cons_self
    rw [asserted_makeSolution hprogram, map_cons, map_nil, mem_singleton] at hmem
    have hlength := congrArg List.length hmem
    simp at hlength

/-- A transaction is bound together if and only if the set is iterated from the origin on. -/
theorem transaction_bound_together_iff {coins : Finset Coin} {origin : Coin} (horigin : origin ∈ coins)
    (hcoins : args.coins = some coins) (hid : args.originId = some (origin.name env.stdHash))
    (h : exec (generateUnsignedTransaction env id args) s = (.ok spends, s')) :
    spends.map CoinSolution.coin = env.coinOrder.list coins ∧ (BoundTogether env.stdHash args.fee spends ↔
      ((env.coinOrder.list coins).head?.map fun coin => coin.name env.stdHash) = args.originId) := by
  obtain ⟨hpos, hle, s₁, hrun⟩ := generateUnsignedTransaction_ok hcoins h
  refine ⟨generateSpends_coins hrun, ?_⟩
  cases hlist : env.coinOrder.list coins with
  | nil =>
    have hmem := (env.coinOrder.mem_list coins origin).mpr horigin
    rw [hlist] at hmem
    cases hmem
  | cons coin rest =>
    by_cases hfirst : some (coin.name env.stdHash) = args.originId
    · exact iff_of_true (boundTogether_of_origin hlist hle (.inr hfirst.symm) hrun) hfirst
    refine iff_of_false (not_boundTogether ?_ (hlist ▸ hrun)) hfirst
    rintro (hnone | hsome)
    · rw [hid] at hnone
      cases hnone
    · exact hfirst hsome.symm

def samplePayment (origin : Coin) : TransactionArgs where
  amount := 3
  newpuzzlehash := .ofNat 32 9
  fee := 1
  originId := some (origin.name plainHash)
  coins := some {smallCoin, largeCoin}
  primariesInput := none
  ignoreMaxSendAmount := true
  announcementsToConsume := [.ofNat 32 4]

theorem transaction_bound_together_small :
    ∃ spends s', exec (generateUnsignedTransaction sampleWalletEnv 1 (samplePayment smallCoin)) sampleWallet =
      (.ok spends, s') ∧ BoundTogether plainHash 1 spends := by
  obtain ⟨spends, s', hrun⟩ := returns_of_isOk (generateUnsignedTransaction sampleWalletEnv 1 (samplePayment smallCoin))
    sampleWallet (by decide +kernel)
  exact ⟨spends, s', hrun,
    (transaction_bound_together_iff (Finset.mem_insert_self _ _) rfl rfl hrun).2.mpr (by decide +kernel)⟩

/-- The loop meets the small coin first, so a transaction with the large one as its origin is not bound together. -/
theorem transaction_not_bound_together : largeCoin ∈ ({smallCoin, largeCoin} : Finset Coin) ∧
      ∃ spends s', exec (generateUnsignedTransaction sampleWalletEnv 1 (samplePayment largeCoin)) sampleWallet =
        (.ok spends, s') ∧ ¬ BoundTogether plainHash 1 spends := by
  obtain ⟨spends, s', hrun⟩ := returns_of_isOk (generateUnsignedTransaction sampleWalletEnv 1 (samplePayment largeCoin))
    sampleWallet (by decide +kernel)
  obtain ⟨-, -, s₁, hloop⟩ := generateUnsignedTransaction_ok rfl hrun
  exact ⟨by decide +kernel, spends, s', hrun, not_boundTogether (by decide +kernel) hloop⟩

end

section

variable {env : StandardWalletEnv} {id : ℕ} {s s' : WalletStateManager} {spends : List CoinSolution}

lemma relativeSpends_ok {amount : ℕ} {coins : List Coin} {solution : Option SExp}
    (hsolution : ∀ sol, solution = some sol → ∃ ph, sol = makeSolution { primaries := [⟨ph, amount⟩] })
    (h : exec (relativeSpends env id amount coins solution) s = (.ok spends, s')) :
    spends.map CoinSolution.coin = coins ∧ ∀ spend ∈ spends, outputTotal spend = amount := by
  have htotal : ∀ {spend : CoinSolution} {ph : Bytes32},
      spend.solution.program = makeSolution { primaries := [⟨ph, amount⟩] } → outputTotal spend = amount := by
    intro spend ph hprogram
    rw [outputTotal_makeSolution hprogram]
    rfl
  induction coins generalizing s spends solution with
  | nil =>
    cases h
    exact ⟨rfl, forall_mem_nil _⟩
  | cons coin coins ih =>
    obtain ⟨puzzle, s₁, -, h⟩ := exec_bind_ok.mp h
    cases solution with
    | some sol =>
      obtain ⟨ph, rfl⟩ := hsolution sol rfl
      obtain ⟨spend, spends', s₂, rfl, hcoin, hprogram, hrest⟩ := consSpend_ok h
      obtain ⟨hcoins, hall⟩ := ih hsolution hrest
      exact ⟨by rw [map_cons, hcoin, hcoins], forall_mem_cons.mpr ⟨htotal hprogram, hall⟩⟩
    | none =>
      obtain ⟨ph, s₂, -, h⟩ := exec_bind_ok.mp h
      obtain ⟨spend, spends', s₃, rfl, hcoin, hprogram, hrest⟩ := consSpend_ok h
      obtain ⟨hcoins, hall⟩ := ih (fun sol hsol => ⟨ph, (Option.some.inj hsol).symm⟩) hrest
      exact ⟨by rw [map_cons, hcoin, hcoins], forall_mem_cons.mpr ⟨htotal hprogram, hall⟩⟩

/-- What the coins of a bundle create, less what they are worth. -/
def valueChange (bundle : SpendBundle) : ℤ :=
  (bundle.coinSolutions.map outputTotal).sum - ((bundle.coinSolutions.map fun spend => spend.coin.amount).sum : ℕ)

lemma createSpendBundleRelativeSector_ok {amount : ℤ} {exclude : List Coin} {bundle : SpendBundle}
    (h : exec (createSpendBundleRelativeSector env id amount exclude) s = (.ok bundle, s')) :
    ∃ coins : Finset Coin, selectCoins env id s (if amount < 0 then |amount| else 0) exclude = .ok coins ∧
        coins.Nonempty ∧ valueChange bundle =
          coins.card * ((∑ c ∈ coins, c.amount : ℕ) + amount).toNat - (∑ c ∈ coins, c.amount : ℕ) := by
  unfold createSpendBundleRelativeSector at h
  rw [exec_get_bind] at h
  obtain ⟨coins, s₁, hselect, h⟩ := exec_bind_ok.mp h
  obtain ⟨_, s₂, hlength, h⟩ := exec_bind_ok.mp h
  obtain ⟨spends, s₃, hspends, h⟩ := exec_bind_ok.mp h
  obtain ⟨_, s₄, -, h⟩ := exec_bind_ok.mp h
  obtain ⟨aggsig, s₅, -, h⟩ := exec_bind_ok.mp h
  cases h
  obtain ⟨hcoins, hall⟩ := relativeSpends_ok (fun sol hsol => (by cases hsol)) hspends
  have hpos : 0 < coins.card := by
    rw [← env.coinOrder.length_list]
    exact of_decide_eq_true (pyAssert_ok.mp (exec_lift_eq.mp hlength).1)
  refine ⟨coins, (exec_lift_eq.mp hselect).1, Finset.card_pos.mp hpos, ?_⟩
  have hinputs : (spends.map fun spend => spend.coin.amount) = (env.coinOrder.list coins).map Coin.amount := by
    rw [← hcoins, map_map]
    rfl
  have hspent := env.coinOrder.sum_list coins Coin.amount
  have houtputs : (spends.map outputTotal).sum = spends.length * ((∑ c ∈ coins, c.amount : ℕ) + amount).toNat := by
    rw [map_congr_left hall, hspent, map_const', sum_replicate, nsmul_eq_mul]
  have hcount : spends.length = coins.card := by
    rw [← env.coinOrder.length_list, ← hcoins, length_map]
  unfold valueChange
  rw [houtputs, hinputs, hspent, hcount]

/-- One coin is enough, or the largest coins are worth exactly what is to be lost. -/
def ExactChange (eligible : Finset Coin) (sectorAmount : ℤ) : Prop :=
  0 ≤ sectorAmount ∨ (∃ c ∈ eligible, -sectorAmount ≤ c.amount) ∨
    ∃ largest ⊆ eligible, (∀ c ∈ largest, ∀ d ∈ eligible, d ∉ largest → d.amount ≤ c.amount) ∧
      (∑ c ∈ largest, c.amount : ℕ) = -sectorAmount

lemma Selection.exact_iff {eligible coins : Finset Coin} {amount : ℤ}
    (h : Selection eligible (if amount < 0 then |amount| else 0) coins) (hne : coins.Nonempty) :
    (coins.card = 1 ∨ (∑ c ∈ coins, c.amount : ℕ) + amount = 0) ↔ ExactChange eligible amount := by
  have hpos := Finset.card_pos.mpr hne
  by_cases hneg : amount < 0
  · rw [if_pos hneg, abs_of_neg hneg] at h
    constructor
    · rintro (hone | hexact)
      · obtain ⟨c, rfl⟩ := Finset.card_eq_one.mp hone
        have hreach := h.reaches
        exact .inr (.inl ⟨c, h.subset (Finset.mem_singleton_self c), hreach⟩)
      · exact .inr (.inr ⟨coins, h.subset, h.largest, by omega⟩)
    rintro (hge | ⟨c, hc, hle⟩ | ⟨largest, hsubset, hupper, hsum⟩)
    · omega
    · have hcard := h.minimal {c} (Finset.singleton_subset_iff.mpr hc) (Finset.singleton_nonempty c)
        (by exact hle)
      rw [Finset.card_singleton] at hcard
      exact .inl (by omega)
    -- the selection is not larger, so it is not worth more
    have hnonempty : largest.Nonempty := by
      rw [Finset.nonempty_iff_ne_empty]
      rintro rfl
      rw [Finset.sum_empty] at hsum
      omega
    have hcard := h.minimal largest hsubset hnonempty hsum.ge
    have hle := sum_le_sum_of_upper hupper h.subset hcard
    have hreach := h.reaches
    exact .inr (by omega)
  · refine iff_of_true (.inl ?_) (.inl (by omega))
    obtain ⟨c, hc⟩ := hne
    have hcard := h.minimal {c} (Finset.singleton_subset_iff.mpr (h.subset hc)) (Finset.singleton_nonempty c) (by omega)
    rw [Finset.card_singleton] at hcard
    omega

/-- A relative spend is exact if and only if one coin is enough, or it leaves no output. -/
theorem relative_spend_exact_iff (hkeyed : Keyed env.stdHash s.coinStore) {sectorAmount : ℤ} {exclude : List Coin}
    {bundle : SpendBundle}
    (h : exec (createSpendBundleRelativeSector env id sectorAmount exclude) s = (.ok bundle, s')) :
    valueChange bundle = sectorAmount ↔ ExactChange (eligibleCoins env.toWalletEnv s id exclude) sectorAmount := by
  obtain ⟨coins, hselect, hne, hchange⟩ := createSpendBundleRelativeSector_ok h
  have hselection := selection_of_selectCoins hkeyed hselect
  rw [← hselection.exact_iff hne, hchange]
  have hreach := hselection.reaches
  generalize (∑ c ∈ coins, c.amount : ℕ) = total at hreach ⊢
  have houtput : ((total + sectorAmount).toNat : ℤ) = total + sectorAmount := by
    refine Int.toNat_of_nonneg ?_
    split at hreach
    · rename_i hneg
      rw [abs_of_neg hneg] at hreach
      omega
    · omega
  rw [houtput]
  have hsplit : (coins.card : ℤ) * (total + sectorAmount) - total = sectorAmount ↔
      ((coins.card : ℤ) - 1) * (total + sectorAmount) = 0 := by
    constructor
    · intro heq
      linarith
    · intro heq
      linarith
  rw [hsplit, mul_eq_zero]
  exact or_congr_left (by omega)

theorem relative_spend_exact_six :
    ∃ bundle s', exec (createSpendBundleRelativeSector sampleWalletEnv 1 (-6) []) sampleWallet = (.ok bundle, s') ∧
      valueChange bundle = -6 := by
  obtain ⟨bundle, s', hrun⟩ := returns_of_isOk (createSpendBundleRelativeSector sampleWalletEnv 1 (-6) []) sampleWallet
    (by decide +kernel)
  have heligible : largeCoin ∈ eligibleCoins sampleWalletEnv.toWalletEnv sampleWallet 1 [] := by
    rw [mem_eligibleCoins, eligible_iff keyed_sampleWallet]
    decide +kernel
  exact ⟨bundle, s', hrun,
    (relative_spend_exact_iff keyed_sampleWallet hrun).mpr (.inr (.inl ⟨largeCoin, heligible, by decide⟩))⟩

/-- Two coins of 5 and 7 are spent to lose 10, and each of them creates the output of 2. -/
theorem relative_spend_loses_output_twice :
    ∃ bundle s', exec (createSpendBundleRelativeSector sampleWalletEnv 1 (-10) []) sampleWallet = (.ok bundle, s') ∧
      valueChange bundle = -8 := by
  have hchange : (exec (createSpendBundleRelativeSector sampleWalletEnv 1 (-10) []) sampleWallet).1.map valueChange =
      .ok (-8) := by decide +kernel
  obtain ⟨bundle, s', hrun⟩ := returns_of_isOk (createSpendBundleRelativeSector sampleWalletEnv 1 (-10) []) sampleWallet
    (by decide +kernel)
  rw [hrun] at hchange
  exact ⟨bundle, s', hrun, Except.ok.inj hchange⟩

end

end SectorChain.Proofs.WalletCoins
