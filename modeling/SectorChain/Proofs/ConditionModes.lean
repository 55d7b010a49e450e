import SectorChain.FullNode.MempoolCheckConditions

/-!
# Strict and lenient parsing of conditions

Safe mode also rejects unknown opcodes and leading zeros.
-/

namespace SectorChain.Proofs

open Lib

def strictInt (n : SExp) : Bool :=
  match n.atom? with
  | some buf => !redundantZeros buf
  | none => true

def strictFirst (args : SExp) : Bool :=
  match args.first? with
  | some n => strictInt n
  | none => true

def strictArgs (args : SExp) : ConditionOpcode → Bool
  | .CREATE_COIN => match args.rest? with
    | some args => strictFirst args
    | none => true
  | .ASSERT_SECONDS_ABSOLUTE | .ASSERT_SECONDS_RELATIVE | .ASSERT_HEIGHT_ABSOLUTE
  | .ASSERT_HEIGHT_RELATIVE | .RESERVE_FEE | .ASSERT_MY_AMOUNT => strictFirst args
  | _ => true

def strictCondition : SExp → Bool
  | .atom _ => true
  | .pair condition args => match conditionOpcode condition with
    | some opcode => strictArgs args opcode
    | none => false

def elements : SExp → List SExp
  | .atom _ => []
  | .pair l r => l :: elements r

def strictSpend : SExp → Bool
  | .pair _ (.pair _ (.pair amount rest)) => strictInt amount && match rest.first? with
    | some conditions => (elements conditions).all strictCondition
    | none => true
  | _ => true

def strictOutput (result : SExp) : Bool :=
  match result.first? with
  | some spends => (elements spends).all strictSpend
  | none => true

section

variable {ε α β γ : Type}
variable {p : Bool} {x y : Except ε α}

/-- `x` returns what `y` returns, if `p` holds, and raises otherwise. -/
def Restricts (x y : Except ε α) (p : Bool) : Prop := ∀ a, x = .ok a ↔ y = .ok a ∧ p = true

lemma restricts_self (x : Except ε α) : Restricts x x true := by
  intro a
  simp

lemma restricts_of_error {e e' : ε} : Restricts (.error e : Except ε α) (.error e') p := by
  intro a
  simp

lemma Restricts.bind (h : Restricts x y p) (f : α → Except ε β) : Restricts (x >>= f) (y >>= f) p := by
  intro b
  simp only [bind_eq_ok, h _]
  constructor
  · rintro ⟨a, ⟨hy, hp⟩, hf⟩
    exact ⟨⟨a, hy, hf⟩, hp⟩
  · rintro ⟨⟨a, hy, hf⟩, hp⟩
    exact ⟨a, ⟨hy, hp⟩, hf⟩

lemma Restricts.map (h : Restricts x y p) (f : α → β) : Restricts (f <$> x) (f <$> y) p := by
  simpa only [map_eq_pure_bind] using h.bind fun a => pure (f a)

lemma Restricts.seq {f g : α → Except ε β} {q : Bool} (h : Restricts x y p)
    (hfg : ∀ a, y = .ok a → Restricts (f a) (g a) q) : Restricts (x >>= f) (y >>= g) (p && q) := by
  intro b
  simp only [bind_eq_ok, h _, Bool.and_eq_true]
  constructor
  · rintro ⟨a, ⟨hy, hp⟩, hf⟩
    have hg := (hfg a hy b).mp hf
    exact ⟨⟨a, hy, hg.1⟩, hp, hg.2⟩
  · rintro ⟨⟨a, hy, hg⟩, hp, hq⟩
    exact ⟨a, ⟨hy, hp⟩, (hfg a hy b).mpr ⟨hg, hq⟩⟩

lemma restricts_bind_right (x : Except ε α) {f g : α → Except ε β}
    (hfg : ∀ a, x = .ok a → Restricts (f a) (g a) p) : Restricts (x >>= f) (x >>= g) p := by
  simpa only [Bool.true_and] using (restricts_self x).seq hfg

lemma restricts_foldIter {err : ε} {f g : β → SExp → Except ε β} {p : SExp → Bool}
    (h : ∀ b x, Restricts (f b x) (g b x) (p x)) (e : SExp) (b : β) :
    Restricts (e.foldIter err f b) (e.foldIter err g b) ((elements e).all p) := by
  induction e generalizing b with
  | atom bs => exact restricts_self _
  | pair l r _ ihr =>
    apply (h b l).seq
    intro b' _
    exact ihr b'

end

lemma restricts_sanitizeInt (n : SExp) : Restricts (sanitizeInt n true) (sanitizeInt n false) (strictInt n) := by
  unfold sanitizeInt strictInt SExp.asAtom
  cases n with
  | pair l r => exact restricts_of_error
  | atom buf =>
    intro z
    by_cases hzeros : redundantZeros buf = true
    · simp [SExp.atom?, orRuntimeError, hzeros]
    · simp [SExp.atom?, orRuntimeError, hzeros]

variable (args : SExp) (env : Env) (generator : BlockGenerator) (maxCost : ℕ)

lemma restricts_first : Restricts (args.first >>= fun n => sanitizeInt n true)
      (args.first >>= fun n => sanitizeInt n false) (strictFirst args) := by
  cases args with
  | atom bs => exact restricts_of_error
  | pair n rest => exact restricts_sanitizeInt n

lemma restricts_parseLock (bound : ℤ) (args : SExp) (errorCode : Err) :
    Restricts (parseLock bound args true errorCode) (parseLock bound args false errorCode)
      (strictFirst args) := by
  unfold parseLock
  simpa only [bind_assoc] using (restricts_first args).bind fun lock => do
    if lock ≤ 0 then return none
    if lock ≥ bound then throw errorCode
    return some [intToBytes lock.toNat]

lemma restricts_parseUnsigned (errorCode : Err) :
    Restricts (parseUnsigned args true errorCode) (parseUnsigned args false errorCode)
      (strictFirst args) := by
  unfold parseUnsigned
  simpa only [bind_assoc] using (restricts_first args).bind fun n => do
    if n ≥ 2 ^ 64 ∨ n < 0 then throw errorCode
    return [intToBytes n.toNat]

lemma restricts_parseCreateCoin : Restricts (parseCreateCoin args true) (parseCreateCoin args false)
      (strictArgs args .CREATE_COIN) := by
  unfold parseCreateCoin strictArgs
  apply restricts_bind_right
  intro puzzleHash _
  apply restricts_bind_right
  intro puzzleHash _
  apply restricts_bind_right
  intro args' hargs'
  have hrest : args.rest? = some args' := by
    cases args with
    | atom bs => cases hargs'
    | pair l r => exact congrArg some (Except.ok.inj hargs')
  rw [hrest]
  by_cases hlength : puzzleHash.length ≠ 32
  · simp only [if_pos hlength]
    exact restricts_of_error
  simp only [if_neg hlength]
  simpa only [bind_assoc, pure_bind] using (restricts_first args').bind fun amountInt => do
    if amountInt ≥ 2 ^ 64 then throw .COIN_AMOUNT_EXCEEDS_MAXIMUM
    if amountInt < 0 then throw .COIN_AMOUNT_NEGATIVE
    return [puzzleHash, intToBytes amountInt.toNat]

lemma restricts_parseConditionArgs (opcode : ConditionOpcode) :
    Restricts (parseConditionArgs args opcode true) (parseConditionArgs args opcode false)
      (strictArgs args opcode) := by
  cases opcode with
  | CREATE_COIN => exact (restricts_parseCreateCoin args).map some
  | RESERVE_FEE => exact (restricts_parseUnsigned args _).map some
  | ASSERT_MY_AMOUNT => exact (restricts_parseUnsigned args _).map some
  | ASSERT_SECONDS_ABSOLUTE => exact restricts_parseLock _ args _
  | ASSERT_SECONDS_RELATIVE => exact restricts_parseLock _ args _
  | ASSERT_HEIGHT_ABSOLUTE => exact restricts_parseLock _ args _
  | ASSERT_HEIGHT_RELATIVE => exact restricts_parseLock _ args _
  | _ => exact restricts_self _

lemma restricts_parseCondition (cond : SExp) :
    Restricts (parseCondition cond true) (parseCondition cond false) (strictCondition cond) := by
  cases cond with
  | atom bs => exact restricts_of_error
  | pair condition args =>
    unfold parseCondition strictCondition
    dsimp only
    apply restricts_bind_right
    intro condition' hcondition
    cases hcondition
    cases conditionOpcode condition with
    | none =>
      intro r
      simp
    | some opcode =>
      apply restricts_bind_right
      intro args' hargs
      cases hargs
      exact (restricts_parseConditionArgs args opcode).bind _

lemma restricts_parseSpendCondition (acc : ℕ × List ConditionWithArgs) (cond : SExp) :
    Restricts (parseSpendCondition true acc cond) (parseSpendCondition false acc cond)
      (strictCondition cond) := by
  exact (restricts_parseCondition cond).bind _

lemma restricts_parseSpentCoin (parent puzzleHash amount rest : SExp) :
    Restricts (parseSpentCoin true (.pair parent (.pair puzzleHash (.pair amount rest))))
      (parseSpentCoin false (.pair parent (.pair puzzleHash (.pair amount rest))))
      (strictInt amount) := by
  apply restricts_bind_right
  intro _ hfirst
  cases hfirst
  apply restricts_bind_right
  intro _ _
  apply restricts_bind_right
  intro _ hrest
  cases hrest
  apply restricts_bind_right
  intro _ hfirst
  cases hfirst
  apply restricts_bind_right
  intro _ _
  apply restricts_bind_right
  intro _ hrest
  cases hrest
  apply restricts_bind_right
  intro _ hfirst
  cases hfirst
  exact (restricts_sanitizeInt amount).bind _

lemma first_eq_ok {s l : SExp} (h : s.first = .ok l) : ∃ r, s = .pair l r := by
  cases s with
  | atom bs => cases h
  | pair l' r =>
    cases h
    exact ⟨r, rfl⟩

lemma rest_eq_ok {s r : SExp} (h : s.rest = .ok r) : ∃ l, s = .pair l r := by
  cases s with
  | atom bs => cases h
  | pair l r' =>
    cases h
    exact ⟨l, rfl⟩

lemma parseSpentCoin_shape {safeMode : Bool} {res rest : SExp} {coin : Coin}
    (h : parseSpentCoin safeMode res = .ok (coin, rest)) :
    ∃ parent puzzleHash amount, res = .pair parent (.pair puzzleHash (.pair amount rest)) := by
  unfold parseSpentCoin at h
  simp only [bind_eq_ok] at h
  obtain ⟨_, -, _, -, res₁, hres₁, _, -, _, -, res₂, hres₂, _, -, amount, -, res₃, hres₃, h⟩ := h
  obtain ⟨parent, rfl⟩ := rest_eq_ok hres₁
  obtain ⟨puzzleHash, rfl⟩ := rest_eq_ok hres₂
  obtain ⟨amount, rfl⟩ := rest_eq_ok hres₃
  have hrest : res₃ = rest := by
    split at h
    · cases h
    · cases h
      rfl
  exact ⟨parent, puzzleHash, amount, by rw [hrest]⟩

lemma restricts_parseSpend (acc : ℕ × List NPC) (res : SExp) :
    Restricts (parseSpend env true acc res) (parseSpend env false acc res) (strictSpend res) := by
  by_cases hshape : ∃ parent puzzleHash amount rest, res = .pair parent (.pair puzzleHash (.pair amount rest))
  · obtain ⟨parent, puzzleHash, amount, rest, rfl⟩ := hshape
    apply (restricts_parseSpentCoin parent puzzleHash amount rest).seq
    rintro ⟨coin, rest'⟩ hcoin
    obtain ⟨_, _, _, heq⟩ := parseSpentCoin_shape hcoin
    cases heq
    apply restricts_bind_right
    intro conditions hconditions
    obtain ⟨_, rfl⟩ := first_eq_ok hconditions
    exact (restricts_foldIter restricts_parseSpendCondition conditions (acc.1, [])).bind _
  · -- a spend of another shape is an error in both modes
    have herror : ∀ safeMode r, parseSpend env safeMode acc res ≠ .ok r := by
      intro safeMode r h
      obtain ⟨⟨coin, rest⟩, hcoin, -⟩ := bind_eq_ok.mp h
      obtain ⟨parent, puzzleHash, amount, heq⟩ := parseSpentCoin_shape hcoin
      exact hshape ⟨parent, puzzleHash, amount, rest, heq⟩
    intro r
    simp [herror]

def generatorOutput (safeMode : Bool) (generator : BlockGenerator) (maxCost : ℕ) : Option (ℕ × SExp) :=
  env.runGenerator safeMode (maxCost - generator.program.length * env.constants.costPerByte)
    generator.program (createGeneratorArgs generator.generatorRefs)

def strictGenerator : Bool :=
  match generatorOutput env true generator maxCost with
  | some (_, result) => strictOutput result
  | none => true

lemma restricts_runBlockGenerator
    (hrun : generatorOutput env true generator maxCost = generatorOutput env false generator maxCost) :
    Restricts (runBlockGenerator env generator maxCost true)
      (runBlockGenerator env generator maxCost false) (strictGenerator env generator maxCost) := by
  unfold runBlockGenerator strictGenerator
  unfold generatorOutput at hrun ⊢
  apply restricts_bind_right
  intro maxCost' hcharge
  have hmax : maxCost' = maxCost - generator.program.length * env.constants.costPerByte := by
    unfold chargeCost at hcharge
    split at hcharge
    · cases hcharge
    · cases hcharge
      rfl
  rw [hmax, ← hrun]
  cases env.runGenerator true (maxCost - generator.program.length * env.constants.costPerByte)
      generator.program (createGeneratorArgs generator.generatorRefs) with
  | none => exact restricts_of_error
  | some r =>
    obtain ⟨clvmCost, result⟩ := r
    apply restricts_bind_right
    intro r hr
    cases hr
    apply restricts_bind_right
    intro maxCost'' _
    cases result with
    | atom bs => exact restricts_of_error
    | pair spends rest =>
      exact (restricts_foldIter (restricts_parseSpend env) spends (maxCost'', [])).bind _

lemma getNamePuzzleConditions_error {env : Env} {generator : BlockGenerator} {maxCost : ℕ} {safeMode : Bool} :
    (getNamePuzzleConditions env generator maxCost safeMode).error = none ↔
      ∃ r, runBlockGenerator env generator maxCost safeMode = .ok r := by
  unfold getNamePuzzleConditions
  cases runBlockGenerator env generator maxCost safeMode with
  | ok r => simp
  | error code => simp

lemma getNamePuzzleConditions_safe
    (hrun : generatorOutput env true generator maxCost = generatorOutput env false generator maxCost) :
    ((getNamePuzzleConditions env generator maxCost true).error = none ↔
      (getNamePuzzleConditions env generator maxCost false).error = none ∧
        strictGenerator env generator maxCost = true) ∧
    ((getNamePuzzleConditions env generator maxCost true).error = none →
      getNamePuzzleConditions env generator maxCost true = getNamePuzzleConditions env generator maxCost false) := by
  have hrestricts := restricts_runBlockGenerator env generator maxCost hrun
  rw [getNamePuzzleConditions_error, getNamePuzzleConditions_error]
  constructor
  · constructor
    · rintro ⟨r, hr⟩
      have hr' := (hrestricts r).mp hr
      exact ⟨⟨r, hr'.1⟩, hr'.2⟩
    · rintro ⟨⟨r, hr⟩, hstrict⟩
      exact ⟨r, (hrestricts r).mpr ⟨hr, hstrict⟩⟩
  · rintro ⟨r, hr⟩
    unfold getNamePuzzleConditions
    rw [hr, ((hrestricts r).mp hr).1]

end SectorChain.Proofs
