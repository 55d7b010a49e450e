import SectorChain.Proofs.ClvmEvaluation
import SectorChain.Proofs.ProgramStream
import SectorChain.Proofs.TemplateSearch

/-!
# Compressed generators mean the same

The block program is an induction over the spends.
-/

namespace SectorChain.Proofs

open Lib Clvm List

variable {key start : Bytes} {program puzzle : SExp}

lemma hexValue_hexDigit {n : ℕ} (h : n < 16) : hexValue (hexDigit n) = n := by
  revert n
  decide

lemma fromHex_hex (bs : Bytes) : fromHex (hex bs) = bs := by
  induction bs with
  | nil => rfl
  | cons b bs ih =>
    have hb : b.toNat < 256 := b.toNat_lt
    rw [hex_cons, fromHex, ih, hexValue_hexDigit (by omega), hexValue_hexDigit (by omega), Nat.div_add_mod]
    simp

lemma puzzle_of_match {puzzle : SerializedProgram}
    (h : matchStandardTransactionExactlyAndReturnPubkey puzzle = some key) :
    puzzle.buf = STANDARD_TRANSACTION_PUZZLE_PREFIX ++ key ++ STANDARD_TRANSACTION_PUZZLE_SUFFIX ∧ key.length = 49 := by
  unfold matchStandardTransactionExactlyAndReturnPubkey at h
  dsimp only at h
  split at h
  · rename_i hmatch
    obtain ⟨key', rest, hbuf, hkey', -⟩ := matchesPattern_hex.mp hmatch.1
    rw [drop_zero] at hbuf
    have hlength := hmatch.2
    rw [length_hex, patternLength_eq, hbuf, length_append, length_append, length_append, length_start,
      hkey'] at hlength
    have hnil : rest = [] := length_eq_zero_iff.mp (by
      change 2 * (238 + 49 + 4 + rest.length) = 582 at hlength
      omega)
    subst hnil
    rw [append_nil] at hbuf
    have hgroup : (puzzle.buf.drop 238).take 49 = key' := by
      rw [hbuf, append_assoc, ← length_start, drop_left, ← hkey', take_left]
    rw [pubkeyGroup_hex, fromHex_hex, hgroup] at h
    cases h
    exact ⟨hbuf, hkey'⟩
  · cases h

/-- `decompress_cses`, as it is compiled. -/
def decompressCses : SExp :=
  .ofList [.atom [2], .ofList [.atom [3], .atom [23], .pair (.atom [1]) (.ofList [.atom [4],
      .ofList [.atom [2], .atom [11], listProgram [.atom [47], .atom [5], .atom [95], .atom [39]]],
      .ofList [.atom [2], .atom [2], listProgram [.atom [2], .atom [5], .atom [11], .atom [55], .atom [47], .atom [95]]]]),
    .atom []], .atom [1]]

lemma programs_eq : DECOMPRESS_PUZZLE =
      .ofList [.atom [2], .atom [2], listProgram [.ofList [.atom [14], .atom [5], .atom [11], .atom [23]]]] ∧
    DECOMPRESS_CSE_WITH_PREFIX = .ofList [.atom [4], .atom [71], .ofList [.atom [4], .ofList [.atom [2], .atom [5],
        .ofList [.atom [4], .atom [2], .ofList [.atom [4], .atom [11], .ofList [.atom [4], .atom [151],
          .pair (.atom [1]) (.ofList [.atom STANDARD_TRANSACTION_PUZZLE_SUFFIX])]]]],
        .ofList [.atom [4], .atom [167], .atom [215]]]] ∧
    DECOMPRESS_BLOCK = .ofList [.atom [2],
        .pair (.atom [1]) (listProgram [.ofList [.atom [2], .atom [2], listProgram [.atom [2], .atom [5], .atom [11],
          .atom [95], .atom [191], .ofList [.atom [12], .atom [2, 127], .atom [23], .atom [47]]]]]),
        .ofList [.atom [4], .pair (.atom [1]) decompressCses, .atom [1]]] ∧
    decompressCses ≠ LOCAL_DESERIALIZE_MOD ∧
    ∀ program ∈ [DECOMPRESS_PUZZLE, DECOMPRESS_CSE_WITH_PREFIX, DECOMPRESS_BLOCK],
      program ≠ LOCAL_DESERIALIZE_MOD ∧ Writable program := by
  decide +kernel

lemma programs_writable (h : program ∈ [DECOMPRESS_PUZZLE, DECOMPRESS_CSE_WITH_PREFIX, DECOMPRESS_BLOCK]) :
    program ≠ LOCAL_DESERIALIZE_MOD ∧ Writable program :=
  programs_eq.2.2.2.2 program h

lemma evaluates_decompressPuzzle {stop : Bytes} (h : SExp.fromBytes (start ++ key ++ stop) = some puzzle) :
    Evaluates DECOMPRESS_PUZZLE (.ofList [LOCAL_DESERIALIZE_MOD, .atom start, .atom key, .atom stop]) puzzle := by
  have hjoined : Evaluates (.ofList [.atom [14], .atom [5], .atom [11], .atom [23]])
      (.ofList [LOCAL_DESERIALIZE_MOD, .atom start, .atom key, .atom stop]) (.atom (start ++ key ++ stop)) := by
    refine evaluates_operator (by decide) (evaluatesList_cons (evaluates_path rfl) (evaluatesList_cons
      (evaluates_path rfl) (evaluatesList_cons (evaluates_path rfl) evaluatesList_nil))) ?_
    simp [applyOperator, SExp.atom?]
  exact evaluates_deserialize (evaluatesList_cons (evaluates_path rfl) (evaluatesList_cons
    (evaluates_listProgram (.cons hjoined .nil)) evaluatesList_nil)) h

def compressedSpend (parent amount key solution : SExp) : SExp :=
  .ofList [.ofList [parent, amount], .ofList [key, solution]]

lemma evaluates_decompressCse {parent amount solution : SExp}
    (h : SExp.fromBytes (start ++ key ++ STANDARD_TRANSACTION_PUZZLE_SUFFIX) = some puzzle) :
    Evaluates DECOMPRESS_CSE_WITH_PREFIX (.ofList [LOCAL_DESERIALIZE_MOD, DECOMPRESS_PUZZLE, .atom start,
      compressedSpend parent amount (.atom key) solution]) (.ofList [parent, puzzle, amount, solution]) := by
  refine evaluates_c (evaluates_path rfl) (evaluates_c ?_ (evaluates_c (evaluates_path rfl) (evaluates_path rfl)))
  refine evaluates_a (evaluates_path rfl) ?_ (programs_writable (by simp)).1 (evaluates_decompressPuzzle h)
  exact evaluates_c (evaluates_path rfl) (evaluates_c (evaluates_path rfl) (evaluates_c (evaluates_path rfl)
    evaluates_quote))

lemma evaluates_decompressCses {ι : Type} {compressed entry : ι → SExp} {spends : List ι}
    (h : ∀ spend ∈ spends, Evaluates DECOMPRESS_CSE_WITH_PREFIX (.ofList [LOCAL_DESERIALIZE_MOD, DECOMPRESS_PUZZLE,
      .atom start, compressed spend]) (entry spend)) :
    Evaluates decompressCses (.ofList [decompressCses, DECOMPRESS_PUZZLE, DECOMPRESS_CSE_WITH_PREFIX,
      .ofList (spends.map compressed), LOCAL_DESERIALIZE_MOD, .atom start]) (.ofList (spends.map entry)) := by
  induction spends with
  | nil =>
    have hfalse : truthy (.ofList (([] : List ι).map compressed)) = false := rfl
    refine evaluates_if (evaluates_path rfl) evaluates_quote evaluates_nil ?_ ?_
    · rw [hfalse]
      decide +kernel
    · exact evaluates_nil
  | cons spend spends ih =>
    have htrue : truthy (.ofList ((spend :: spends).map compressed)) = true := by simp [truthy, SExp.ofList]
    refine evaluates_if (evaluates_path rfl) evaluates_quote evaluates_nil ?_ ?_
    · rw [htrue]
      decide +kernel
    have hfirst := h spend mem_cons_self
    have hrest := ih fun other hother => h other (mem_cons_of_mem _ hother)
    refine evaluates_c (evaluates_a (evaluates_path rfl) (evaluates_listProgram ?_)
      (programs_writable (by simp)).1 hfirst)
      (evaluates_a (evaluates_path rfl) (evaluates_listProgram ?_) programs_eq.2.2.2.1 hrest)
    · exact .cons (evaluates_path rfl) (.cons (evaluates_path rfl) (.cons (evaluates_path rfl)
        (.cons (evaluates_path rfl) .nil)))
    · exact .cons (evaluates_path rfl) (.cons (evaluates_path rfl) (.cons (evaluates_path rfl)
        (.cons (evaluates_path rfl) (.cons (evaluates_path rfl) (.cons (evaluates_path rfl) .nil)))))

def blockEnv (start stop : ℕ) (cses : SExp) (generator : Bytes) : SExp :=
  .ofList [DECOMPRESS_PUZZLE, DECOMPRESS_CSE_WITH_PREFIX, .atom (intToBytes start), .atom (intToBytes stop), cses,
    LOCAL_DESERIALIZE_MOD, .ofList [.atom generator]]

lemma evaluates_decompressBlock {ι : Type} {compressed entry : ι → SExp} {spends : List ι} {start stop : ℕ}
    {gen : Bytes} (hstart : start ≤ stop) (hstop : stop ≤ gen.length)
    (h : ∀ spend ∈ spends, Evaluates DECOMPRESS_CSE_WITH_PREFIX (.ofList [LOCAL_DESERIALIZE_MOD, DECOMPRESS_PUZZLE,
      .atom ((gen.drop start).take (stop - start)), compressed spend]) (entry spend)) :
    Evaluates DECOMPRESS_BLOCK (blockEnv start stop (.ofList (spends.map compressed)) gen)
      (.ofList [.ofList (spends.map entry)]) := by
  rw [programs_eq.2.2.1]
  have hslice : applyOperator [12] [.atom gen, .atom (intToBytes start), .atom (intToBytes stop)] =
      some (.atom ((gen.drop start).take (stop - start))) := by
    have hrange : (0 : ℤ) ≤ start ∧ (start : ℤ) ≤ stop ∧ (stop : ℤ) ≤ gen.length := by omega
    have hlength : ((stop : ℤ) - start).toNat = stop - start := by omega
    change substr gen (beInt (intToBytes start)) (beInt (intToBytes stop)) = _
    rw [beInt_intToBytes, beInt_intToBytes, substr, if_pos hrange, hlength, Int.toNat_natCast]
  refine evaluates_a evaluates_quote (evaluates_c evaluates_quote (evaluates_path rfl)) (by decide +kernel)
    (evaluates_listProgram (.cons ?_ .nil))
  refine evaluates_a (evaluates_path rfl) (evaluates_listProgram ?_) programs_eq.2.2.2.1 (evaluates_decompressCses h)
  refine .cons (evaluates_path rfl) (.cons (evaluates_path rfl) (.cons (evaluates_path rfl)
    (.cons (evaluates_path rfl) (.cons (evaluates_path rfl) (.cons ?_ .nil)))))
  refine evaluates_operator (by decide) (evaluatesList_cons (evaluates_path ?_) (evaluatesList_cons (evaluates_path rfl)
    (evaluatesList_cons (evaluates_path rfl) evaluatesList_nil))) hslice
  rw [show beNat [2, 127] = 639 from rfl]
  rfl

lemma compressCoinSolution_eq (cs : CoinSolution) : compressCoinSolution cs =
    compressedSpend (.atom cs.coin.parentCoinInfo.toBytes) (.atom (intToBytes cs.coin.amount))
      (.atom ((compressCsePuzzle cs.puzzleReveal).getD [])) cs.solution.program := rfl

lemma template_slice {height : ℕ} {program : SerializedProgram} {template : CompressorArg}
    (h : detectPotentialTemplateGenerator height program = .ok (some template)) :
    template.generator = program ∧ template.start ≤ template.stop ∧ template.stop ≤ program.buf.length ∧
      (program.buf.drop template.start).take (template.stop - template.start) = STANDARD_TRANSACTION_PUZZLE_PREFIX := by
  unfold detectPotentialTemplateGenerator at h
  cases hsearch : searchPattern (hex program.buf) with
  | none =>
    have hnone : matchStandardTransactionAtAnyIndex program.buf = .ok none := by
      unfold matchStandardTransactionAtAnyIndex
      rw [hsearch]
    rw [hnone] at h
    cases h
  | some first =>
    rcases Nat.mod_two_eq_zero_or_one first with heven | hodd
    · obtain ⟨k, rfl⟩ : ∃ k, first = 2 * k := ⟨first / 2, by omega⟩
      obtain ⟨hmatch, key, rest, hdrop, -, -⟩ := match_of_even hsearch
      rw [hmatch] at h
      change Except.ok (if _ then some _ else none) = _ at h
      split at h
      · cases h
        have hslice : (program.buf.drop k).take (k + 238 - k) = STANDARD_TRANSACTION_PUZZLE_PREFIX := by
          rw [hdrop, Nat.add_sub_cancel_left, append_assoc, append_assoc, ← length_start, take_left]
        have hlength := congrArg List.length hslice
        rw [length_take, length_drop, length_start] at hlength
        exact ⟨rfl, Nat.le_add_right _ _, by dsimp only; omega, hslice⟩
      · cases h
    · rw [match_of_odd hsearch hodd] at h
      cases h

lemma writable_curry {args : List SExp} (hprogram : Writable program) (hargs : ∀ v ∈ args, Writable v) :
    Writable (curry program args) := by
  have hkeyword : ∀ b : UInt8, Writable (.atom [b]) := fun b => Nat.one_lt_succ_succ _
  have hnil : Writable (.atom []) := Nat.zero_lt_succ _
  have hcurried : Writable (curriedArgs args) := by
    induction args with
    | nil => exact hkeyword 1
    | cons arg args ih =>
      exact ⟨hkeyword 4, ⟨hkeyword 1, hargs arg mem_cons_self⟩, ih fun v hv => hargs v (mem_cons_of_mem _ hv), hnil⟩
  exact ⟨hkeyword 2, ⟨hkeyword 1, hprogram⟩, hcurried, hnil⟩

lemma evaluates_compressCoinSolution {cs : CoinSolution} (h : puzzleSuitableForCompression cs.puzzleReveal = true) :
    Evaluates DECOMPRESS_CSE_WITH_PREFIX (.ofList [LOCAL_DESERIALIZE_MOD, DECOMPRESS_PUZZLE,
      .atom STANDARD_TRANSACTION_PUZZLE_PREFIX, compressCoinSolution cs]) (entryValue cs) := by
  obtain ⟨key, hkey⟩ := Option.isSome_iff_exists.mp h
  obtain ⟨hbuf, -⟩ := puzzle_of_match hkey
  have hread := cs.puzzleReveal.fromBytes_buf
  rw [hbuf] at hread
  rw [compressCoinSolution_eq, compressCsePuzzle, hkey]
  exact evaluates_decompressCse hread

lemma writable_compressCoinSolution {cs : CoinSolution} (h : puzzleSuitableForCompression cs.puzzleReveal = true) :
    Writable (compressCoinSolution cs) := by
  obtain ⟨key, hkey⟩ := Option.isSome_iff_exists.mp h
  obtain ⟨-, hlength⟩ := puzzle_of_match hkey
  have hparent : Writable (.atom cs.coin.parentCoinInfo.toBytes) := by simp [Writable]
  have hamount : Writable (.atom (intToBytes cs.coin.amount)) := length_intToBytes cs.coin.amount_lt
  have hkey' : Writable (.atom key) := by
    change key.length < 0x400000000
    omega
  have hnil : Writable (.atom []) := Nat.zero_lt_succ _
  rw [compressCoinSolution_eq, compressCsePuzzle, hkey]
  exact ⟨⟨hparent, hamount, hnil⟩, ⟨hkey', (spells_program cs.solution).writable, hnil⟩, hnil⟩

lemma writable_compressedProgram {block cse : SExp} (hblock : Writable block) (hpuzzle : Writable puzzle)
    (hcse : Writable cse) {start stop : ℕ} (hstart : start < 2 ^ 64) (hstop : stop < 2 ^ 64) {bundle : SpendBundle}
    (hsuitable : bundleSuitableForCompression bundle = true) :
    Writable (curry block [puzzle, cse, .atom (intToBytes start), .atom (intToBytes stop),
      compressedCoinSolutionEntryList bundle]) := by
  have hcses : Writable (compressedCoinSolutionEntryList bundle) := by
    refine writable_ofList fun v hv => ?_
    obtain ⟨cs, hcs, rfl⟩ := mem_map.mp hv
    exact writable_compressCoinSolution (all_eq_true.mp hsuitable cs hcs)
  apply writable_curry hblock
  simp only [forall_mem_cons, not_mem_nil, false_implies, implies_true, and_true]
  exact ⟨hpuzzle, hcse, length_intToBytes hstart, length_intToBytes hstop, hcses⟩

lemma fromBytes_compressed {template : CompressorArg} {bundle : SpendBundle} (hstart : template.start < 2 ^ 64)
    (hstop : template.stop < 2 ^ 64) (hsuitable : bundleSuitableForCompression bundle = true) :
    SExp.fromBytes (compressedSpendBundleSolution template bundle).program =
      some (compressedProgram template (compressedCoinSolutionEntryList bundle)) :=
  spells_iff.mp (spells_asBin (writable_compressedProgram (programs_writable (by simp)).2
    (programs_writable (by simp)).2 (programs_writable (by simp)).2
    hstart hstop hsuitable))

lemma generatorEntries_of_evaluates {gen : BlockGenerator} {v rest : SExp}
    (hprogram : SExp.fromBytes gen.program = some program)
    (h : Evaluates program (.ofList [LOCAL_DESERIALIZE_MOD, .ofList (gen.generatorRefs.map .atom)]) (.pair v rest)) :
    ∃ depth, ∀ depth', depth ≤ depth' → generatorEntries depth' gen = some v := by
  obtain ⟨depth, h⟩ := h
  refine ⟨depth, fun depth' hle => ?_⟩
  unfold generatorEntries
  rw [hprogram, Option.bind_eq_bind, Option.bind_some, eval_mono hle h]
  rfl

/-- A bundle of standard puzzles: its compressed generator yields the entries of the simple one. -/
theorem compression_preserves_entries {height : ℕ} {program : SerializedProgram} {template : CompressorArg}
    {bundle : SpendBundle} (hlength : program.buf.length < 2 ^ 63)
    (htemplate : detectPotentialTemplateGenerator height program = .ok (some template))
    (hsuitable : bundleSuitableForCompression bundle = true) :
    ∃ depth, ∀ depth', depth ≤ depth' → generatorEntries depth' (compressedSpendBundleSolution template bundle) =
          some (.ofList (bundle.coinSolutions.map entryValue)) ∧
        generatorEntries depth' (simpleSolutionGenerator bundle) =
          some (.ofList (bundle.coinSolutions.map entryValue)) := by
  obtain ⟨hgenerator, hstart, hstop, hslice⟩ := template_slice htemplate
  have hprogram := @fromBytes_compressed template bundle (by omega) (by omega) hsuitable
  have hspends : ∀ cs ∈ bundle.coinSolutions, Evaluates DECOMPRESS_CSE_WITH_PREFIX (.ofList [LOCAL_DESERIALIZE_MOD,
      DECOMPRESS_PUZZLE, .atom ((program.buf.drop template.start).take (template.stop - template.start)),
      compressCoinSolution cs]) (entryValue cs) := by
    intro cs hcs
    rw [hslice]
    exact evaluates_compressCoinSolution (all_eq_true.mp hsuitable cs hcs)
  have hblock := evaluates_decompressBlock hstart hstop hspends
  rw [← hgenerator] at hblock
  obtain ⟨n, hcompressed⟩ := generatorEntries_of_evaluates hprogram (evaluates_curry (programs_writable (by simp)).1
    hblock)
  obtain ⟨n', hsimple⟩ := generatorEntries_of_evaluates (fromBytes_simpleSolutionGenerator bundle) evaluates_quote
  exact ⟨max n n', fun depth' hle => ⟨hcompressed depth' (by omega), hsimple depth' (by omega)⟩⟩

def standardPuzzle : SerializedProgram where
  buf := STANDARD_TRANSACTION_PUZZLE_PREFIX ++ (0xb0 :: List.replicate 48 0) ++ STANDARD_TRANSACTION_PUZZLE_SUFFIX
  program := loadClvm (STANDARD_TRANSACTION_PUZZLE_PREFIX ++ (0xb0 :: List.replicate 48 0) ++
    STANDARD_TRANSACTION_PUZZLE_SUFFIX)
  fromBytes_buf := by decide +kernel

def quotedPuzzle : SerializedProgram where
  buf := 0xff :: 1 :: standardPuzzle.buf
  program := .pair (.atom [1]) standardPuzzle.program
  fromBytes_buf := by decide +kernel

def standardBundle : SpendBundle where
  coinSolutions := [⟨⟨.ofNat 32 7, .ofNat 32 8, 9, by decide⟩, standardPuzzle, ⟨[0x80], .atom [], by decide⟩⟩,
    ⟨⟨.ofNat 32 5, .ofNat 32 8, 6, by decide⟩, standardPuzzle, ⟨[1], .atom [1], by decide⟩⟩]
  aggregatedSignature := .ofNat 96 0

theorem compression_preserves_entries_standard :
    ∃ template, detectPotentialTemplateGenerator 5 quotedPuzzle = .ok (some template) ∧ template.start = 2 ∧
      bundleSuitableForCompression standardBundle = true ∧
      ∃ depth, ∀ depth', depth ≤ depth' →
        generatorEntries depth' (compressedSpendBundleSolution template standardBundle) =
            some (.ofList (standardBundle.coinSolutions.map entryValue)) ∧
          generatorEntries depth' (simpleSolutionGenerator standardBundle) =
            some (.ofList (standardBundle.coinSolutions.map entryValue)) := by
  have hruns : detectPotentialTemplateGenerator 5 quotedPuzzle = .ok (some ⟨5, quotedPuzzle, 2, 240⟩) ∧
      bundleSuitableForCompression standardBundle = true ∧ quotedPuzzle.buf.length < 2 ^ 63 := by
    decide +kernel
  obtain ⟨htemplate, hsuitable, hlength⟩ := hruns
  exact ⟨_, htemplate, rfl, hsuitable, compression_preserves_entries hlength htemplate hsuitable⟩

end SectorChain.Proofs
