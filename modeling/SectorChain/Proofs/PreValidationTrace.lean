import SectorChain.Consensus.PreValidation
import SectorChain.Proofs.BodyChecks

/-!
# Records that pre-validation leaves behind
-/

namespace SectorChain.Proofs

open Lib List Dict

inductive Stop where
  | raised (error : PyError)
  | otherSummary
  | invalidProof
deriving DecidableEq

structure LoopState where
  blocks : BlockchainInterface
  batch : BatchState

section

variable (env : PreValidationEnv) (wpSummaries : Option (List SubEpochSummary))
variable {blocks : BlockchainInterface} {l rest : List FullBlock} {was : List (FullBlock × Bool)}
variable {outcome : Except PyError Unit × Node} {r : BlockRecord} {x : Bytes32}

def nextState (st : LoopState) (block : FullBlock) : Except Stop LoopState :=
  match temporaryRecord env wpSummaries st.blocks st.batch.recent.recentBlocks st.batch.prevB block with
  | .error e => .error (.raised e)
  | .ok .invalidProof => .error .invalidProof
  | .ok .otherSummary => .error .otherSummary
  | .ok (.record blockRec difficulty subSlotIters) =>
    let known := st.blocks.blockRecords.get? blockRec.headerHash
    .ok ⟨if known.isSome then st.blocks
        else { st.blocks with blockRecords := st.blocks.blockRecords.set blockRec.headerHash blockRec },
      ⟨st.batch.recent.add blockRec.headerHash (known.getD blockRec), some blockRec,
        st.batch.diffSsis ++ [(difficulty, subSlotIters)]⟩⟩

def startState (s : Node) (recent : RecentBlocks) : LoopState := ⟨s.blocks, ⟨recent, none, []⟩⟩

def newHashes (s : Node) (batch : List FullBlock) : List Bytes32 :=
  (batch.map (FullBlock.headerHash env.stdHash)).filter fun h => !s.blockRecords.contains h

/-- A loop that stops early knew all blocks before; else a new hash comes up again only after all new ones. -/
structure LeavesNoTrace (s : Node) (batch : List FullBlock) : Prop where
  stops : ∀ recent pre block post st stop, recentBlocksOf env s.blocks batch = .ok (some recent) →
    batch = pre ++ block :: post → pre.foldlM (nextState env wpSummaries) (startState s recent) = .ok st →
    nextState env wpSummaries st block = .error stop → stop ≠ .invalidProof → newHashes env s pre = []
  finishes : ∀ recent st, recentBlocksOf env s.blocks batch = .ok (some recent) →
    batch.foldlM (nextState env wpSummaries) (startState s recent) = .ok st →
    ∀ pre block post, batch = pre ++ block :: post → block.headerHash env.stdHash ∈ newHashes env s pre →
      newHashes env s post ⊆ newHashes env s pre

end

variable {env : PreValidationEnv} {wpSummaries : Option (List SubEpochSummary)} {s₀ s s' : Node} {H : Set Bytes32}

/-- The records of `s₀`, and those of the hashes `H`. -/
structure HasTemporary (s₀ : Node) (H : Set Bytes32) (s : Node) : Prop where
  others : ∀ h, h ∉ H → s.blockRecords.get? h = s₀.blockRecords.get? h
  absent : ∀ h ∈ H, s₀.blockRecords.get? h = none
  present : ∀ h ∈ H, ∃ r, s.blockRecords.get? h = some r ∧ h ∈ (s.heightsInCache.get? r.height).getD []

lemma hasTemporary_self (s : Node) : HasTemporary s ∅ s := ⟨fun _ _ => rfl, fun _ h => h.elim, fun _ h => h.elim⟩

lemma HasTemporary.same_iff (h : HasTemporary s₀ H s) :
    (∀ x, s.blockRecords.get? x = s₀.blockRecords.get? x) ↔ H = ∅ := by
  constructor
  · intro hsame
    refine Set.eq_empty_of_forall_notMem fun x hx => ?_
    obtain ⟨r, hr, -⟩ := h.present x hx
    rw [hsame x, h.absent x hx] at hr
    cases hr
  · rintro rfl x
    exact h.others x fun hx => hx

lemma HasTemporary.notMem_of_none (h : HasTemporary s₀ H s) (hx : s.blockRecords.get? x = none) : x ∉ H := by
  intro hmem
  obtain ⟨r, hr, -⟩ := h.present x hmem
  rw [hx] at hr
  cases hr

lemma HasTemporary.add (h : HasTemporary s₀ H s) (hnew : s.blockRecords.get? r.headerHash = none) :
    HasTemporary s₀ (insert r.headerHash H) (exec (addBlockRecord r) s).2 := by
  have hout : r.headerHash ∉ H := h.notMem_of_none hnew
  unfold addBlockRecord
  rw [exec_modify]
  refine ⟨?_, ?_, ?_⟩
  · intro x hx
    rw [Set.mem_insert_iff, not_or] at hx
    rw [get?_set_of_ne _ _ hx.1]
    exact h.others x hx.2
  · rintro x (rfl | hx)
    · rw [← h.others _ hout]
      exact hnew
    · exact h.absent x hx
  rintro x (rfl | hx)
  · exact ⟨r, get?_set_self _ _ _, by simp⟩
  obtain ⟨r', hr', hmem⟩ := h.present x hx
  have hne : x ≠ r.headerHash := fun heq => hout (heq ▸ hx)
  refine ⟨r', by rw [get?_set_of_ne _ _ hne]; exact hr', ?_⟩
  rw [get?_set]
  split
  · rename_i hheight
    rw [← hheight]
    exact mem_insert_of_mem hmem
  · exact hmem

lemma removeBlockRecord_present {hashes : List Bytes32}
    (hr : s.blockRecords.get? x = some r) (hhashes : s.heightsInCache.get? r.height = some hashes) (hmem : x ∈ hashes) :
    exec (removeBlockRecord x) s = (.ok (), { s with
      blockRecords := s.blockRecords.erase x
      heightsInCache := s.heightsInCache.set r.height (hashes.erase x) }) := by
  have hrecord : s.blocks.blockRecord x = .ok r := by
    unfold BlockchainInterface.blockRecord Node.blocks
    rw [hr]
  unfold removeBlockRecord
  rw [exec_get_bind, hrecord, exec_lift_ok_bind, exec_modify_bind, exec_get_bind]
  rw [hhashes]
  dsimp only
  rw [if_pos hmem]
  rfl

lemma HasTemporary.remove (h : HasTemporary s₀ H s) (hx : x ∈ H) :
    ∃ s', exec (removeBlockRecord x) s = (.ok (), s') ∧ HasTemporary s₀ (H \ {x}) s' := by
  obtain ⟨r, hr, hmem⟩ := h.present x hx
  obtain ⟨hashes, hhashes, hmem⟩ := Dict.exists_of_mem_getD hmem
  refine ⟨_, removeBlockRecord_present hr hhashes hmem, ?_⟩
  refine ⟨?_, fun y hy => h.absent y hy.1, ?_⟩
  · intro y hy
    rw [get?_erase]
    split
    · rename_i heq
      rw [heq, h.absent x hx]
    · rename_i hne
      exact h.others y fun hmem => hy ⟨hmem, hne⟩
  · rintro y ⟨hy, hne⟩
    have hne : y ≠ x := hne
    obtain ⟨r', hr', hmem'⟩ := h.present y hy
    refine ⟨r', by rw [get?_erase, if_neg hne]; exact hr', ?_⟩
    rw [get?_set]
    split
    · rename_i hheight
      rw [hheight, hhashes] at hmem'
      exact (mem_erase_of_ne hne).mpr hmem'
    · exact hmem'

lemma removeBlockRecord_absent (h : s.blockRecords.get? x = none) :
    exec (removeBlockRecord x) s = (.error .keyError, s) := by
  have hrecord : s.blocks.blockRecord x = .error .keyError := by
    unfold BlockchainInterface.blockRecord Node.blocks
    rw [h]
  unfold removeBlockRecord
  rw [exec_get_bind, hrecord]
  rfl

lemma headerHash_blockToBlockRecord {env : Env} {requiredIters : ℕ} {block : FullBlock}
    {record : BlockRecord} (h : blockToBlockRecord env blocks requiredIters block = .ok record) :
    record.headerHash = block.headerHash env.stdHash := by
  unfold blockToBlockRecord at h
  split at h
  · simp only [bind_eq_ok] at h
    obtain ⟨_, -, _, -, _, -, _, -, h⟩ := h
    cases h
    rfl
  · simp only [bind_eq_ok] at h
    obtain ⟨_, -, _, -, _, -, h⟩ := h
    cases h
    rfl

lemma headerHash_of_temporaryRecord {recentBlocks : Dict Bytes32 BlockRecord}
    {prevB : Option BlockRecord} {block : FullBlock} {diff ssi : ℕ}
    (h : temporaryRecord env wpSummaries blocks recentBlocks prevB block = .ok (.record r diff ssi)) :
    r.headerHash = block.headerHash env.stdHash := by
  obtain ⟨_, -, h⟩ := bind_eq_ok.mp h
  obtain ⟨⟨_, _⟩, -, h⟩ := bind_eq_ok.mp h
  obtain ⟨iters, -, h⟩ := bind_eq_ok.mp h
  cases iters with
  | none => cases h
  | some requiredIters =>
    obtain ⟨blockRec, hrec, h⟩ := bind_eq_ok.mp h
    obtain ⟨agrees, -, h⟩ := bind_eq_ok.mp h
    cases agrees with
    | false => cases h
    | true =>
      cases h
      exact headerHash_blockToBlockRecord hrec

lemma newHashes_append (s : Node) (l l' : List FullBlock) :
    newHashes env s (l ++ l') = newHashes env s l ++ newHashes env s l' := by
  unfold newHashes
  rw [map_append, filter_append]

lemma mem_newHashes_singleton {block : FullBlock} : x ∈ newHashes env s [block] ↔
    x = block.headerHash env.stdHash ∧ s.blockRecords.get? x = none := by
  unfold newHashes Dict.contains
  rw [mem_filter]
  cases s.blockRecords.get? x <;> simp

def newSet (env : PreValidationEnv) (s : Node) (batch : List FullBlock) : Set Bytes32 :=
  {x | x ∈ newHashes env s batch}

lemma newSet_snoc (s : Node) (l : List FullBlock) (block : FullBlock) :
    newSet env s (l ++ [block]) = newSet env s l ∪ newSet env s [block] := by
  ext x
  unfold newSet
  rw [newHashes_append]
  exact mem_append

lemma addTemporaryRecords_round (was : List (FullBlock × Bool)) {pre : List FullBlock} (rest : List FullBlock)
    {block : FullBlock} {st : BatchState} {st' : LoopState}
    (hnext : nextState env wpSummaries ⟨s.blocks, st⟩ block = .ok st')
    (h : HasTemporary s₀ (newSet env s₀ pre) s) : ∃ s',
      exec (addTemporaryRecords env wpSummaries was (block :: rest) st) s =
        exec (addTemporaryRecords env wpSummaries was rest st'.batch) s' ∧
      s'.blocks = st'.blocks ∧ HasTemporary s₀ (newSet env s₀ (pre ++ [block])) s' := by
  unfold nextState at hnext
  cases htemporary : temporaryRecord env wpSummaries s.blocks st.recent.recentBlocks st.prevB block with
  | error e =>
    rw [htemporary] at hnext
    cases hnext
  | ok result =>
    rw [htemporary] at hnext
    cases result with
    | invalidProof => cases hnext
    | otherSummary => cases hnext
    | record r diff ssi =>
      have hhash := headerHash_of_temporaryRecord htemporary
      rw [addTemporaryRecords, exec_get_bind, htemporary, exec_lift_ok_bind]
      dsimp only at hnext ⊢
      cases hget : s.blockRecords.get? r.headerHash with
      | none =>
        have hget' : s.blocks.blockRecords.get? r.headerHash = none := hget
        have hout := h.notMem_of_none hget
        rw [hget'] at hnext
        cases hnext
        refine ⟨(exec (addBlockRecord r) s).2, rfl, rfl, ?_⟩
        have hset : newSet env s₀ (pre ++ [block]) = insert r.headerHash (newSet env s₀ pre) := by
          rw [newSet_snoc, Set.union_comm]
          congr 1
          ext x
          refine mem_newHashes_singleton.trans ⟨fun hx => hx.1.trans hhash.symm, ?_⟩
          rintro rfl
          exact ⟨hhash, (h.others _ hout).symm.trans hget⟩
        rw [hset]
        exact h.add hget
      | some known =>
        have hget' : s.blocks.blockRecords.get? r.headerHash = some known := hget
        rw [hget'] at hnext
        cases hnext
        refine ⟨s, rfl, rfl, ?_⟩
        have hset : newSet env s₀ (pre ++ [block]) = newSet env s₀ pre := by
          rw [newSet_snoc]
          refine Set.union_eq_left.mpr fun x hx => ?_
          obtain ⟨rfl, hnone⟩ := mem_newHashes_singleton.mp hx
          by_contra hout
          rw [hhash, h.others _ hout, hnone] at hget
          cases hget
        rw [hset]
        exact h

def stopOutcome (env : PreValidationEnv) (was : List (FullBlock × Bool)) (s : Node) :
    Stop → Except PyError (Option BatchState) × Node
  | .raised e => (.error e, s)
  | .otherSummary => (.ok none, s)
  | .invalidProof => exec (do removePresent env was; return none) s

lemma addTemporaryRecords_stop {block : FullBlock}
    {st : BatchState} {stop : Stop} (hnext : nextState env wpSummaries ⟨s.blocks, st⟩ block = .error stop) :
    exec (addTemporaryRecords env wpSummaries was (block :: rest) st) s = stopOutcome env was s stop := by
  unfold nextState at hnext
  unfold addTemporaryRecords
  rw [exec_get_bind]
  cases htemporary : temporaryRecord env wpSummaries s.blocks st.recent.recentBlocks st.prevB block with
  | error e =>
    rw [htemporary] at hnext
    cases hnext
    rfl
  | ok result =>
    rw [htemporary] at hnext
    cases result with
    | invalidProof =>
      cases hnext
      rfl
    | otherSummary =>
      cases hnext
      rfl
    | record r diff ssi => cases hnext

/-- How the loop over the batch can end. -/
inductive LoopEnd (env : PreValidationEnv) (wpSummaries : Option (List SubEpochSummary)) (s₀ : Node)
    (was : List (FullBlock × Bool)) (start : LoopState) (before rest : List FullBlock) :
    Except PyError (Option BatchState) × Node → Prop where
  | done (st : LoopState) (s : Node) : rest.foldlM (nextState env wpSummaries) start = .ok st →
      HasTemporary s₀ (newSet env s₀ (before ++ rest)) s →
      LoopEnd env wpSummaries s₀ was start before rest (.ok st.batch, s)
  | stopped (pre post : List FullBlock) (block : FullBlock) (st : LoopState) (stop : Stop) (s : Node) :
      rest = pre ++ block :: post → pre.foldlM (nextState env wpSummaries) start = .ok st →
      nextState env wpSummaries st block = .error stop → HasTemporary s₀ (newSet env s₀ (before ++ pre)) s →
      LoopEnd env wpSummaries s₀ was start before rest (stopOutcome env was s stop)

lemma loopEnd_addTemporaryRecords {before : List FullBlock} {st : BatchState}
    (h : HasTemporary s₀ (newSet env s₀ before) s) :
    LoopEnd env wpSummaries s₀ was ⟨s.blocks, st⟩ before rest
      (exec (addTemporaryRecords env wpSummaries was rest st) s) := by
  induction rest generalizing before st s with
  | nil =>
    refine .done ⟨s.blocks, st⟩ s rfl ?_
    rw [append_nil]
    exact h
  | cons block rest ih =>
    cases hnext : nextState env wpSummaries ⟨s.blocks, st⟩ block with
    | error stop =>
      rw [addTemporaryRecords_stop hnext]
      refine .stopped [] rest block ⟨s.blocks, st⟩ stop s rfl rfl hnext ?_
      rw [append_nil]
      exact h
    | ok st' =>
      obtain ⟨s', hexec, hblocks, hholds⟩ := addTemporaryRecords_round was rest hnext h
      rw [hexec]
      obtain ⟨blocks, batch⟩ := st'
      cases hblocks
      have hrest : LoopEnd env wpSummaries s₀ was ⟨s'.blocks, batch⟩ (before ++ [block]) rest
          (exec (addTemporaryRecords env wpSummaries was rest batch) s') := ih hholds
      generalize exec (addTemporaryRecords env wpSummaries was rest batch) s' = outcome at hrest
      cases hrest with
      | done st'' s'' hfold hfinal =>
        refine .done st'' s'' ?_ (by simpa using hfinal)
        rw [foldlM_cons, hnext]
        exact hfold
      | stopped pre post b st'' stop s'' hsplit hfold hstop hfinal =>
        refine .stopped (block :: pre) post b st'' stop s'' (by rw [hsplit]; rfl) ?_ hstop (by simpa using hfinal)
        rw [foldlM_cons, hnext]
        exact hfold

def presence (env : PreValidationEnv) (s : Node) (block : FullBlock) : FullBlock × Bool :=
  (block, s.blocks.containsBlock (block.headerHash env.stdHash))

lemma newSet_cons (s : Node) (block : FullBlock) (l : List FullBlock) :
    newSet env s (block :: l) = newSet env s [block] ∪ newSet env s l := by
  ext x
  unfold newSet
  rw [← singleton_append, newHashes_append]
  exact mem_append

lemma newSet_of_known {block : FullBlock} (h : s.blocks.containsBlock (block.headerHash env.stdHash) = true) :
    newSet env s [block] = ∅ := by
  refine Set.eq_empty_of_forall_notMem fun x hx => ?_
  obtain ⟨rfl, hnone⟩ := mem_newHashes_singleton.mp hx
  obtain ⟨r, hr⟩ := Dict.contains_iff.mp h
  rw [show s.blockRecords.get? _ = _ from hr] at hnone
  cases hnone

lemma newSet_of_new {block : FullBlock} (h : s.blocks.containsBlock (block.headerHash env.stdHash) = false) :
    newSet env s [block] = {block.headerHash env.stdHash} ∧
      s.blockRecords.get? (block.headerHash env.stdHash) = none := by
  have hnone : s.blockRecords.get? (block.headerHash env.stdHash) = none := by
    cases hget : s.blockRecords.get? (block.headerHash env.stdHash) with
    | none => rfl
    | some r =>
      have hcontains : s.blocks.containsBlock (block.headerHash env.stdHash) = true := Dict.contains_iff.mpr ⟨r, hget⟩
      rw [h] at hcontains
      cases hcontains
  refine ⟨?_, hnone⟩
  ext x
  refine mem_newHashes_singleton.trans ⟨fun hx => hx.1, ?_⟩
  rintro rfl
  exact ⟨rfl, hnone⟩

lemma HasTemporary.removePresent (h : HasTemporary s₀ H s) (l : List FullBlock) :
    ∃ s', exec (SectorChain.removePresent env (l.map (presence env s₀))) s = (.ok (), s') ∧
      HasTemporary s₀ (H \ newSet env s₀ l) s' := by
  induction l generalizing H s with
  | nil => exact ⟨s, rfl, by simpa [newSet, newHashes] using h⟩
  | cons block l ih =>
    rw [newSet_cons, ← Set.sdiff_sdiff]
    unfold SectorChain.removePresent
    rw [map_cons, exec_forM_cons]
    cases hknown : s₀.blocks.containsBlock (block.headerHash env.stdHash) with
    | true =>
      rw [newSet_of_known hknown, Set.sdiff_empty]
      obtain ⟨s', hexec, hfinal⟩ := ih h
      refine ⟨s', ?_, hfinal⟩
      rw [← hexec, presence, hknown]
      rfl
    | false =>
      obtain ⟨hset, hnone⟩ := newSet_of_new hknown
      rw [hset]
      by_cases hmem : block.headerHash env.stdHash ∈ H
      · obtain ⟨s₁, hremove, hholds⟩ := h.remove hmem
        obtain ⟨r, hr, -⟩ := h.present _ hmem
        obtain ⟨s', hexec, hfinal⟩ := ih hholds
        refine ⟨s', ?_, hfinal⟩
        have hcontains : s.blocks.containsBlock (block.headerHash env.stdHash) = true := Dict.contains_iff.mpr ⟨r, hr⟩
        rw [presence, hknown, bind_assoc, exec_get_bind]
        simp only [Bool.not_false, Bool.true_and, hcontains, if_true]
        rw [exec_bind_of_ok hremove]
        exact hexec
      · rw [Set.sdiff_singleton_eq_self hmem]
        obtain ⟨s', hexec, hfinal⟩ := ih h
        refine ⟨s', ?_, hfinal⟩
        have hcontains : s.blocks.containsBlock (block.headerHash env.stdHash) = false := by
          have hget : s.blocks.blockRecords.get? (block.headerHash env.stdHash) = none := (h.others _ hmem).trans hnone
          unfold BlockchainInterface.containsBlock Dict.contains
          rw [hget]
          rfl
        rw [presence, hknown, bind_assoc, exec_get_bind]
        simp only [Bool.not_false, Bool.true_and, hcontains]
        exact hexec

inductive RemovalEnd (env : PreValidationEnv) (s₀ : Node) (H : Set Bytes32) (l : List FullBlock) :
    Except PyError Unit × Node → Prop where
  | done (s : Node) : (newHashes env s₀ l).Nodup → newSet env s₀ l ⊆ H →
      HasTemporary s₀ (H \ newSet env s₀ l) s → RemovalEnd env s₀ H l (.ok (), s)
  | raised (pre post : List FullBlock) (block : FullBlock) (s : Node) : l = pre ++ block :: post →
      (newHashes env s₀ pre).Nodup → newSet env s₀ pre ⊆ H → block.headerHash env.stdHash ∉ H \ newSet env s₀ pre →
      block.headerHash env.stdHash ∈ newSet env s₀ l → HasTemporary s₀ (H \ newSet env s₀ pre) s →
      RemovalEnd env s₀ H l (.error .keyError, s)

lemma newHashes_cons_of_known {block : FullBlock} (l : List FullBlock)
    (h : s.blocks.containsBlock (block.headerHash env.stdHash) = true) :
    newHashes env s (block :: l) = newHashes env s l := by
  have h : s.blockRecords.contains (block.headerHash env.stdHash) = true := h
  unfold newHashes
  rw [map_cons, filter_cons_of_neg (by simp [h])]

lemma newHashes_cons_of_new {block : FullBlock} (l : List FullBlock)
    (h : s.blocks.containsBlock (block.headerHash env.stdHash) = false) :
    newHashes env s (block :: l) = block.headerHash env.stdHash :: newHashes env s l := by
  have h : s.blockRecords.contains (block.headerHash env.stdHash) = false := h
  unfold newHashes
  rw [map_cons, filter_cons_of_pos (by simp [h])]

lemma removeTemporaryRecords_cons_of_known (l : List FullBlock) (s : Node)
    (h : s₀.blocks.containsBlock (block.headerHash env.stdHash) = true) :
    exec (removeTemporaryRecords env ((block :: l).map (presence env s₀))) s =
      exec (removeTemporaryRecords env (l.map (presence env s₀))) s := by
  rw [map_cons, presence, h]
  rfl

lemma removeTemporaryRecords_cons_of_new (l : List FullBlock) (s : Node)
    (h : s₀.blocks.containsBlock (block.headerHash env.stdHash) = false) :
    exec (removeTemporaryRecords env ((block :: l).map (presence env s₀))) s =
      exec (removeBlockRecord (block.headerHash env.stdHash) >>= fun _ =>
        removeTemporaryRecords env (l.map (presence env s₀))) s := by
  rw [map_cons, presence, h]
  rfl

lemma newSet_nil : newSet env s₀ [] = ∅ := by
  simp [newSet, newHashes]

lemma RemovalEnd.cons_of_known (hknown : s₀.blocks.containsBlock (block.headerHash env.stdHash) = true)
    (h : RemovalEnd env s₀ H l outcome) : RemovalEnd env s₀ H (block :: l) outcome := by
  have hset : ∀ l', newSet env s₀ (block :: l') = newSet env s₀ l' := fun l' => by
    rw [newSet_cons, newSet_of_known hknown, Set.empty_union]
  cases h with
  | done s' hnodup hsub hfinal =>
    refine .done s' ?_ (hset l ▸ hsub) (hset l ▸ hfinal)
    rw [newHashes_cons_of_known l hknown]
    exact hnodup
  | raised pre post b s' hsplit hnodup hsub hnot hmem hfinal =>
    refine .raised (block :: pre) post b s' (by rw [hsplit]; rfl) ?_ (hset pre ▸ hsub) (hset pre ▸ hnot)
      (hset l ▸ hmem) (hset pre ▸ hfinal)
    rw [newHashes_cons_of_known pre hknown]
    exact hnodup

lemma RemovalEnd.cons_of_new (hnew : s₀.blocks.containsBlock (block.headerHash env.stdHash) = false)
    (hmem : block.headerHash env.stdHash ∈ H) (h : RemovalEnd env s₀ (H \ {block.headerHash env.stdHash}) l outcome) :
    RemovalEnd env s₀ H (block :: l) outcome := by
  have hset := (newSet_of_new hnew).1
  have hsub' : ∀ l', newSet env s₀ l' ⊆ H \ {block.headerHash env.stdHash} →
      newSet env s₀ (block :: l') ⊆ H := fun l' hsub => by
    rw [newSet_cons, hset]
    exact Set.union_subset (Set.singleton_subset_iff.mpr hmem) (hsub.trans Set.sdiff_subset)
  have hnodup' : ∀ l', newSet env s₀ l' ⊆ H \ {block.headerHash env.stdHash} →
      (newHashes env s₀ l').Nodup → (newHashes env s₀ (block :: l')).Nodup := fun l' hsub hnodup => by
    rw [newHashes_cons_of_new l' hnew, nodup_cons]
    exact ⟨fun hin => (hsub hin).2 rfl, hnodup⟩
  have hdiff : ∀ l' : List FullBlock,
      (H \ {block.headerHash env.stdHash}) \ newSet env s₀ l' = H \ newSet env s₀ (block :: l') := fun l' => by
    rw [Set.sdiff_sdiff, newSet_cons, hset]
  cases h with
  | done s' hnodup hsub hfinal =>
    exact .done s' (hnodup' l hsub hnodup) (hsub' l hsub) (hdiff l ▸ hfinal)
  | raised pre post b s' hsplit hnodup hsub hnot hin hfinal =>
    refine .raised (block :: pre) post b s' (by rw [hsplit]; rfl) (hnodup' pre hsub hnodup) (hsub' pre hsub)
      (hdiff pre ▸ hnot) ?_ (hdiff pre ▸ hfinal)
    rw [newSet_cons]
    exact Or.inr hin

lemma HasTemporary.removalEnd (h : HasTemporary s₀ H s) (l : List FullBlock) :
    RemovalEnd env s₀ H l (exec (removeTemporaryRecords env (l.map (presence env s₀))) s) := by
  induction l generalizing H s with
  | nil =>
    refine .done s nodup_nil ?_ ?_
    · rw [newSet_nil]
      exact Set.empty_subset H
    · rw [newSet_nil, Set.sdiff_empty]
      exact h
  | cons block l ih =>
    cases hknown : s₀.blocks.containsBlock (block.headerHash env.stdHash) with
    | true =>
      rw [removeTemporaryRecords_cons_of_known l s hknown]
      exact (ih h).cons_of_known hknown
    | false =>
      obtain ⟨hset, hnone⟩ := newSet_of_new hknown
      rw [removeTemporaryRecords_cons_of_new l s hknown]
      by_cases hmem : block.headerHash env.stdHash ∈ H
      · obtain ⟨s₁, hremove, hholds⟩ := h.remove hmem
        rw [exec_bind_of_ok hremove]
        exact (ih hholds).cons_of_new hknown hmem
      have habsent : s.blockRecords.get? (block.headerHash env.stdHash) = none := (h.others _ hmem).trans hnone
      rw [exec_bind_of_error (removeBlockRecord_absent habsent)]
      refine .raised [] l block s rfl nodup_nil ?_ (fun hin => hmem hin.1) ?_ ?_
      · rw [newSet_nil]
        exact Set.empty_subset H
      · rw [newSet_cons, hset]
        exact Or.inl rfl
      · rw [newSet_nil, Set.sdiff_empty]
        exact h

lemma keeps_gather (results : List PreValidationResult) : Keeps (Reads env.toEnv) (gather results) :=
  keeps_query env.toEnv fun _ => results

lemma keeps_workerItems (blockDict : Dict Bytes32 FullBlock) (items : List (FullBlock × ℕ × ℕ)) :
    Keeps (Reads env.toEnv) (workerItems env blockDict items) := by
  induction items with
  | nil => exact keeps_pure _
  | cons item items ih =>
    obtain ⟨block, diff, ssi⟩ := item
    apply keeps_lift_bind
    intro prevBlocks
    have hgenerator : Keeps (Reads env.toEnv) (some <$> getBlockGenerator block prevBlocks) := by
      exact keeps_bind (keeps_getBlockGenerator env.toEnv block prevBlocks) fun _ => keeps_pure _
    refine keeps_bind (keeps_tryCatch hgenerator fun e => ?_) fun generator => ?_
    · cases e <;> first | exact keeps_pure _ | exact keeps_throw _
    cases generator with
    | none => exact keeps_pure _
    | some generator =>
      refine keeps_bind ih fun rest => ?_
      cases rest <;> exact keeps_pure _

section

variable {recent : RecentBlocks} {batch pre post : List FullBlock} {block : FullBlock} {st : LoopState} {stop : Stop}

lemma leavesNoTrace_iff_of_stop (hrecent : recentBlocksOf env s.blocks batch = .ok (some recent))
    (hsplit : batch = pre ++ block :: post)
    (hfold : pre.foldlM (nextState env wpSummaries) (startState s recent) = .ok st)
    (hstop : nextState env wpSummaries st block = .error stop) :
    LeavesNoTrace env wpSummaries s batch ↔ (stop ≠ .invalidProof → newHashes env s pre = []) := by
  constructor
  · intro h
    exact h.stops recent pre block post st stop hrecent hsplit hfold hstop
  intro h
  refine ⟨?_, ?_⟩
  · intro recent' pre' block' post' st' stop' hrecent' hsplit' hfold' hstop' hne
    rw [hrecent] at hrecent'
    cases hrecent'
    obtain ⟨rfl, rfl, rfl⟩ := foldlM_stop_unique hfold hstop hfold' hstop' (hsplit.symm.trans hsplit')
    exact h hne
  intro recent' st' hrecent' hfold'
  rw [hrecent] at hrecent'
  cases hrecent'
  rw [hsplit, foldlM_of_stop post hfold hstop] at hfold'
  cases hfold'

lemma leavesNoTrace_iff_of_done (hrecent : recentBlocksOf env s.blocks batch = .ok (some recent))
    (hfold : batch.foldlM (nextState env wpSummaries) (startState s recent) = .ok st) :
    LeavesNoTrace env wpSummaries s batch ↔ ∀ pre block post, batch = pre ++ block :: post →
      block.headerHash env.stdHash ∈ newHashes env s pre → newHashes env s post ⊆ newHashes env s pre := by
  constructor
  · intro h
    exact h.finishes recent st hrecent hfold
  intro h
  refine ⟨?_, fun _ _ _ _ => h⟩
  intro recent' pre' block' post' st' stop' hrecent' hsplit' hfold' hstop'
  rw [hrecent] at hrecent'
  cases hrecent'
  rw [hsplit', foldlM_of_stop post' hfold' hstop'] at hfold
  cases hfold

end

lemma RemovalEnd.complete_iff {batch : List FullBlock} (h : RemovalEnd env s₀ (newSet env s₀ batch) batch outcome) :
    (∀ x, outcome.2.blockRecords.get? x = s₀.blockRecords.get? x) ↔ ∀ pre block post, batch = pre ++ block :: post →
      block.headerHash env.stdHash ∈ newHashes env s₀ pre → newHashes env s₀ post ⊆ newHashes env s₀ pre := by
  -- a hash that comes up again is twice among the new ones
  have hrepeated : ∀ pre block post, block.headerHash env.stdHash ∈ newHashes env s₀ pre →
      ¬(newHashes env s₀ (pre ++ block :: post)).Nodup := by
    intro pre block post hmem hnodup
    have hnone : s₀.blockRecords.get? (block.headerHash env.stdHash) = none := by
      simpa [Dict.contains] using (mem_filter.mp hmem).2
    have hblock : block.headerHash env.stdHash ∈ newHashes env s₀ [block] := mem_newHashes_singleton.mpr ⟨rfl, hnone⟩
    rw [← singleton_append, ← append_assoc, newHashes_append, newHashes_append] at hnodup
    exact (nodup_append.mp (nodup_append.mp hnodup).1).2.2 _ hmem _ hblock rfl
  cases h with
  | done s hnodup hsub hfinal =>
    refine ⟨fun _ pre block post hsplit hmem => ?_, fun _ => ?_⟩
    · rw [hsplit] at hnodup
      exact absurd hnodup (hrepeated pre block post hmem)
    · exact hfinal.same_iff.mpr (Set.sdiff_self)
  | raised pre post block s hsplit hnodup hsub hnot hmem hfinal =>
    have hblock : block.headerHash env.stdHash ∈ newHashes env s₀ pre := by
      by_contra hout
      exact hnot ⟨hmem, hout⟩
    rw [hfinal.same_iff, Set.sdiff_eq_empty]
    constructor
    · intro hall pre' block' post' hsplit' hmem'
      -- the first part has no hash twice, so the repetition is not within it
      obtain ⟨l, hpre'⟩ : ∃ l, pre' = pre ++ l := by
        rcases append_eq_append_iff.mp (hsplit.symm.trans hsplit') with ⟨l, hpre, -⟩ | ⟨l, hpre, hrest⟩
        · exact ⟨l, hpre⟩
        cases l with
        | nil => exact ⟨[], by rw [hpre, append_nil, append_nil]⟩
        | cons c l =>
          obtain ⟨rfl, -⟩ := List.cons.inj hrest
          rw [hpre] at hnodup
          exact absurd hnodup (hrepeated pre' block' l hmem')
      intro x hx
      have hx : x ∈ newSet env s₀ batch := by
        unfold newSet
        rw [hsplit', newHashes_append, ← singleton_append, newHashes_append]
        exact mem_append_right _ (mem_append_right _ hx)
      rw [hpre', newHashes_append]
      exact mem_append_left _ (hall hx)
    · intro hfinishes x hx
      unfold newSet at hx
      rw [Set.mem_ofPred_eq, hsplit, newHashes_append, ← singleton_append, newHashes_append,
        mem_append, mem_append] at hx
      rcases hx with hx | hx | hx
      · exact hx
      · obtain ⟨rfl, -⟩ := mem_newHashes_singleton.mp hx
        exact hblock
      · exact hfinishes pre block post hsplit hblock hx

lemma blockRecords_bind_of_keeps (env : PreValidationEnv) {α β : Type} {m : NodeM α} {f : α → NodeM β}
    (hf : ∀ a, Keeps (Reads env.toEnv) (f a))
    (s : Node) : (exec (m >>= f) s).2.blockRecords = (exec m s).2.blockRecords := by
  rw [exec_bind]
  cases exec m s with
  | mk r s' =>
    cases r with
    | error e => rfl
    | ok a =>
      have hframe := (hf a s').frame
      rw [hframe]

/-- Pre-validation leaves the block records as they were exactly if the loop does not stop after a new block and no new
block is repeated before others. -/
theorem preValidate_leaves_no_trace_iff (env : PreValidationEnv) (s : Node) (batch : List FullBlock)
    (npcResults : Dict ℕ NPCResult) (batchSize : ℕ) (wpSummaries : Option (List SubEpochSummary)) :
    (∀ h, (exec (preValidateBlocksMultiprocessing env batch npcResults batchSize wpSummaries) s).2.blockRecords.get? h =
      s.blockRecords.get? h) ↔ LeavesNoTrace env wpSummaries s batch := by
  unfold preValidateBlocksMultiprocessing
  rw [exec_get_bind]
  cases hrecent : recentBlocksOf env s.blocks batch with
  | error e =>
    refine ⟨fun _ => ⟨?_, ?_⟩, fun _ _ => rfl⟩ <;> intros <;> simp_all
  | ok result =>
    rw [exec_lift_ok_bind]
    cases result with
    | none => refine ⟨fun _ => ⟨?_, ?_⟩, fun _ _ => rfl⟩ <;> intros <;> simp_all
    | some recent =>
      have hwas : (batch.map fun block => (block, s.blocks.containsBlock (block.headerHash env.stdHash))) =
          batch.map (presence env s) := rfl
      have hloop : LoopEnd env wpSummaries s (batch.map (presence env s)) (startState s recent) [] batch
          (exec (addTemporaryRecords env wpSummaries (batch.map (presence env s)) batch ⟨recent, none, []⟩) s) :=
        loopEnd_addTemporaryRecords (by rw [newSet_nil]; exact hasTemporary_self s)
      rw [exec_get_bind, hwas, exec_bind]
      generalize exec (addTemporaryRecords env wpSummaries (batch.map (presence env s)) batch
        ⟨recent, none, []⟩) s = outcome at hloop ⊢
      cases hloop with
      | done st s' hfold hholds =>
        rw [nil_append] at hholds
        rw [leavesNoTrace_iff_of_done hrecent hfold, ← (hholds.removalEnd batch).complete_iff]
        rw [blockRecords_bind_of_keeps env fun _ => ?_]
        split
        · exact keeps_throw _
        · refine keeps_bind (keeps_workerItems _ _) fun items => ?_
          cases items with
          | none => exact keeps_pure _
          | some items => exact keeps_bind (keeps_gather _) fun _ => keeps_pure _
      | stopped pre post block st stop s' hsplit hfold hstop hholds =>
        rw [leavesNoTrace_iff_of_stop hrecent hsplit hfold hstop]
        rw [nil_append] at hholds
        have hempty : newSet env s pre = ∅ ↔ newHashes env s pre = [] :=
          Set.eq_empty_iff_forall_notMem.trans eq_nil_iff_forall_not_mem.symm
        cases stop with
        | raised e => exact hholds.same_iff.trans (hempty.trans ⟨fun h _ => h, fun h => h (by simp)⟩)
        | otherSummary => exact hholds.same_iff.trans (hempty.trans ⟨fun h _ => h, fun h => h (by simp)⟩)
        | invalidProof =>
          refine ⟨fun _ h => absurd rfl h, fun _ => ?_⟩
          obtain ⟨s'', hremove, hfinal⟩ := hholds.removePresent batch
          have hsub : newSet env s pre ⊆ newSet env s batch := fun x hx => by
            rw [hsplit]
            unfold newSet
            rw [newHashes_append]
            exact mem_append_left _ hx
          rw [Set.sdiff_eq_empty.mpr hsub] at hfinal
          have hout : stopOutcome env (batch.map (presence env s)) s' .invalidProof = (.ok none, s'') := by
            unfold stopOutcome
            rw [exec_bind_of_ok hremove]
            rfl
          rw [hout]
          exact hfinal.same_iff.mpr rfl

def firstSummary : SubEpochSummary :=
  ⟨DEFAULT_CONSTANTS.genesisChallenge, DEFAULT_CONSTANTS.genesisChallenge, 0, none, none⟩

def batchEnv : PreValidationEnv where
  toEnv := { sampleEnv (fun _ _ => none) with makeSubEpochSummary := fun _ _ _ _ _ => .ok firstSummary }
  numberOfTimestamps := 11
  subEpochBlocks := 384
  overflow := fun _ => false
  finishedChallengeSlotHashes := fun _ => none
  provenIters := fun _ _ _ _ => .ok (some 1)

def summaryBlock : FullBlock :=
  { sampleBlock 2 84 two_lt_limit (sampleSecond.headerHash sampleHash) true 2 none with
    finishedSubSlots := [⟨some (sampleHash firstSummary.stream), none, none, []⟩] }

/-- The summary is not the one of the weight proof, and the record of the block before stays. -/
theorem record_stays_after_other_summary : let s := receiveAll batchEnv.toEnv [sampleGenesis]
    let batch := [sampleSecond, summaryBlock]
    let run := exec (preValidateBlocksMultiprocessing batchEnv batch .empty 4
      (some [{ firstSummary with numBlocksOverflow := 1 }])) s
    run.1 = .ok none ∧ s.blockRecords.contains (sampleSecond.headerHash sampleHash) = false ∧
      run.2.blockRecords.contains (sampleSecond.headerHash sampleHash) = true := by
  decide +kernel

end SectorChain.Proofs
