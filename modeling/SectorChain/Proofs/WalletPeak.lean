import Mathlib.Data.Nat.Pairing
import SectorChain.Proofs.Header.Farming
import SectorChain.Proofs.WalletChain

/-!
# New peaks of the wallet are reported

One with no block in common with the old one is reported as an orphan.
-/

namespace SectorChain.Header.WalletBlockchain

open Lib Dict

variable {blocks : Blocks} {forkH : Option ℕ} {now : ℕ} {p : BlockRecord}

lemma blockRecord_ok {h : Bytes32} {r : BlockRecord} :
    blocks.blockRecord h = .ok r ↔ blocks.blockRecords.get? h = some r := by
  unfold Blocks.blockRecord
  cases blocks.blockRecords.get? h with
  | none => exact iff_of_false nofun nofun
  | some x => exact ⟨fun h => by cases h; rfl, fun h => by cases h; rfl⟩

lemma findForkPointFrom_mono {blocks' : Blocks} (hsub : ∀ h r, blocks.blockRecords.get? h = some r →
    blocks'.blockRecords.get? h = some r) {fuel : ℕ} {block1 block2 : BlockRecord} {fork : ℤ}
    (h : findForkPointFrom recordShape blocks.blockRecord fuel block1 block2 = .ok fork) :
    findForkPointFrom recordShape blocks'.blockRecord fuel block1 block2 = .ok fork := by
  have hrecord : ∀ {h r}, blocks.blockRecord h = .ok r → blocks'.blockRecord h = .ok r := fun hr =>
    blockRecord_ok.mpr (hsub _ _ (blockRecord_ok.mp hr))
  induction fuel generalizing block1 block2 with
  | zero => cases h
  | succ fuel ih =>
    unfold findForkPointFrom at h ⊢
    split_ifs at h ⊢
    · obtain ⟨prev, hprev, h⟩ := bind_eq_ok.mp h
      rw [hrecord hprev]
      exact ih h
    · obtain ⟨prev, hprev, h⟩ := bind_eq_ok.mp h
      rw [hrecord hprev]
      exact ih h
    · exact h
    · obtain ⟨prev2, hprev2, h⟩ := bind_eq_ok.mp h
      obtain ⟨prev1, hprev1, h⟩ := bind_eq_ok.mp h
      rw [hrecord hprev2, hrecord hprev1]
      exact ih h
    all_goals exact h

/-- What validation could look up if the block was among the records. -/
def blocksWith (s : WalletBlockchain) (blockRecord : BlockRecord) : Blocks :=
  ⟨s.blockRecords.set blockRecord.headerHash blockRecord, s.heightToHash⟩

lemma forkHeight_mono {blocks' : Blocks} (hsub : ∀ h r, blocks.blockRecords.get? h = some r →
    blocks'.blockRecords.get? h = some r) {blockRecord peak : BlockRecord} {given : Option ℕ} {fork : ℤ}
    (h : forkHeight blocks blockRecord peak given = .ok fork) : forkHeight blocks' blockRecord peak given = .ok fork := by
  cases given with
  | some n => exact h
  | none => exact findForkPointFrom_mono hsub h

lemma getPeak_ok {s : WalletBlockchain} {peak : Option BlockRecord} : s.getPeak = .ok peak ↔
    (s.peakHeight = none ∧ peak = none) ∨ ∃ height hash r, s.peakHeight = some height ∧
      s.heightToHash.get? height = some hash ∧ s.blockRecords.get? hash = some r ∧ peak = some r := by
  unfold getPeak Blocks.heightToBlockRecord Blocks.hashAt Blocks.blockRecord blocks
  cases s.peakHeight with
  | none => simp [eq_comm]
  | some height =>
    cases hhash : s.heightToHash.get? height with
    | none => simp [hhash]
    | some hash =>
      cases hrecord : s.blockRecords.get? hash with
      | none => simp [hhash, hrecord]
      | some r => simp [hhash, hrecord, eq_comm]

def peakHash (s : WalletBlockchain) : Option Bytes32 := s.peakHeight.bind s.heightToHash.get?

lemma peakHash_of_getPeak {s : WalletBlockchain} (h : s.getPeak = .ok (some p)) :
    ∃ hash, s.peakHash = some hash ∧ s.blockRecords.get? hash = some p := by
  rcases getPeak_ok.mp h with ⟨-, hno⟩ | ⟨height, hash, r, hheight, hhash, hrecord, hr⟩
  · cases hno
  · cases hr
    refine ⟨hash, ?_, hrecord⟩
    rw [peakHash, hheight]
    exact hhash

lemma getPeak_of_peakHash {s : WalletBlockchain} {hash : Bytes32} (hhash : s.peakHash = some hash)
    (hrecord : s.blockRecords.get? hash = some p) : s.getPeak = .ok (some p) := by
  obtain ⟨height, hheight, hat⟩ := Option.bind_eq_some_iff.mp hhash
  exact getPeak_ok.mpr (.inr ⟨height, hash, p, hheight, hat, hrecord, rfl⟩)

/-- What the peak depends on. -/
def chainPart (s : WalletBlockchain) : Option ℕ × Dict ℕ Bytes32 := (s.peakHeight, s.heightToHash)

lemma peakHash_of_chainPart {s s' : WalletBlockchain} (h : Same chainPart s s') : s'.peakHash = s.peakHash := by
  have hheight : s'.peakHeight = s.peakHeight := h.apply Prod.fst
  have hhash : s'.heightToHash = s.heightToHash := h.apply Prod.snd
  unfold peakHash
  rw [hheight, hhash]

section

variable {env : WalletChainEnv} {faults : Faults} {args : ReceiveArgs} {record : BlockRecord} {s s' : WalletBlockchain}

/-- The blockchain when the block is stored and the peak is reconsidered. -/
structure Prepared (env : WalletChainEnv) (args : ReceiveArgs) (record : BlockRecord) (s s' : WalletBlockchain) : Prop where
  peakHeight : s'.peakHeight = s.peakHeight
  heightToHash : s'.heightToHash = s.heightToHash
  blockRecords : ∀ h r, s'.blockRecords.get? h = some r → (blocksWith s record).blockRecords.get? h = some r
  row : s'.blockRecordRows.get? (args.headerBlockRecord.header.headerHash env.header) = some ⟨record, false⟩

lemma Prepared.chain (h : Prepared env args record s s') : Same chainPart s s' :=
  Prod.ext h.peakHeight h.heightToHash

lemma Prepared.peak (h : Prepared env args record s s') (hpeak : s'.getPeak = .ok (some p)) :
    p = record ∨ s.getPeak = .ok (some p) := by
  obtain ⟨hash, hhash, hrecord⟩ := peakHash_of_getPeak hpeak
  rw [peakHash_of_chainPart h.chain] at hhash
  have hwith := h.blockRecords _ _ hrecord
  change (s.blockRecords.set record.headerHash record).get? hash = some p at hwith
  by_cases hne : hash = record.headerHash
  · rw [hne, get?_set_self] at hwith
    exact .inl (Option.some.inj hwith).symm
  · rw [get?_set_of_ne _ _ hne] at hwith
    exact .inr (getPeak_of_peakHash hhash hwith)

lemma Prepared.peak_unique (h : Prepared env args record s s') (hfresh : s.blockRecords.get? record.headerHash = none)
    {q : BlockRecord} (hp : s'.getPeak = .ok (some p)) (hq : s.getPeak = .ok (some q)) : p = q := by
  rcases h.peak hp with rfl | hp'
  · obtain ⟨hash, hhash, hrecord⟩ := peakHash_of_getPeak hp
    obtain ⟨headerHash', hhash', hrecord'⟩ := peakHash_of_getPeak hq
    rw [peakHash_of_chainPart h.chain, hhash'] at hhash
    cases hhash
    have hwith := h.blockRecords _ _ hrecord
    change (s.blockRecords.set p.headerHash p).get? hash = some p at hwith
    have hne : hash ≠ p.headerHash := by
      rintro rfl
      rw [hfresh] at hrecord'
      cases hrecord'
    rw [get?_set_of_ne _ _ hne, hrecord'] at hwith
    exact (Option.some.inj hwith).symm
  · rw [hp'] at hq
    cases hq
    rfl

lemma applyChain_ok {peak : BlockRecord} {given : Option ℕ} {spends : List CoinSolution}
    {records : List BlockRecord} (hrow : s.blockRecordRows.get? record.headerHash = some ⟨record, false⟩)
    (hmap : ∀ h, s.heightToHash.get? h = some record.headerHash → h = record.height)
    (h : exec (applyChain env faults record peak given spends) s = (.ok (forkH, records), s')) :
    ∃ fork, forkHeight s.blocks record peak given = .ok fork ∧ forkH = (if fork < 0 then none else some fork.toNat) ∧
      s'.peakHash = some record.headerHash := by
  unfold applyChain at h
  rw [exec_get_bind] at h
  obtain ⟨fork, s₁, hlift, h⟩ := exec_bind_ok.mp h
  obtain ⟨hfork, rfl⟩ := exec_lift_eq.mp hlift
  obtain ⟨_, s₁, hrollback, h⟩ := exec_bind_ok.mp h
  have hstores : Keeps (Same fun s => { s with stores := .new }) (rollbackToFork env record peak fork) := by
    unfold rollbackToFork
    split
    · exact keeps_onStores fun _ _ => rfl
    · exact keeps_pure _
  have hframe := hstores.rel hrollback
  unfold rollbackSubEpochSummaries at h
  rw [exec_modify_bind, exec_get_bind] at h
  obtain ⟨blocksToAdd, s₂, hblocks, h⟩ := exec_bind_ok.mp h
  have hrows₁ : s₁.blockRecordRows = s.blockRecordRows := hframe.apply blockRecordRows
  have hheights₁ : s₁.heightToHash = s.heightToHash := hframe.apply heightToHash
  have hrow₁ : s₁.blockRecordRows.get? record.headerHash = some ⟨record, false⟩ := hrows₁ ▸ hrow
  have hhead := blocksToAdd_head (by exact hrow₁) hblocks
  have hheights₂ : s₂.heightToHash = s₁.heightToHash := ((keeps_blocksToAddFrom _ _).rel hblocks).apply heightToHash
  obtain ⟨_, s₃, happly, h⟩ := exec_bind_ok.mp h
  obtain ⟨_, s₄, hset, h⟩ := exec_bind_ok.mp h
  rw [exec_modify_bind] at h
  cases h
  have hheights₄ : s₄.heightToHash = s₃.heightToHash := (keeps_setPeak.rel hset).apply heightToHash
  refine ⟨fork, hfork, rfl, ?_⟩
  rw [hheights₄]
  rcases hhead with ⟨rfl, hat⟩ | ⟨header, spends', older, rfl⟩
  · cases happly
    rw [hheights₁] at hat
    rw [hheights₂, hheights₁, ← hmap _ hat]
    exact hat
  rw [List.reverse_cons, List.forM_eq_forM, List.forM_append] at happly
  obtain ⟨_, s₅, -, happly⟩ := exec_bind_ok.mp happly
  obtain ⟨_, s₆, hone, hnil⟩ := exec_bind_ok.mp happly
  cases hnil
  rw [applyBlock_height hone]
  exact get?_set_self _ _ _

lemma transaction_ok (h : exec (transaction env faults args record) s = (.ok forkH, s')) :
    ∃ s₁ s₂ records, Prepared env args record s s₁ ∧
      exec (reconsiderPeak env faults record (args.headerBlockRecord.header.height = 0) args.forkPointWithPeak
        args.additionalCoinSpends) s₁ = (.ok (forkH, records), s₂) ∧ Same chainPart s₂ s' := by
  obtain ⟨_, s₁, hbegin, h⟩ := exec_bind_ok.mp h
  obtain ⟨_, s₂, hstore, h⟩ := exec_bind_ok.mp h
  unfold addBlockRecord at h
  rw [exec_modify_bind] at h
  obtain ⟨_, s₃, hclean, h⟩ := exec_bind_ok.mp h
  obtain ⟨⟨forkH', records⟩, s₄, hreconsider, h⟩ := exec_bind_ok.mp h
  obtain ⟨_, s₅, hsummaries, h⟩ := exec_bind_ok.mp h
  obtain ⟨_, s₆, hcommit, h⟩ := exec_bind_ok.mp h
  cases h
  have hbegin' := keeps_beginTransaction.rel hbegin
  have hstore' := keeps_storeBlockRecord.rel hstore
  have hbefore : Same chainPart s s₂ := IsTrans.trans _ _ _ (hbegin'.apply chainPart) (hstore'.apply chainPart)
  have hrecords₂ : s₂.blockRecords = s.blockRecords := (hstore'.apply blockRecords).trans (hbegin'.apply blockRecords)
  have hframe := (clean_forgetRecords _).rel hclean
  have hshrinks := (clean_shrinks _).rel hclean
  refine ⟨s₃, s₄, records, ⟨?_, ?_, ?_, ?_⟩, hreconsider, ?_⟩
  · exact (hframe.apply WalletBlockchain.peakHeight).trans (hbefore.apply Prod.fst)
  · exact (hframe.apply WalletBlockchain.heightToHash).trans (hbefore.apply Prod.snd)
  · intro key r hr
    have hadded := hshrinks key r hr
    rw [hrecords₂] at hadded
    exact hadded
  · have hrows : s₃.blockRecordRows = s₂.blockRecordRows := hframe.apply blockRecordRows
    rw [hrows, storeBlockRecord_ok hstore]
    exact get?_set_self _ _ _
  have hsummary : Keeps (Same chainPart) (records.forM recordSubEpochSummary) :=
    keeps_forM fun _ _ => keeps_modify fun _ => rfl
  have hlast : Same chainPart s₅ s' := by
    unfold commitTransaction at hcommit
    split at hcommit
    · cases hcommit
      rfl
    · cases hcommit
  exact IsTrans.trans _ _ _ (hsummary.rel hsummaries) hlast

lemma applyGenesis_ok (h : exec (applyGenesis env faults record) s = (.ok (), s')) :
    ∃ hash, s'.peakHash = some hash := by
  obtain ⟨_, s₁, -, h⟩ := exec_bind_ok.mp h
  obtain ⟨block, s₂, -, h⟩ := exec_bind_ok.mp h
  unfold changeHeight at h
  rw [exec_modify_bind] at h
  obtain ⟨_, s₃, hassert, h⟩ := exec_bind_ok.mp h
  obtain ⟨-, rfl⟩ := exec_lift_eq.mp hassert
  obtain ⟨_, s₄, hstores, h⟩ := exec_bind_ok.mp h
  cases h
  have hkeeps : Keeps (Same heightToHash) (onStores (env.newTransactionBlockCallback block.removals block.additions
      record [])) := keeps_onStores fun _ _ => rfl
  refine ⟨block.header.headerHash env.header, ?_⟩
  change s₄.heightToHash.get? 0 = _
  have hmap : s₄.heightToHash = s₂.heightToHash.set 0 (block.header.headerHash env.header) := hkeeps.rel hstores
  rw [hmap]
  exact get?_set_self _ _ _

/-- How the peak came to be as it is after a transaction. -/
inductive PeakOutcome (env : WalletChainEnv) (args : ReceiveArgs) (record : BlockRecord) (s s' : WalletBlockchain) :
    Option ℕ → Prop where
  | kept : s'.peakHash = s.peakHash →
      (∀ peak, s.getPeak = .ok (some peak) → args.headerBlockRecord.header.height ≠ 0 → record.weight ≤ peak.weight) →
      PeakOutcome env args record s s' none
  | first : s'.peakHash ≠ s.peakHash → args.headerBlockRecord.header.height = 0 →
      PeakOutcome env args record s s' (some 0)
  | changed (peak : BlockRecord) (fork : ℤ) : s'.peakHash ≠ s.peakHash → args.headerBlockRecord.header.height ≠ 0 →
      s.getPeak = .ok (some peak) → record.weight > peak.weight →
      forkHeight (blocksWith s record) record peak args.forkPointWithPeak = .ok fork →
      PeakOutcome env args record s s' (if fork < 0 then none else some fork.toNat)

lemma peakOutcome (hhash : record.headerHash = args.headerBlockRecord.header.headerHash env.header)
    (hfresh : s.blockRecords.get? record.headerHash = none)
    (hmap : ∀ h, s.heightToHash.get? h = some record.headerHash → h = record.height)
    (h : exec (transaction env faults args record) s = (.ok forkH, s')) : PeakOutcome env args record s s' forkH := by
  obtain ⟨s₁, s₂, records, hprepared, hreconsider, hsame⟩ := transaction_ok h
  have hkept : s₁.peakHash = s.peakHash := peakHash_of_chainPart hprepared.chain
  have hlast : s'.peakHash = s₂.peakHash := peakHash_of_chainPart hsame
  unfold reconsiderPeak at hreconsider
  rw [exec_get_bind] at hreconsider
  obtain ⟨peak, s₃, hlift, hreconsider⟩ := exec_bind_ok.mp hreconsider
  obtain ⟨hpeak, rfl⟩ := exec_lift_eq.mp hlift
  split at hreconsider
  · rename_i hgenesis
    have hheight : args.headerBlockRecord.header.height = 0 := by simpa using hgenesis
    cases peak with
    | some p =>
      cases hreconsider
      exact .kept (hlast.trans hkept) fun _ _ hne => absurd hheight hne
    | none =>
      obtain ⟨_, s₃, hgen, hreconsider⟩ := exec_bind_ok.mp hreconsider
      cases hreconsider
      obtain ⟨hash, hfirst⟩ := applyGenesis_ok hgen
      have hnone : s.peakHash = none := by
        rcases getPeak_ok.mp hpeak with ⟨hno, -⟩ | ⟨_, _, _, _, _, _, hsome⟩
        · rw [← hkept, peakHash, hno]
          rfl
        · cases hsome
      refine .first ?_ hheight
      rw [hlast, hfirst, hnone]
      nofun
  · rename_i hgenesis
    have hheight : args.headerBlockRecord.header.height ≠ 0 := by simpa using hgenesis
    obtain ⟨p, s₃, hlift', hadd⟩ := exec_bind_ok.mp hreconsider
    obtain ⟨hsome, rfl⟩ := exec_lift_eq.mp hlift'
    rw [assertSome_ok] at hsome
    subst hsome
    split at hadd
    · rename_i hheavier
      have hold : s.getPeak = .ok (some p) := by
        rcases hprepared.peak hpeak with rfl | hold
        · exact absurd hheavier (Nat.lt_irrefl _)
        · exact hold
      have hrow := hprepared.row
      rw [← hhash] at hrow
      obtain ⟨fork, hfork, rfl, hnew⟩ := applyChain_ok hrow (hprepared.heightToHash ▸ hmap) hadd
      refine .changed p fork ?_ hheight hold hheavier (forkHeight_mono hprepared.blockRecords hfork)
      obtain ⟨hash, hold', hrecord⟩ := peakHash_of_getPeak hold
      rw [hlast, hnew, hold']
      intro heq
      rw [← Option.some.inj heq, hfresh] at hrecord
      cases hrecord
    · rename_i hheavier
      cases hadd
      refine .kept (hlast.trans hkept) fun q hq _ => ?_
      rw [← hprepared.peak_unique hfresh hpeak hq]
      exact Nat.le_of_not_lt hheavier

lemma validatedRecord_ok (h : validatedRecord env now s args = .ok (.ok record)) :
    record.headerHash = args.headerBlockRecord.header.headerHash env.header ∧
      record.height = args.headerBlockRecord.header.height := by
  obtain ⟨⟨subSlotIters, difficulty⟩, -, h⟩ := bind_eq_ok.mp h
  obtain ⟨validated, -, h⟩ := bind_eq_ok.mp h
  cases validated with
  | error code => cases h
  | ok requiredIters =>
    obtain ⟨requiredIters, -, h⟩ := bind_eq_ok.mp h
    obtain ⟨record', hrecord, h⟩ := bind_eq_ok.mp h
    cases h
    iterate 5 obtain ⟨_, -, hrecord⟩ := bind_eq_ok.mp hrecord
    cases hrecord
    exact ⟨rfl, rfl⟩

/-- A heavier block whose chain has no block in common with that of the peak. -/
def FullReorg (env : WalletChainEnv) (now : ℕ) (s : WalletBlockchain) (args : ReceiveArgs) : Prop :=
  checkConnected env s args.headerBlockRecord.header = none ∧ args.headerBlockRecord.header.height ≠ 0 ∧
    ∃ record peak fork, validatedRecord env now s args = .ok (.ok record) ∧ s.getPeak = .ok (some peak) ∧
      record.weight > peak.weight ∧
      forkHeight (blocksWith s record) record peak args.forkPointWithPeak = .ok fork ∧ fork < 0

/-- The header of a connected block fails validation, which returns an error code or raises. -/
def Failed (env : WalletChainEnv) (now : ℕ) (s : WalletBlockchain) (args : ReceiveArgs)
    (failure : Except PyError Err) : Prop :=
  checkConnected env s args.headerBlockRecord.header = none ∧ ∃ subSlotIters difficulty,
    nextSubSlotItersAndDifficulty s args.headerBlockRecord.header = .ok (subSlotIters, difficulty) ∧
      match args.trusted, args.preValidationResult with
      | false, none => (validateFinishedHeaderBlock env.header now s.blocks args.headerBlockRecord.header false difficulty
          subSlotIters true).run = failure.map .error
      | true, _ => (validateUnfinishedHeaderBlock env.header now s.blocks args.headerBlockRecord.header.unfinished false
          difficulty subSlotIters false true true).run = failure.map .error
      | false, some result => ∃ code, failure = .ok code ∧ result.error = some code

lemma addBlock_ok (h : exec (addBlock env faults args record) s = (.ok forkH, s')) :
    exec (transaction env faults args record) { s with heightsChanged := ∅ } = (.ok forkH, s') := by
  unfold addBlock at h
  rw [exec_modify_bind, exec_tryCatch] at h
  split at h
  · rename_i hrun
    cases h
    exact hrun
  · obtain ⟨_, _, -, h⟩ := exec_bind_ok.mp h
    cases h

lemma exec_receiveBlock_connected (hconnected : checkConnected env s args.headerBlockRecord.header = none) :
    exec (receiveBlock env faults now args) s =
      exec ((validatedRecord env now s args : WalletBlockchainM _) >>= addValidated env faults args) s := by
  unfold receiveBlock
  rw [exec_get_bind, hconnected]
  rw [exec_get_bind]

lemma checkConnected_some {block : HeaderBlock} {result : ReceiveBlockResult} {code : Option Err}
    (h : checkConnected env s block = some (result, code)) : result ≠ .NEW_PEAK := by
  unfold checkConnected at h
  split at h
  · cases h
    nofun
  · split at h
    · cases h
      nofun
    · cases h

lemma fresh_of_connected {block : HeaderBlock} (h : checkConnected env s block = none) :
    s.blockRecords.get? (block.headerHash env.header) = none := by
  unfold checkConnected at h
  split at h
  · cases h
  · rename_i hnot
    cases hrecord : s.blockRecords.get? (block.headerHash env.header) with
    | none => rfl
    | some r => exact absurd (Dict.contains_iff.mpr ⟨r, hrecord⟩) hnot

/-- What a trusted header that fails raises: a code is read as the number of an error. -/
def raisedFor : Except PyError Err → PyError
  | .error e => e
  | .ok _ => .valueError

lemma validatedRecord_of_failed {failure : Except PyError Err} (h : Failed env now s args failure) :
    validatedRecord env now s args =
      if args.trusted then .error (raisedFor failure) else failure.map .error := by
  obtain ⟨-, subSlotIters, difficulty, hnext, hfails⟩ := h
  have hheader : validateHeader env now s args difficulty subSlotIters =
      if args.trusted then .error (raisedFor failure) else failure.map .error := by
    unfold validateHeader
    revert hfails
    cases args.trusted with
    | true =>
      intro hfails
      dsimp only at hfails ⊢
      rw [hfails]
      cases failure <;> rfl
    | false =>
      cases args.preValidationResult with
      | none =>
        intro hfails
        dsimp only at hfails ⊢
        rw [hfails]
        cases failure <;> rfl
      | some result =>
        rintro ⟨code, rfl, hcode⟩
        dsimp only
        rw [hcode]
        rfl
  unfold validatedRecord
  rw [hnext, ok_bind]
  dsimp only
  rw [hheader]
  cases args.trusted <;> cases failure <;> rfl

/-- A new peak is reported just if the peak changed, unless the chains have no block in common. A header that fails
validation is reported as invalid just if it is not trusted and validation does not raise. -/
theorem peak_changes_reported_iff (env : WalletChainEnv) (faults : Faults) (now : ℕ) (s : WalletBlockchain)
    (args : ReceiveArgs) (hmap : ∀ height, s.heightToHash.get? height =
      some (args.headerBlockRecord.header.headerHash env.header) → height = args.headerBlockRecord.header.height) :
    (∀ r s', exec (receiveBlock env faults now args) s = (.ok r, s') →
      ((r.1 = .NEW_PEAK ↔ s'.peakHash ≠ s.peakHash) ↔ ¬ FullReorg env now s args)) ∧
    (∀ failure, Failed env now s args failure → ∀ code,
      ((exec (receiveBlock env faults now args) s).1 = .ok (.INVALID_BLOCK, some code, none) ↔
        args.trusted = false ∧ failure = .ok code)) := by
  constructor
  · intro r s' h
    cases hconnected : checkConnected env s args.headerBlockRecord.header with
    | some result =>
      unfold receiveBlock at h
      rw [exec_get_bind, hconnected] at h
      cases h
      refine iff_of_true (iff_of_false (checkConnected_some hconnected) (not_not.mpr rfl)) fun hfull => ?_
      have hnone := hfull.1
      rw [hconnected] at hnone
      cases hnone
    | none =>
      rw [exec_receiveBlock_connected hconnected] at h
      obtain ⟨validated, s₁, hlift, h⟩ := exec_bind_ok.mp h
      obtain ⟨hvalidated, rfl⟩ := exec_lift_eq.mp hlift
      cases validated with
      | error code =>
        cases h
        refine iff_of_true (iff_of_false nofun (not_not.mpr rfl)) ?_
        rintro ⟨-, -, record, peak, fork, hrecord, -⟩
        rw [hvalidated] at hrecord
        cases hrecord
      | ok record =>
        obtain ⟨forkH, s₂, hadd, h⟩ := exec_bind_ok.mp h
        cases h
        obtain ⟨hhash, hheight⟩ := validatedRecord_ok hvalidated
        have hfresh := fresh_of_connected hconnected
        rw [← hhash, ← hheight] at hmap
        rw [← hhash] at hfresh
        have houtcome : PeakOutcome env args record { s with heightsChanged := ∅ } s' forkH :=
          peakOutcome hhash hfresh hmap (addBlock_ok hadd)
        cases houtcome with
        | kept hkept hlight =>
          refine iff_of_true (iff_of_false nofun (not_not.mpr hkept)) ?_
          rintro ⟨-, hpos, record', peak', fork, hrecord, hp', hheavier, -⟩
          rw [hvalidated] at hrecord
          cases hrecord
          exact absurd (hlight peak' hp' hpos) (by omega)
        | first hchanged hzero =>
          exact iff_of_true (iff_of_true rfl hchanged) fun hfull => hfull.2.1 hzero
        | changed peak' fork hchanged hpos hp' hheavier hfork =>
          by_cases hneg : fork < 0
          · rw [if_pos hneg]
            refine iff_of_false (fun hiff => absurd (hiff.mpr hchanged) nofun) (not_not.mpr ?_)
            exact ⟨hconnected, hpos, record, peak', fork, hvalidated, hp', hheavier, hfork, hneg⟩
          rw [if_neg hneg]
          refine iff_of_true (iff_of_true rfl hchanged) ?_
          rintro ⟨-, -, record', peak'', fork', hrecord, hp'', -, hfork', hneg'⟩
          rw [hvalidated] at hrecord
          cases hrecord
          have hsame : (.ok (some peak') : Except PyError (Option BlockRecord)) = .ok (some peak'') := hp'.symm.trans hp''
          cases hsame
          have hforks : (.ok fork : Except PyError ℤ) = .ok fork' := hfork.symm.trans hfork'
          cases hforks
          exact hneg hneg'
  · intro failure hfailed code
    have hvalidated := validatedRecord_of_failed hfailed
    rw [exec_receiveBlock_connected hfailed.1, hvalidated]
    cases args.trusted with
    | true => exact iff_of_false nofun nofun
    | false =>
      cases failure with
      | error e => exact iff_of_false nofun nofun
      | ok code' =>
        change (.ok (ReceiveBlockResult.INVALID_BLOCK, some code', none) : Except PyError _) = _ ↔ _
        simp

end

def changeKey (changed : ℕ × Option Bytes32) : ℕ :=
  Nat.pair changed.1 (changed.2.elim 0 fun h => beNat h.toBytes + 1)

lemma changeKey_injective : Function.Injective changeKey := by
  rintro ⟨a, x⟩ ⟨b, y⟩ h
  obtain ⟨rfl, h⟩ := Nat.pair_eq_pair.mp h
  cases x with
  | none =>
    cases y with
    | none => rfl
    | some y => cases h
  | some x =>
    cases y with
    | none => cases h
    | some y =>
      have hbytes := beNat_injective (x.length_toBytes.trans y.length_toBytes.symm) (Nat.succ.inj h)
      rw [SizedBytes.toBytes_injective hbytes]

/-- A wallet without coins. -/
def sampleEnv : WalletChainEnv where
  header := Sample.env
  blocksCacheSize := 128
  newTransactionBlockCallback := fun _ _ _ _ => pure ()
  reorgRollback := fun _ => pure ()
  heightOrder := .byKey changeKey changeKey_injective

def sampleArgs (header : HeaderBlock) : ReceiveArgs := ⟨⟨header, [], []⟩, none, false, none, []⟩

def receiveOne (s : WalletBlockchain) (header : HeaderBlock) :
    Except PyError (ReceiveBlockResult × Option Err × Option ℕ) × WalletBlockchain :=
  exec (receiveBlock sampleEnv ⟨fun _ => none, true⟩ 0 (sampleArgs header)) s

/-- The wallet after a first block. -/
def withGenesis : WalletBlockchain := (receiveOne new (Sample.genesis (.ofNat 32 1))).2

/-- A second block becomes the peak, and the first one, which the map has at its height, does not become it again. -/
theorem peak_changes_reported_second : let header := Sample.second (.ofNat 32 1) (.ofNat 32 3)
    let first := Sample.genesis (.ofNat 32 1)
    (receiveOne withGenesis header).1 = .ok (.NEW_PEAK, none, some 0) ∧
      ((ReceiveBlockResult.NEW_PEAK = .NEW_PEAK ↔ (receiveOne withGenesis header).2.peakHash ≠ withGenesis.peakHash) ↔
        ¬ FullReorg sampleEnv 0 withGenesis (sampleArgs header)) ∧
      withGenesis.heightToHash.get? 0 = some (first.headerHash Sample.env) ∧
      (receiveOne withGenesis first).1 = .ok (.ALREADY_HAVE_BLOCK, none, none) ∧
      ((ReceiveBlockResult.ALREADY_HAVE_BLOCK = .NEW_PEAK ↔
        (receiveOne withGenesis first).2.peakHash ≠ withGenesis.peakHash) ↔
        ¬ FullReorg sampleEnv 0 withGenesis (sampleArgs first)) := by
  intro header first
  have hmap : ∀ e ∈ withGenesis.heightToHash.entries, e = (0, first.headerHash Sample.env) := by decide +kernel
  have hsecond : (receiveOne withGenesis header).1 = .ok (.NEW_PEAK, none, some 0) := by decide +kernel
  have hagain : (receiveOne withGenesis first).1 = .ok (.ALREADY_HAVE_BLOCK, none, none) := by decide +kernel
  refine ⟨hsecond, ?_, by decide +kernel, hagain, ?_⟩
  · refine (peak_changes_reported_iff sampleEnv ⟨fun _ => none, true⟩ 0 withGenesis (sampleArgs header) ?_).1 _ _
      (exec_eq_of_fst hsecond)
    intro height hget
    exact absurd (Prod.mk.inj (hmap _ (Dict.mem_entries.mpr hget))).2 (by decide +kernel)
  · refine (peak_changes_reported_iff sampleEnv ⟨fun _ => none, true⟩ 0 withGenesis (sampleArgs first) ?_).1 _ _
      (exec_eq_of_fst hagain)
    intro height hget
    exact (Prod.mk.inj (hmap _ (Dict.mem_entries.mpr hget))).1

/-- A header whose signage point index is out of range. -/
def outOfRange : HeaderBlock :=
  { Sample.genesis (.ofNat 32 1) with
    rewardChainBlock := { Sample.genesisRewardBlock with signagePointIndex := 64 } }

/-- A chain on a second genesis block becomes the peak, and the wallet reports an orphan. A signage point index out of
range makes validation raise. -/
theorem full_reorg_reported_as_orphan :
    let s := (receiveOne withGenesis (Sample.genesis (.ofNat 32 2))).2
    let step := receiveOne s (Sample.second (.ofNat 32 2) (.ofNat 32 3))
    step.1 = .ok (.ADDED_AS_ORPHAN, none, none) ∧ s.peakHash = some (.ofNat 32 1) ∧
      step.2.peakHash = some (.ofNat 32 3) ∧ (receiveOne new outOfRange).1 = .error .valueError := by
  decide +kernel

end SectorChain.Header.WalletBlockchain
