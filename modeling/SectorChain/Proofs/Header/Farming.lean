import SectorChain.Proofs.Header.EpochEnd

/-!
# Farming

On every accepted chain whose tip starts a slot a block can be farmed that is accepted.
-/

namespace SectorChain.Header.Sample

open Lib Check List

def hash (bs : Bytes) : Bytes32 :=
  .ofNat 32 (beNat (if bs.length ≤ 96 then bs.take 32 else (bs.drop 165).take 32))

/-- The quality of a proof of space is a number given as the proof, in units of one iteration. -/
def env : HeaderEnv where
  genesisChallenge := .ofNat 32 0
  genesisPreFarmPoolPuzzleHash := .ofNat 32 0
  genesisPreFarmFarmerPuzzleHash := .ofNat 32 0
  stdHash := hash
  verifyVdf := fun _ _ _ _ _ => true
  validateProof := fun _ _ _ proof => some (.ofNat 32 (beNat proof * 2 ^ 230))
  verify := fun _ _ _ => true

def zero32 : Bytes32 := .ofNat 32 0

def vdf (challenge : Bytes32) (iters : ℕ) : VDFInfo := ⟨challenge, iters, ClassgroupElement.getDefaultElement⟩

def vdfProof : VDFProof := ⟨0, [], false⟩

def proofOfSpace : ProofOfSpace := ⟨zero32, none, some zero32, .ofNat 48 0, 32, [65]⟩

def foliage (prev hashId : Bytes32) (rcb : RewardChainBlock) (ftb : Option FoliageTransactionBlock) : Foliage where
  prevBlockHash := prev
  rewardBlockHash := hash rcb.stream
  foliageBlockData := ⟨hash rcb.getUnfinished.stream, ⟨zero32, 0⟩, none, zero32, hashId⟩
  foliageBlockDataSignature := .ofNat 96 0
  foliageTransactionBlockHash := ftb.map fun f => hash f.stream
  foliageTransactionBlockSignature := ftb.map fun _ => .ofNat 96 0

def header (prev hashId : Bytes32) (slots : List EndOfSubSlotBundle) (rcb : RewardChainBlock)
    (ftb : Option FoliageTransactionBlock) : HeaderBlock where
  finishedSubSlots := slots
  rewardChainBlock := rcb
  challengeChainSpProof := rcb.challengeChainSpVdf.map fun _ => vdfProof
  challengeChainIpProof := vdfProof
  rewardChainSpProof := rcb.rewardChainSpVdf.map fun _ => vdfProof
  rewardChainIpProof := vdfProof
  infusedChallengeChainIpProof := rcb.infusedChallengeChainIpVdf.map fun _ => vdfProof
  foliage := foliage prev hashId rcb ftb
  foliageTransactionBlock := ftb
  transactionsFilter := []

def genesisIters : ℕ := 3 * 2 ^ 21 + 7

def genesisRewardBlock : RewardChainBlock where
  weight := 7
  weight_lt := by decide
  height := 0
  height_lt := by decide
  totalIters := genesisIters
  signagePointIndex := 0
  posSsCcChallengeHash := zero32
  proofOfSpace := proofOfSpace
  challengeChainSpVdf := none
  challengeChainSpSignature := .ofNat 96 0
  challengeChainIpVdf := vdf zero32 genesisIters
  rewardChainSpVdf := none
  rewardChainSpSignature := .ofNat 96 0
  rewardChainIpVdf := vdf zero32 genesisIters
  infusedChallengeChainIpVdf := none
  isTransactionBlock := true

def genesis (hashId : Bytes32) : HeaderBlock :=
  header zero32 hashId [] genesisRewardBlock (some ⟨zero32, 0, zero32, zero32, zero32, zero32⟩)

def secondRewardBlock : RewardChainBlock :=
  { genesisRewardBlock with
    weight := 14
    weight_lt := by decide
    height := 1
    height_lt := by decide
    totalIters := 2 ^ 23 + 7
    signagePointIndex := 1
    challengeChainSpVdf := some (vdf zero32 (2 ^ 21))
    challengeChainIpVdf := vdf zero32 (2 ^ 23 + 7)
    rewardChainSpVdf := some (vdf zero32 (2 ^ 21))
    rewardChainIpVdf := vdf (hash genesisRewardBlock.stream) (2 ^ 21)
    infusedChallengeChainIpVdf := some (vdf zero32 (2 ^ 21))
    isTransactionBlock := false }

def second (prev hashId : Bytes32) : HeaderBlock := header prev hashId [] secondRewardBlock none

/-- Every proof with iterations verifies. -/
def positiveEnv : HeaderEnv := { Sample.env with verifyVdf := fun _ _ _ iterations _ => 0 < iterations }

def quality : Bytes32 := .ofNat 32 (65 * 2 ^ 230)

lemma ofNat_beNat {n : ℕ} (b : SizedBytes n) : SizedBytes.ofNat n (beNat b.toBytes) = b := by
  obtain ⟨bs, rfl⟩ := b
  exact SizedBytes.mk.injEq .. ▸ beBytes_beNat bs

/-- The hash of up to 96 bytes is the first 32 of them. -/
lemma hash_append (b : Bytes32) {rest : Bytes} (h : rest.length ≤ 64) : hash (b.toBytes ++ rest) = b := by
  have hlen := b.length_eq
  unfold hash
  rw [if_pos (by simp; omega), take_append_of_le_length hlen.ge, take_of_length_le hlen.le, ofNat_beNat]

lemma hash_foliage (prev hashId : Bytes32) (rcb : RewardChainBlock) (ftb : Option FoliageTransactionBlock) :
    hash (foliage prev hashId rcb ftb).stream = hashId := by
  let before := prev.toBytes ++ (hash rcb.stream).toBytes ++ (hash rcb.getUnfinished.stream).toBytes ++
    (zero32.toBytes ++ beBytes 4 0) ++ [0] ++ zero32.toBytes
  let after := (SizedBytes.ofNat 96 0).toBytes ++ optionalBytes SizedBytes.toBytes (ftb.map fun f => hash f.stream) ++
    optionalBytes SizedBytes.toBytes (ftb.map fun _ => SizedBytes.ofNat 96 0)
  have hstream : (foliage prev hashId rcb ftb).stream = before ++ (hashId.toBytes ++ after) := by
    simp [before, after, foliage, Foliage.stream, FoliageBlockData.stream, PoolTarget.stream, optionalBytes]
  have hlen : before.length = 165 := by simp [before]
  have hid := hashId.length_eq
  unfold hash
  rw [hstream, if_neg (by rw [length_append, hlen]; omega), drop_left' hlen, take_append_of_le_length hid.ge,
    take_of_length_le hid.le, ofNat_beNat]

lemma verify_proofOfSpace (challenge ccSpHash : Bytes32) :
    proofOfSpace.verifyAndGetQualityString positiveEnv challenge ccSpHash = .ok (some quality) := by
  have hfilter : ProofOfSpace.calculatePlotFilterInput positiveEnv zero32 challenge ccSpHash = zero32 := by
    unfold ProofOfSpace.calculatePlotFilterInput
    rw [append_assoc]
    exact hash_append _ (by simp)
  have hid : proofOfSpace.getPlotId positiveEnv = .ok zero32 := by decide +kernel
  have hchallenge : ProofOfSpace.calculatePosChallenge positiveEnv zero32 challenge ccSpHash = proofOfSpace.challenge := by
    unfold ProofOfSpace.calculatePosChallenge
    rw [hfilter]
    decide +kernel
  have hpasses : ProofOfSpace.passesPlotFilter positiveEnv zero32 challenge ccSpHash = true := by
    unfold ProofOfSpace.passesPlotFilter
    rw [hfilter]
    decide +kernel
  have hproof : positiveEnv.validateProof zero32 32 zero32 [65] = some quality :=
    congrArg (fun n => some (SizedBytes.ofNat 32 (n * 2 ^ 230))) (show beNat [65] = 65 from rfl)
  unfold ProofOfSpace.verifyAndGetQualityString
  rw [if_neg (by decide), if_neg (by decide), if_neg (by decide), if_neg (by decide), hid, ok_bind,
    if_neg (not_not.mpr hchallenge), hpasses]
  exact congrArg Except.ok hproof

lemma calculateIterationsQuality_eq {d : ℕ} (hd : 0 < d) (hlt : d < 2 ^ 64) (ccSpHash : Bytes32) :
    calculateIterationsQuality positiveEnv quality 32 d ccSpHash = .ok d := by
  have hhash : positiveEnv.stdHash (quality.toBytes ++ ccSpHash.toBytes) = quality := hash_append _ (by simp)
  have hnat : beNat quality.toBytes = 65 * 2 ^ 230 := by decide +kernel
  have hquot : floorDiv (d * DIFFICULTY_CONSTANT_FACTOR * beNat quality.toBytes) (2 ^ 256 * expectedPlotSize 32) =
      .ok (d : ℤ) := by
    rw [hnat]
    unfold floorDiv expectedPlotSize
    rw [if_neg (by norm_num), Int.fdiv_eq_ediv_of_nonneg _ (by norm_num)]
    congr 1
    norm_num
    omega
  unfold calculateIterationsQuality
  dsimp only
  rw [hhash, hquot, ok_bind, uint64_eq_ok.mpr ⟨rfl, hlt⟩, ok_bind, Nat.max_eq_left hd]
  rfl

lemma isValid_vdfProof {input : ClassgroupElement} {info : VDFInfo} {target : Option VDFInfo}
    (hpos : 0 < info.numberOfIterations) (htarget : target = none ∨ target = some info) :
    vdfProof.isValid positiveEnv input info target = true := by
  unfold VDFProof.isValid
  rcases htarget with rfl | rfl <;> simp [vdfProof, positiveEnv, hpos]

section Farm

/-- The last one of hashes that may be missing. -/
def lastHash (hashes : Option (List Bytes32)) : Bytes32 := (hashes.getD []).getLastD zero32

variable (tip : BlockRecord) (ses : Option SubEpochSummary) (ssi difficulty : ℕ)

/-- The infused challenge chain at the end of the slot of a tip that starts it. -/
def iccEndOfSlot : InfusedChallengeChainSubSlot :=
  ⟨if tip.isChallengeBlock then vdf tip.challengeBlockInfoHash (tip.subSlotIters - tip.ip)
    else vdf (lastHash tip.finishedInfusedChallengeSlotHashes) tip.subSlotIters⟩

def ccEndOfSlot : ChallengeChainSubSlot where
  challengeChainEndOfSlotVdf := vdf (lastHash tip.finishedChallengeSlotHashes) tip.subSlotIters
  infusedChallengeChainSubSlotHash := if tip.deficit = 0 then some ((iccEndOfSlot tip).getHash positiveEnv) else none
  subepochSummaryHash := ses.map fun s => hash s.stream
  newSubSlotIters := ses.bind SubEpochSummary.newSubSlotIters
  newDifficulty := ses.bind SubEpochSummary.newDifficulty

def endOfSlot : EndOfSubSlotBundle where
  challengeChain := ccEndOfSlot tip ses
  infusedChallengeChain := some (iccEndOfSlot tip)
  rewardChain :=
    { endOfSlotVdf := vdf tip.rewardInfusionNewChallenge (tip.subSlotIters - tip.ip)
      challengeChainSubSlotHash := (ccEndOfSlot tip ses).getHash positiveEnv
      infusedChallengeChainSubSlotHash := some ((iccEndOfSlot tip).getHash positiveEnv)
      deficit := if tip.deficit = 0 then 16 else tip.deficit }
  proofs := ⟨vdfProof, some vdfProof, vdfProof⟩

def farmedRewardBlock : RewardChainBlock :=
  let cc := (endOfSlot tip ses).challengeChain.getHash positiveEnv
  let rc := (endOfSlot tip ses).rewardChain.getHash positiveEnv
  { weight := (tip.weight + difficulty) % 2 ^ 128
    weight_lt := Nat.mod_lt _ (Nat.two_pow_pos 128)
    height := (tip.height + 1) % 2 ^ 32
    height_lt := Nat.mod_lt _ (Nat.two_pow_pos 32)
    totalIters := tip.slotStart + tip.subSlotIters + infusionPoint ssi 59 difficulty
    signagePointIndex := 59
    posSsCcChallengeHash := cc
    proofOfSpace := proofOfSpace
    challengeChainSpVdf := some (vdf cc (spInterval ssi * 59))
    challengeChainSpSignature := .ofNat 96 0
    challengeChainIpVdf := vdf cc (infusionPoint ssi 59 difficulty)
    rewardChainSpVdf := some (vdf rc (spInterval ssi * 59))
    rewardChainSpSignature := .ofNat 96 0
    rewardChainIpVdf := vdf rc (infusionPoint ssi 59 difficulty)
    infusedChallengeChainIpVdf := if tip.deficit = 0 then none
      else some (vdf ((iccEndOfSlot tip).getHash positiveEnv) (infusionPoint ssi 59 difficulty))
    isTransactionBlock := true }

/-- A transaction block at signage point 59 of the next slot. -/
def farm : HeaderBlock :=
  header tip.headerHash (.ofNat 32 (tip.height + 2)) [endOfSlot tip ses] (farmedRewardBlock tip ses ssi difficulty)
    (some ⟨tip.headerHash, 100 * (tip.height + 1), zero32, zero32, zero32, zero32⟩)

/-- The record of the farmed block. -/
def farmedRecord : BlockRecord :=
  headerBlockToSubBlockRecord positiveEnv difficulty (farm tip ses ssi difficulty) ssi false
    (nextDeficit tip.deficit false 1) ses

/-- The iterations of the farmed block. -/
def farmedIters : Iters where
  spIters := spInterval ssi * 59
  ipIters := infusionPoint ssi 59 difficulty
  totalIters := tip.slotStart + tip.subSlotIters + infusionPoint ssi 59 difficulty
  spTotalIters := tip.slotStart + tip.subSlotIters + spInterval ssi * 59

/-- The hash of the output of the VDF to the signage point. -/
def spHash : Bytes32 := hash ClassgroupElement.getDefaultElement.toBytes

end Farm

variable {blocks : Blocks} {tip : BlockRecord} {older : List BlockRecord} {ses : Option SubEpochSummary} {ssi d : ℕ}

/-- A tip on which a block can be farmed. -/
structure Farmable (blocks : Blocks) (tip : BlockRecord) (older : List BlockRecord) (ses : Option SubEpochSummary)
    (ssi d : ℕ) : Prop where
  chain : ValidChain positiveEnv (tip :: older)
  knows : Knows blocks (tip :: older)
  first : tip.firstInSubSlot = true
  deficit : tip.deficit < 16
  timestamp : ∃ t, tip.timestamp = some t ∧ t < 100 * (tip.height + 1)
  iters : ItersOk ssi 59 d
  summary_isSome : ses.isSome = canFinishSe tip older
  summary : ∀ s, ses = some s → ∃ prevPrevB, blocks.blockRecord tip.prevHash = .ok prevPrevB ∧
    makeSubEpochSummary positiveEnv blocks (tip.height + 1) prevPrevB (if epochAligned tip then some d else none)
      (if epochAligned tip then some ssi else none) = .ok s
  height_lt : tip.height + 1 < 2 ^ 32
  weight_lt : tip.weight + d < 2 ^ 128
  total_lt : tip.slotStart + tip.subSlotIters + ssi < 2 ^ 128

lemma accepts_checkProofOfSpace {ctx : Context} {hb : UnfinishedHeaderBlock} {cc : Bytes32} {iters : ℕ}
    (hchallenge : getBlockChallenge positiveEnv hb blocks ctx.prevB.isNone ctx.overflow ctx.skipOverflowLastSsValidation =
      .ok hb.rewardChainBlock.posSsCcChallengeHash)
    (hproof : hb.rewardChainBlock.proofOfSpace = proofOfSpace)
    (hvdf : hb.rewardChainBlock.challengeChainSpVdf = some (vdf cc iters))
    (hiters : ItersOk ctx.expectedSubSlotIters hb.rewardChainBlock.signagePointIndex ctx.expectedDifficulty) :
    Accepts (checkProofOfSpace positiveEnv blocks ctx hb) (ctx.expectedDifficulty, spHash) := by
  have hlt : ctx.expectedDifficulty < 2 ^ 64 := by
    have := hiters.required_lt
    have := hiters.lt
    unfold spInterval at *
    omega
  have hinterval : spInterval ctx.expectedSubSlotIters < 2 ^ 64 := (Nat.div_le_self _ 64).trans_lt hiters.lt
  refine accepts_lift_bind.mpr ⟨_, hchallenge, accepts_require_bind.mpr ⟨decide_eq_true rfl, ?_⟩⟩
  rw [hproof, hvdf]
  refine accepts_lift_bind.mpr ⟨_, verify_proofOfSpace _ _, accepts_require_bind.mpr ⟨decide_eq_true hiters.index, ?_⟩⟩
  refine accepts_lift_bind.mpr ⟨_, calculateIterationsQuality_eq hiters.required_pos hlt _, ?_⟩
  refine accepts_lift_bind.mpr ⟨_, calculateSpIntervalIters_eq_ok.mpr ⟨hiters.divides, hinterval, rfl⟩, ?_⟩
  exact accepts_require_bind.mpr ⟨decide_eq_true hiters.required_lt, accepts_pure.mpr rfl⟩

lemma lastOf_getD {hashes : Option (List Bytes32)} (h : hashes.isSome = true) (hne : hashes ≠ some []) :
    ∃ l, hashes = some l ∧ lastOf l = .ok (lastHash hashes) := by
  obtain ⟨l, rfl⟩ := Option.isSome_iff_exists.mp h
  have hl : l ≠ [] := fun heq => hne (by rw [heq])
  refine ⟨l, rfl, ?_⟩
  unfold lastOf lastHash
  rw [Option.getD_some, getLastD_eq_getLast?, getLast?_eq_some_getLast hl]
  rfl

namespace Farmable

variable (h : Farmable blocks tip older ses ssi d)

include h

lemma recordOk : RecordOk tip := h.chain.recordOk tip mem_cons_self

lemma backTo {stop : BlockRecord → Bool} (hstop : stop tip = true) :
    blocks.backTo stop tip = .ok tip := by
  rw [backTo_eq_find h.knows h.chain.linked, find?_cons_of_pos hstop]
  rfl

lemma challengeHashes : ∃ l, tip.finishedChallengeSlotHashes = some l ∧
      lastOf l = .ok (lastHash tip.finishedChallengeSlotHashes) := by
  refine lastOf_getD h.first fun hnil => ?_
  cases h.chain with
  | genesis n r hr =>
    have hslots := hr.challengeSlots
    rw [hnil] at hslots
    have hmax : 0 = max n 1 := Option.some.inj hslots
    omega
  | block n r prev older _ hr =>
    have hslots := hr.challengeSlots
    rw [hnil] at hslots
    split_ifs at hslots with hn
    · cases hslots
    · exact hn (Option.some.inj hslots).symm

/-- A block that is no challenge block comes after one, and so the infused challenge chain goes on. -/
lemma infused (hnot : tip.isChallengeBlock = false) :
    (∃ l, tip.finishedInfusedChallengeSlotHashes = some l ∧
      lastOf l = .ok (lastHash tip.finishedInfusedChallengeSlotHashes)) ∧
      ∃ input, tip.infusedChallengeVdfOutput = some input := by
  have hne : tip.deficit ≠ 15 := of_decide_eq_false hnot
  have hlt : tip.deficit < 15 := by
    have := h.deficit
    omega
  cases h.chain with
  | genesis n r hr => exact absurd hr.deficit hne
  | block n r prev older _ hr =>
    have hpos : 0 < n := of_decide_eq_true (hr.first.symm.trans h.first)
    have hprev : prev.deficit < 16 := by
      have hle := (h.chain.deficit_le prev (by simp))
      have hdeficit := hr.deficit
      unfold nextDeficit at hdeficit
      split_ifs at hdeficit <;> omega
    refine ⟨lastOf_getD (by rw [hr.infusedSlots]; exact decide_eq_true hpos) (hr.infusedSlots_ne hpos hprev),
      Option.isSome_iff_exists.mp (hr.infusedVdf hlt)⟩

lemma slotIters : 0 < tip.subSlotIters - tip.ip ∧
    uint64 ((tip.subSlotIters : ℤ) - tip.ip) = .ok (tip.subSlotIters - tip.ip) := by
  have := h.recordOk.ip_lt
  have := h.recordOk.iters.lt
  exact ⟨by omega, uint64_eq_ok.mpr ⟨by omega, by omega⟩⟩

lemma iccTarget_eq : ∃ target input,
    iccTarget positiveEnv blocks tip none = .ok (some target) ∧ target.vdfInput = some input ∧
      target.itersProof = tip.subSlotIters - tip.ip ∧
      (iccEndOfSlot tip).infusedChallengeChainEndOfSlotVdf = vdf target.challengeHash target.itersCommitted := by
  have hok := h.recordOk
  have hproof := h.slotIters.2
  unfold iccTarget
  dsimp only
  rw [if_pos h.deficit, h.backTo (by simp [h.first]), ok_bind]
  unfold iccStart iccEndOfSlot
  cases hchallenge : tip.isChallengeBlock with
  | true =>
    simp only [if_true, hok.ipIters, ok_bind, hproof]
    exact ⟨_, _, rfl, rfl, rfl, rfl⟩
  | false =>
    obtain ⟨⟨l, hl, hlast⟩, input, hinput⟩ := h.infused hchallenge
    simp only [Bool.false_eq_true, if_false, hl, assertSome_ok.mpr rfl, ok_bind, hok.ipIters, hproof]
    rw [hl] at hlast
    rw [hlast]
    exact ⟨_, _, rfl, hinput, rfl, rfl⟩

lemma slotChallenge :
    Accepts (checkSlotChallenge positiveEnv blocks (chainContext tip older false 1 d ssi) none (endOfSlot tip ses)) () := by
  obtain ⟨l, hl, hlast⟩ := h.challengeHashes
  refine accepts_lift_bind.mpr ⟨tip, h.backTo h.first, accepts_lift_bind.mpr ⟨l, assertSome_ok.mpr hl, ?_⟩⟩
  exact accepts_lift_bind.mpr ⟨_, hlast, accepts_require.mpr (decide_eq_true rfl)⟩

lemma slotIcc :
    Accepts (checkSlotIcc positiveEnv blocks (chainContext tip older false 1 d ssi) false none (endOfSlot tip ses)) () := by
  obtain ⟨target, input, htarget, hinput, hiters, hicc⟩ := h.iccTarget_eq
  have hlt := h.deficit
  refine accepts_lift_bind.mpr ⟨_, htarget, accepts_lift_bind.mpr ⟨(), rfl, ?_⟩⟩
  refine accepts_lift_bind.mpr ⟨input, assertSome_ok.mpr hinput, accepts_lift_bind.mpr ⟨vdfProof, rfl, ?_⟩⟩
  simp only [accepts_require_bind, accepts_require, decide_eq_true_eq]
  refine ⟨hicc.trans (by rw [hicc]; rfl), ?_, rfl, ?_, rfl⟩
  · rw [isValid_vdfProof (show 0 < target.itersProof from hiters ▸ h.slotIters.1) (.inl rfl)]
    rfl
  · change (if tip.deficit = 0 then _ else _) = if (if tip.deficit = 0 then 16 else tip.deficit) = 16 then _ else _
    by_cases hzero : tip.deficit = 0
    · rw [if_pos hzero, if_pos hzero, if_pos rfl]
    · rw [if_neg hzero, if_neg hzero, if_neg hlt.ne]

lemma slotVdfs :
    Accepts (checkSlotVdfs positiveEnv (chainContext tip older false 1 d ssi) false none (endOfSlot tip ses)) () := by
  obtain ⟨hpos, hiters⟩ := h.slotIters
  have hstart : eosVdfStart positiveEnv (chainContext tip older false 1 d ssi) none =
      .ok (tip.rewardInfusionNewChallenge, tip.subSlotIters - tip.ip, tip.challengeVdfOutput) := by
    change (do let ipIters ← tip.ipIters; _) = _
    rw [h.recordOk.ipIters, ok_bind, hiters]
    rfl
  refine accepts_lift_bind.mpr ⟨_, hstart, ?_⟩
  simp only [accepts_require_bind, accepts_require, decide_eq_true_eq]
  refine ⟨isValid_vdfProof hpos (.inr rfl), rfl, ?_, rfl⟩
  exact isValid_vdfProof hpos (.inl rfl)

lemma summary_values {s : SubEpochSummary} (hs : ses = some s) :
    s.newDifficulty = (if epochAligned tip then some d else none) ∧
      s.newSubSlotIters = if epochAligned tip then some ssi else none := by
  obtain ⟨prevPrevB, -, hmake⟩ := h.summary s hs
  have hcan : canFinishSe tip older = true := by rw [← h.summary_isSome, hs]; rfl
  have hlow := (canFinishSe_eq_true.mp hcan).1
  obtain ⟨_, -, hmake⟩ := bind_eq_ok.mp hmake
  split at hmake
  · rename_i hfirst
    have hfirst : (tip.height + 1 + 128) / 384 ≤ 1 := hfirst
    have haligned : epochAligned tip = false := by
      unfold epochAligned
      exact decide_eq_false (by omega)
    cases hmake
    simp [haligned]
  · obtain ⟨_, -, hmake⟩ := bind_eq_ok.mp hmake
    iterate 3 obtain ⟨_, -, hmake⟩ := bind_eq_ok.mp hmake
    cases hmake
    exact ⟨rfl, rfl⟩

lemma slots : Accepts (checkFinishedSubSlots positiveEnv blocks
    (chainContext tip older false 1 d ssi) (farm tip ses ssi d).unfinished false true) () := by
  have hsummary : SummaryAccepted positiveEnv (chainContext tip older false 1 d ssi) none (endOfSlot tip ses) none := by
    refine ⟨.inr rfl, .inl rfl, accepts_checkNewValues.mpr ?_, rfl⟩
    have hcan := h.summary_isSome
    cases hses : ses with
    | none => simp [endOfSlot, ccEndOfSlot]
    | some s =>
      obtain ⟨hdifficulty, hiters⟩ := h.summary_values hses
      rw [hses] at hcan
      simp [endOfSlot, ccEndOfSlot, chainContext, hdifficulty, hiters, ← hcan]
  refine accepts_bind.mpr ⟨ses.map fun s => hash s.stream, accepts_checkSubSlots_cons.mpr ⟨_, ⟨h.slotChallenge, h.slotIcc,
    accepts_checkSlotSummary.mpr ⟨hsummary, rfl⟩, h.slotVdfs, ?_⟩, accepts_pure.mpr ?_⟩, (accepts_checkSummary rfl).mpr ?_⟩
  · change Accepts (if tip.deficit = 0 then _ else _) ()
    split_ifs with hzero <;> simp [endOfSlot, hzero]
  · cases ses <;> rfl
  · have hcan := h.summary_isSome
    cases hses : ses with
    | none =>
      rw [hses] at hcan
      simp [chainContext, Context.newSubSlot, ← hcan]
    | some s =>
      obtain ⟨prevPrevB, hprev, hmake⟩ := h.summary s hses
      rw [hses] at hcan
      simp only [chainContext, ← hcan]
      exact ⟨rfl, prevPrevB, s, hprev, by simpa using hmake, rfl⟩

lemma checkedProof : Accepts (checkProofOfSpace positiveEnv blocks
    (chainContext tip older false 1 d ssi) (farm tip ses ssi d).unfinished) (d, spHash) :=
  accepts_checkProofOfSpace rfl rfl rfl h.iters

lemma itersAccepted : ItersAccepted tip older 1 ssi d
    (farmedRewardBlock tip ses ssi d).getUnfinished (farmedIters tip ssi d) := by
  have hstart : slotStartAfter tip 1 ssi = tip.slotStart + tip.subSlotIters := by simp [slotStartAfter]
  have hip := h.iters.infusionPoint_lt
  have hssi := h.iters.ssi_eq
  have htotal := h.total_lt
  have hnot : ¬61 ≤ (farmedRewardBlock tip ses ssi d).getUnfinished.signagePointIndex := show ¬61 ≤ 59 by decide
  refine ⟨rfl, rfl, h.iters, fun hoverflow => absurd hoverflow hnot, rfl, rfl, rfl, ?_, ?_, ?_, ?_⟩
  · rw [hstart]
    rfl
  · change tip.slotStart + tip.subSlotIters + infusionPoint ssi 59 d < 2 ^ 128
    omega
  · rw [hstart, if_neg hnot]
    change ((tip.slotStart + tip.subSlotIters + spInterval ssi * 59 : ℕ) : ℤ) =
      (tip.slotStart + tip.subSlotIters : ℕ) + spInterval ssi * (59 : ℕ) - (0 : ℕ)
    push_cast
    ring
  · change tip.slotStart + tip.subSlotIters + spInterval ssi * 59 < 2 ^ 128
    omega

lemma signagePoint : Accepts (checkSignagePoint positiveEnv blocks
    (chainContext tip older false 1 d ssi) false (farm tip ses ssi d).unfinished spHash (farmedIters tip ssi d)) () := by
  have hpos : 0 < spInterval ssi * 59 := Nat.mul_pos h.iters.interval_pos (by decide)
  refine accepts_lift_bind.mpr ⟨_, rfl, accepts_bind.mpr ⟨spHash, ?_, accepts_require_bind.mpr ⟨rfl, ?_⟩⟩⟩
  · unfold checkRcSp
    rw [if_pos (show (farmedIters tip ssi d).spIters ≠ 0 from hpos.ne')]
    refine accepts_lift_bind.mpr ⟨_, rfl, accepts_lift_bind.mpr ⟨vdfProof, rfl, accepts_require_bind.mpr ⟨?_, ?_⟩⟩⟩
    · exact isValid_vdfProof hpos (.inr rfl)
    · exact accepts_pure.mpr rfl
  refine accepts_bind.mpr ⟨(), ?_, accepts_require.mpr rfl⟩
  unfold checkCcSp
  rw [if_pos (show (farmedIters tip ssi d).spIters ≠ 0 from hpos.ne')]
  refine accepts_lift_bind.mpr ⟨_, rfl, accepts_lift_bind.mpr ⟨vdfProof, rfl, accepts_require_bind.mpr ⟨?_, ?_⟩⟩⟩
  · exact decide_eq_true rfl
  · exact accepts_require_bind.mpr ⟨isValid_vdfProof hpos (.inl rfl), accepts_require.mpr rfl⟩

lemma lastTransaction : lastTransactionBlock (tip :: older) = some tip := by
  obtain ⟨t, ht, -⟩ := h.timestamp
  exact find?_cons_of_pos (by simp [BlockRecord.isTransactionBlock, ht])

lemma transaction : Accepts (checkIsTransactionBlock blocks
    (chainContext tip older false 1 d ssi) (farm tip ses ssi d).foliage (farmedIters tip ssi d)) () := by
  have hafter : decide (tip.totalIters < (farmedIters tip ssi d).spTotalIters) = true := by
    have := h.recordOk.total_eq
    have := h.recordOk.ip_lt
    exact decide_eq_true (show tip.totalIters < tip.slotStart + tip.subSlotIters + spInterval ssi * 59 by omega)
  exact (accepts_checkIsTransactionBlock h.knows h.chain.linked h.itersAccepted).mpr
    ⟨tip, h.lastTransaction, hafter, hafter⟩

lemma foliageAccepted : Accepts (checkFoliageTransactionBlock positiveEnv
    (100 * (tip.height + 1)) blocks (chainContext tip older false 1 d ssi) false (farm tip ses ssi d).unfinished) () := by
  refine (accepts_checkFoliageTransactionBlock h.knows h.chain.linked rfl).mpr ⟨rfl, rfl, fun ftb hftb => ⟨tip, ?_⟩⟩
  cases hftb
  exact ⟨rfl, h.lastTransaction, rfl, nofun, Nat.le_add_right _ _, h.timestamp⟩

lemma farm_height : (farm tip ses ssi d).height = tip.height + 1 := Nat.mod_eq_of_lt h.height_lt

lemma finished : FinishedAccepted positiveEnv blocks (farm tip ses ssi d) tip d
    (infusionPoint ssi 59 d) ((endOfSlot tip ses).rewardChain.getHash positiveEnv, infusionPoint ssi 59 d,
      ClassgroupElement.getDefaultElement) ((endOfSlot tip ses).challengeChain.getHash positiveEnv) := by
  have hpos : 0 < infusionPoint ssi 59 d := by
    rw [h.iters.infusionPoint_eq (by decide)]
    exact Nat.add_pos_right _ h.iters.required_pos
  have hheight := h.farm_height
  refine ⟨hheight, Nat.mod_eq_of_lt h.weight_lt, rfl, rfl, ?_, ?_, rfl, rfl⟩
  · refine accepts_require_bind.mpr ⟨decide_eq_true rfl, accepts_require_bind.mpr ⟨isValid_vdfProof hpos (.inl rfl), ?_⟩⟩
    exact accepts_require_bind.mpr ⟨rfl, accepts_require.mpr (isValid_vdfProof hpos (.inr rfl))⟩
  · have hdeficit := calculateDeficit_eq h.deficit.le (show (farm tip ses ssi d).height ≠ 0 by omega) false 1
    refine accepts_lift_bind.mpr ⟨false, rfl, accepts_lift_bind.mpr ⟨_, hdeficit, ?_⟩⟩
    have hlt := h.deficit
    unfold nextDeficit
    by_cases hzero : tip.deficit = 0
    · have hvdf : (farm tip ses ssi d).rewardChainBlock.infusedChallengeChainIpVdf = none := if_pos hzero
      rw [hvdf]
      simp [hzero]
    · have hvdf : (farm tip ses ssi d).rewardChainBlock.infusedChallengeChainIpVdf =
          some (vdf ((iccEndOfSlot tip).getHash positiveEnv) (infusionPoint ssi 59 d)) := if_neg hzero
      have hproof : (farm tip ses ssi d).infusedChallengeChainIpProof = some vdfProof := congrArg (Option.map _) hvdf
      rw [hvdf]
      refine accepts_lift_bind.mpr ⟨vdfProof, assertSome_ok.mpr hproof, accepts_require_bind.mpr ⟨?_, ?_⟩⟩
      · rw [if_neg hlt.ne, if_neg hzero]
        exact decide_eq_true (show tip.deficit - 1 < 15 by omega)
      · exact accepts_lift_bind.mpr ⟨_, rfl, accepts_require.mpr (isValid_vdfProof hpos (.inr rfl))⟩

lemma accepts : Accepts (validateFinishedHeaderBlock positiveEnv
    (100 * (tip.height + 1)) blocks (farm tip ses ssi d) false d ssi true) d := by
  refine (accepts_block_iff h.chain h.knows rfl h.iters.lt).mpr ⟨farmedIters tip ssi d, spHash, _, _,
    ⟨?_, h.slots, accepts_pure.mpr rfl, h.checkedProof, ?_, h.signagePoint, h.transaction, ?_, ?_, h.foliageAccepted⟩,
    h.itersAccepted, h.finished⟩
  · exact (accepts_context_iff h.knows h.chain.linked rfl).mpr ⟨show 59 < 64 by decide, h.height_lt, rfl⟩
  · exact (accepts_checkIters h.recordOk h.iters.lt).mpr h.itersAccepted
  · refine accepts_require_bind.mpr ⟨rfl, accepts_bind.mpr ⟨(), ?_, accepts_require.mpr (decide_eq_true rfl)⟩⟩
    exact accepts_lift_bind.mpr ⟨true, rfl, accepts_require.mpr rfl⟩
  · exact accepts_require_bind.mpr ⟨rfl, accepts_lift_bind.mpr ⟨zero32, rfl, accepts_require.mpr rfl⟩⟩

lemma summaryIncluded_eq :
    summaryIncluded positiveEnv blocks (farm tip ses ssi d) (some tip) = .ok ses := by
  have hheight := h.farm_height
  unfold summaryIncluded
  rw [hheight]
  cases hses : ses with
  | none => rfl
  | some s =>
    obtain ⟨prevPrevB, hprev, hmake⟩ := h.summary s hses
    obtain ⟨hdifficulty, hiters⟩ := h.summary_values hses
    rw [← hdifficulty, ← hiters] at hmake
    refine bind_eq_ok.mpr ⟨tip, rfl, bind_eq_ok.mpr ⟨prevPrevB, hprev, bind_eq_ok.mpr ⟨s, hmake, ?_⟩⟩⟩
    exact bind_eq_ok.mpr ⟨(), pyAssert_ok.mpr (decide_eq_true rfl), rfl⟩

lemma record (hnext : getNextSubSlotItersAndDifficulty true (some tip) blocks = .ok (ssi, d)) :
    blockToBlockRecord positiveEnv blocks d (farm tip ses ssi d) = .ok (farmedRecord tip ses ssi d) := by
  have hprev : blocks.tryBlockRecord (farm tip ses ssi d).prevHeaderHash = some tip := h.knows.records tip mem_cons_self
  have hheight := h.farm_height
  have hdeficit := calculateDeficit_eq h.deficit.le (show (farm tip ses ssi d).height ≠ 0 by omega) false 1
  unfold blockToBlockRecord
  dsimp only
  rw [hprev]
  refine bind_eq_ok.mpr ⟨(), pyAssert_ok.mpr (Bool.or_true _), bind_eq_ok.mpr ⟨(ssi, d), hnext, ?_⟩⟩
  exact bind_eq_ok.mpr ⟨false, rfl, bind_eq_ok.mpr ⟨_, hdeficit, bind_eq_ok.mpr ⟨ses, h.summaryIncluded_eq, rfl⟩⟩⟩

/-- The farmed block is accepted. -/
lemma acceptedChain (hchain : AcceptedChain positiveEnv (tip :: older))
    (hnext : getNextSubSlotItersAndDifficulty true (some tip) blocks = .ok (ssi, d)) :
    AcceptedChain positiveEnv (farmedRecord tip ses ssi d :: tip :: older) :=
  .block blocks (farm tip ses ssi d) _ tip older hchain h.knows rfl
    ⟨h.knows.records tip mem_cons_self, _, false, ssi, d, d, hnext, h.accepts, h.record hnext⟩

end Farmable

end SectorChain.Header.Sample
