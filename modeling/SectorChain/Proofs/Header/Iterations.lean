import SectorChain.Proofs.Header.Chains

/-!
# Iterations of records
-/

namespace SectorChain.Header

open Lib Nat

variable {n : ℕ} {x : ℤ}

lemma toUint_eq_ok {bits : ℕ} : toUint bits x = .ok n ↔ x = n ∧ n < 2 ^ bits := by
  unfold toUint
  constructor
  · intro h
    split at h
    · rename_i hfits
      cases h
      refine ⟨(Int.toNat_of_nonneg hfits.1).symm, ?_⟩
      have hlt := hfits.2
      rw [← Int.toNat_of_nonneg hfits.1] at hlt
      exact_mod_cast hlt
    · cases h
  · rintro ⟨rfl, hlt⟩
    rw [if_pos ⟨Int.natCast_nonneg n, by exact_mod_cast hlt⟩, Int.toNat_natCast]

lemma uint8_eq_ok : uint8 x = .ok n ↔ x = n ∧ n < 2 ^ 8 := toUint_eq_ok

lemma uint32_eq_ok : uint32 x = .ok n ↔ x = n ∧ n < 2 ^ 32 := toUint_eq_ok

lemma uint32_succ (h : n + 1 < 2 ^ 32) : uint32 ((n : ℤ) + 1) = .ok (n + 1) :=
  uint32_eq_ok.mpr ⟨by push_cast; rfl, h⟩

lemma uint64_eq_ok : uint64 x = .ok n ↔ x = n ∧ n < 2 ^ 64 := toUint_eq_ok

lemma uint128_eq_ok : uint128 x = .ok n ↔ x = n ∧ n < 2 ^ 128 := toUint_eq_ok

/-- A conversion that does not return raises `ValueError`. -/
lemma toUint_eq_error {bits : ℕ} {e : PyError} (h : toUint bits x = .error e) :
    e = .valueError ∧ ¬(0 ≤ x ∧ x < 2 ^ bits) := by
  unfold toUint at h
  split at h
  · cases h
  · rename_i hfits
    cases h
    exact ⟨rfl, hfits⟩

lemma modulo_eq_ok {x y : ℕ} : modulo x y = .ok n ↔ y ≠ 0 ∧ x % y = n := by
  unfold modulo
  split
  · rename_i hzero
    exact ⟨fun h => (by cases h), fun h => absurd hzero h.1⟩
  · rename_i hne
    rw [Except.ok.injEq]
    exact ⟨fun h => ⟨hne, h⟩, fun h => h.2⟩

def spInterval (subSlotIters : ℕ) : ℕ := subSlotIters / 64

def infusionPoint (subSlotIters signagePointIndex requiredIters : ℕ) : ℕ :=
  (spInterval subSlotIters * signagePointIndex + 3 * spInterval subSlotIters + requiredIters) % subSlotIters

/-- Slots, signage points and required iterations that fit together. -/
structure ItersOk (subSlotIters signagePointIndex requiredIters : ℕ) : Prop where
  divides : subSlotIters % 64 = 0
  lt : subSlotIters < 2 ^ 64
  index : signagePointIndex < 64
  required_pos : 0 < requiredIters
  required_lt : requiredIters < spInterval subSlotIters

variable {ssi idx req : ℕ}

lemma ItersOk.ssi_eq (h : ItersOk ssi idx req) : ssi = 64 * spInterval ssi := by
  have := h.divides
  unfold spInterval
  omega

lemma ItersOk.interval_pos (h : ItersOk ssi idx req) : 0 < spInterval ssi := lt_of_le_of_lt (Nat.zero_le _) h.required_lt

lemma calculateSpIntervalIters_eq_ok : calculateSpIntervalIters ssi = .ok n ↔
    ssi % 64 = 0 ∧ spInterval ssi < 2 ^ 64 ∧ n = spInterval ssi := by
  unfold calculateSpIntervalIters
  rw [bind_eq_ok]
  simp only [pyAssert_ok, decide_eq_true_eq, uint64_eq_ok, Nat.cast_inj, NUM_SPS_SUB_SLOT, spInterval]
  constructor
  · rintro ⟨-, hmod, rfl, hlt⟩
    exact ⟨hmod, hlt, rfl⟩
  · rintro ⟨hmod, hlt, rfl⟩
    exact ⟨(), hmod, rfl, hlt⟩

lemma calculateSpIters_eq_ok : calculateSpIters ssi idx = .ok n ↔
    idx < 64 ∧ ssi % 64 = 0 ∧ spInterval ssi < 2 ^ 64 ∧ n = spInterval ssi * idx ∧ n < 2 ^ 64 := by
  unfold calculateSpIters
  by_cases hidx : idx ≥ NUM_SPS_SUB_SLOT
  · rw [if_pos hidx]
    constructor
    · intro h
      cases h
    · rintro ⟨hlt, -⟩
      exact absurd hidx (not_le.mpr hlt)
  rw [if_neg hidx]
  rw [bind_eq_ok]
  simp only [calculateSpIntervalIters_eq_ok, uint64_eq_ok, Nat.cast_inj]
  constructor
  · rintro ⟨_, ⟨hmod, hlt, rfl⟩, rfl, hfits⟩
    exact ⟨not_le.mp hidx, hmod, hlt, rfl, hfits⟩
  · rintro ⟨-, hmod, hlt, rfl, hfits⟩
    exact ⟨_, ⟨hmod, hlt, rfl⟩, rfl, hfits⟩

lemma calculateIpIters_eq_ok (hssi : ssi < 2 ^ 64) : calculateIpIters ssi idx req = .ok n ↔
    ItersOk ssi idx req ∧ n = infusionPoint ssi idx req := by
  have hbound : ∀ {i : ℕ}, i < 64 → ssi % 64 = 0 → spInterval ssi * i < 2 ^ 64 ∧ spInterval ssi < 2 ^ 64 := by
    intro i hi hmod
    have hle : spInterval ssi * i ≤ spInterval ssi * 64 := Nat.mul_le_mul_left _ hi.le
    unfold spInterval at *
    omega
  unfold calculateIpIters
  simp only [bind_eq_ok, calculateSpIters_eq_ok, calculateSpIntervalIters_eq_ok, modulo_eq_ok]
  constructor
  · rintro ⟨_, ⟨hidx, hmod, -, rfl, -⟩, _, ⟨-, -, rfl⟩, _, ⟨-, rfl⟩, h⟩
    split at h
    · cases h
    split at h
    · cases h
    rename_i hreq
    obtain ⟨_, hm, h⟩ := bind_eq_ok.mp h
    obtain ⟨-, rfl⟩ := modulo_eq_ok.mp hm
    obtain ⟨heq, -⟩ := uint64_eq_ok.mp h
    rw [not_or, not_le] at hreq
    refine ⟨⟨hmod, hssi, hidx, Nat.pos_of_ne_zero hreq.2, hreq.1⟩, ?_⟩
    exact_mod_cast heq.symm
  · rintro ⟨hok, rfl⟩
    have hpos := hok.interval_pos
    obtain ⟨hsp, hint⟩ := hbound hok.index hok.divides
    have hssiPos : ssi ≠ 0 := by
      have := hok.ssi_eq
      omega
    have hlt : spInterval ssi * idx < ssi := by
      have hmul : spInterval ssi * idx < spInterval ssi * 64 := Nat.mul_lt_mul_of_pos_left hok.index hpos
      have := hok.ssi_eq
      omega
    refine ⟨_, ⟨hok.index, hok.divides, hint, rfl, hsp⟩, _, ⟨hok.divides, hint, rfl⟩, _, ⟨hpos.ne', rfl⟩, ?_⟩
    rw [mul_mod_right, if_neg (not_or.mpr ⟨fun h => h rfl, not_le.mpr hlt⟩)]
    rw [if_neg (not_or.mpr ⟨not_le.mpr hok.required_lt, hok.required_pos.ne'⟩)]
    rw [bind_eq_ok]
    refine ⟨_, modulo_eq_ok.mpr ⟨hssiPos, rfl⟩, uint64_eq_ok.mpr ⟨rfl, ?_⟩⟩
    exact (mod_lt _ (Nat.pos_of_ne_zero hssiPos)).trans hssi

lemma calculateSpIters_of_itersOk (h : ItersOk ssi idx req) : calculateSpIters ssi idx = .ok (spInterval ssi * idx) := by
  have hle : spInterval ssi * idx ≤ spInterval ssi * 64 := Nat.mul_le_mul_left _ h.index.le
  have := h.ssi_eq
  have := h.lt
  exact calculateSpIters_eq_ok.mpr ⟨h.index, h.divides, by omega, rfl, by omega⟩

lemma ItersOk.ssi_pos (h : ItersOk ssi idx req) : 0 < ssi := by
  have := h.ssi_eq
  have := h.interval_pos
  omega

lemma ItersOk.infusionPoint_lt (h : ItersOk ssi idx req) : infusionPoint ssi idx req < ssi := mod_lt _ h.ssi_pos

lemma ItersOk.infusionPoint_eq (h : ItersOk ssi idx req) (hidx : idx < 61) :
    infusionPoint ssi idx req = spInterval ssi * (idx + 3) + req := by
  unfold infusionPoint
  have hmul : spInterval ssi * (idx + 3) ≤ spInterval ssi * 63 := Nat.mul_le_mul_left _ (by omega)
  have := h.ssi_eq
  have := h.required_lt
  rw [Nat.mul_add] at *
  rw [mod_eq_of_lt (by omega)]
  omega

lemma ItersOk.infusionPoint_eq_of_overflow (h : ItersOk ssi idx req) (hidx : 61 ≤ idx) :
    infusionPoint ssi idx req = spInterval ssi * (idx - 61) + req := by
  unfold infusionPoint
  have hsplit : spInterval ssi * idx + 3 * spInterval ssi + req = (spInterval ssi * (idx - 61) + req) + ssi := by
    obtain ⟨k, rfl⟩ := Nat.exists_eq_add_of_le hidx
    have := h.ssi_eq
    rw [Nat.add_sub_cancel_left, Nat.mul_add]
    omega
  have hmul : spInterval ssi * (idx - 61) ≤ spInterval ssi * 2 := Nat.mul_le_mul_left _ (by have := h.index; omega)
  have := h.ssi_eq
  have := h.required_lt
  rw [hsplit, add_mod_right, mod_eq_of_lt (by omega)]

namespace BlockRecord

def ip (r : BlockRecord) : ℕ := infusionPoint r.subSlotIters r.signagePointIndex r.requiredIters

def slotStart (r : BlockRecord) : ℕ := r.totalIters - r.ip

def sp (r : BlockRecord) : ℕ := spInterval r.subSlotIters * r.signagePointIndex

def spTotal (r : BlockRecord) : ℕ := r.slotStart + r.sp - (if r.overflow then r.subSlotIters else 0)

end BlockRecord

/-- A record whose numbers fit together. -/
structure RecordOk (r : BlockRecord) : Prop where
  iters : ItersOk r.subSlotIters r.signagePointIndex r.requiredIters
  overflow : r.overflow = decide (61 ≤ r.signagePointIndex)
  ip_le : r.ip ≤ r.totalIters
  total_lt : r.totalIters < 2 ^ 128
  signagePoint : r.overflow = true → r.subSlotIters ≤ r.slotStart + r.sp

namespace RecordOk

variable {r : BlockRecord}

lemma ipIters (h : RecordOk r) : r.ipIters = .ok r.ip := (calculateIpIters_eq_ok h.iters.lt).mpr ⟨h.iters, rfl⟩

lemma total_eq (h : RecordOk r) : r.totalIters = r.slotStart + r.ip := (Nat.sub_add_cancel h.ip_le).symm

lemma ip_lt (h : RecordOk r) : r.ip < r.subSlotIters := h.iters.infusionPoint_lt

lemma sp_lt (h : RecordOk r) : r.sp < r.subSlotIters := by
  have hmul : spInterval r.subSlotIters * r.signagePointIndex < spInterval r.subSlotIters * 64 :=
    Nat.mul_lt_mul_of_pos_left h.iters.index h.iters.interval_pos
  have := h.iters.ssi_eq
  unfold BlockRecord.sp
  omega

lemma slotStart_pos (h : RecordOk r) (hoverflow : r.overflow = true) : 0 < r.slotStart := by
  have := h.signagePoint hoverflow
  have := h.sp_lt
  omega

end RecordOk

lemma ItersOk.exists_infusionPoint (h : ItersOk ssi idx req) :
    ∃ k, infusionPoint ssi idx req = spInterval ssi * k + req ∧ (if idx < 61 then k = idx + 3 else k + 61 = idx) := by
  by_cases hidx : idx < 61
  · exact ⟨idx + 3, h.infusionPoint_eq hidx, by rw [if_pos hidx]⟩
  · exact ⟨idx - 61, h.infusionPoint_eq_of_overflow (not_lt.mp hidx), by rw [if_neg hidx]; omega⟩

lemma BlockRecord.spTotalIters_eq_ok_iff {r : BlockRecord} (h : ItersOk r.subSlotIters r.signagePointIndex r.requiredIters)
    (hlt : r.totalIters < 2 ^ 128) {total : ℕ} :
    r.spTotalIters = .ok total ↔ r.ip + (if r.overflow then r.subSlotIters else 0) ≤ r.totalIters ∧
      total + r.ip + (if r.overflow then r.subSlotIters else 0) = r.totalIters + r.sp := by
  unfold BlockRecord.spTotalIters BlockRecord.spSubSlotTotalIters BlockRecord.ipIters BlockRecord.spIters
  rw [(calculateIpIters_eq_ok h.lt).mpr ⟨h, rfl⟩, calculateSpIters_of_itersOk h]
  change ((if r.overflow then uint128 (r.totalIters - r.ip - r.subSlotIters) else uint128 (r.totalIters - r.ip)) >>=
    fun start => Except.ok (start + r.sp)) = _ ↔ _
  cases r.overflow with
  | true =>
    simp only [if_true, bind_eq_ok, uint128_eq_ok, Except.ok.injEq]
    constructor
    · rintro ⟨start, ⟨hstart, -⟩, rfl⟩
      omega
    · rintro ⟨hle, heq⟩
      exact ⟨r.totalIters - r.ip - r.subSlotIters, ⟨by omega, by omega⟩, by omega⟩
  | false =>
    simp only [Bool.false_eq_true, if_false, bind_eq_ok, uint128_eq_ok, Except.ok.injEq]
    constructor
    · rintro ⟨start, ⟨hstart, -⟩, rfl⟩
      omega
    · rintro ⟨hle, heq⟩
      exact ⟨r.totalIters - r.ip, ⟨by omega, by omega⟩, by omega⟩

/-- How the signage point, the infusion point and the overflow of a block fit together. -/
structure PointsFit (ssi idx req sp ip : ℕ) (overflow : Bool) : Prop where
  inside : ip < ssi
  overflow_iff : overflow = true ↔ ip < sp
  apart : ∀ idx' sp', calculateSpIters ssi idx' = .ok sp' → ip ≠ sp'
  reconstructed : ∀ r : BlockRecord, r.subSlotIters = ssi → r.signagePointIndex = idx → r.requiredIters = req →
    r.overflow = overflow → r.totalIters < 2 ^ 128 → ∀ total, r.spTotalIters = .ok total ↔
      ip + (if overflow then ssi else 0) ≤ r.totalIters ∧
      total + (NUM_SP_INTERVALS_EXTRA * (ssi / NUM_SPS_SUB_SLOT) + req) = r.totalIters

/-- The points of every block with required iterations below one interval fit together. -/
theorem signage_and_infusion_points_fit (ssi idx req : ℕ) (hdivides : ssi % NUM_SPS_SUB_SLOT = 0) (hlt : ssi < 2 ^ 64)
    (hidx : idx < NUM_SPS_SUB_SLOT) (hpos : 0 < req) (hreq : req < ssi / NUM_SPS_SUB_SLOT) :
    ∃ sp ip overflow, calculateSpIters ssi idx = .ok sp ∧ calculateIpIters ssi idx req = .ok ip ∧
      isOverflowBlock idx = .ok overflow ∧ PointsFit ssi idx req sp ip overflow := by
  have hok : ItersOk ssi idx req := ⟨hdivides, hlt, hidx, hpos, hreq⟩
  obtain ⟨k, hip, hk⟩ := hok.exists_infusionPoint
  refine ⟨_, _, decide (61 ≤ idx), calculateSpIters_of_itersOk hok, (calculateIpIters_eq_ok hlt).mpr ⟨hok, rfl⟩, ?_,
    hok.infusionPoint_lt, ?_, ?_, ?_⟩
  · unfold isOverflowBlock
    rw [if_neg (not_le.mpr hidx)]
    rfl
  · rw [decide_eq_true_iff]
    have hinterval := hok.required_lt
    by_cases hlow : idx < 61
    · rw [if_pos hlow] at hk
      have := Nat.mul_le_mul_left (spInterval ssi) (show idx ≤ k by omega)
      omega
    · rw [if_neg hlow] at hk
      have := Nat.mul_le_mul_left (spInterval ssi) (show k + 1 ≤ idx by omega)
      rw [Nat.mul_add] at this
      omega
  · intro idx' sp' hsp' heq
    obtain ⟨-, -, -, rfl, -⟩ := calculateSpIters_eq_ok.mp hsp'
    have hmod := congrArg (· % spInterval ssi) (hip.symm.trans heq)
    simp only [mul_add_mod, mul_mod_right, mod_eq_of_lt hok.required_lt] at hmod
    omega
  rintro r rfl rfl rfl hoverflow hfits total
  rw [BlockRecord.spTotalIters_eq_ok_iff hok hfits, ← hoverflow]
  refine and_congr_right fun _ => ?_
  -- the infusion point is three intervals and the required iterations after the signage point
  have hdistance : r.ip + (if r.overflow then r.subSlotIters else 0) =
      r.sp + (3 * spInterval r.subSlotIters + r.requiredIters) := by
    unfold BlockRecord.ip BlockRecord.sp
    rw [hip, hoverflow]
    have hssi := hok.ssi_eq
    by_cases hlow : r.signagePointIndex < 61
    · rw [if_pos hlow] at hk
      rw [hk, if_neg (by simpa using hlow), Nat.mul_add]
      omega
    · rw [if_neg hlow] at hk
      rw [← hk, if_pos (by simp), Nat.mul_add]
      omega
  change _ ↔ total + (3 * spInterval r.subSlotIters + r.requiredIters) = _
  omega

theorem signage_and_infusion_points_fit_overflow :
    ∃ sp ip overflow, calculateSpIters (2 ^ 27) 62 = .ok sp ∧ calculateIpIters (2 ^ 27) 62 5 = .ok ip ∧
      isOverflowBlock 62 = .ok overflow ∧ PointsFit (2 ^ 27) 62 5 sp ip overflow :=
  signage_and_infusion_points_fit (2 ^ 27) 62 5 (by decide) (by decide) (by decide) (by decide) (by decide)

end SectorChain.Header
