import SectorChain.FullNode.FutureStore
import SectorChain.Lib.Runs

/-!
# The age of cached messages

A message goes in time if the time of its key is not after its own.
-/

namespace SectorChain.Proofs.FutureMessages

open Lib List FutureStore

variable {α : Type} {cache : FutureCache α} {times : Dict Bytes32 ℤ} {store : FutureStore} {k : Bytes32} {now : ℤ}

/-- Every key has a time, and no message of the cache is too old after a clean-up. -/
structure Bounded (store : FutureStore) (part : FutureStore → FutureCache α) : Prop where
  keyed : ∀ k items, (part store).get? k = some items → ∃ t, store.futureCacheKeyTimes.get? k = some t
  fresh : ∀ now k items, (part (store.clearOldCacheEntries now)).get? k = some items → ∀ m ∈ items, now - m.added ≤ 3600

def BoundedAll (store : FutureStore) : Prop :=
  Bounded store futureEosCache ∧ Bounded store futureSpCache ∧ Bounded store futureIpCache

/-- The time of a key is not after the messages under it. -/
def Timed (times : Dict Bytes32 ℤ) (cache : FutureCache α) : Prop := ∀ k items, cache.get? k = some items →
  ∃ t, times.get? k = some t ∧ ∀ m ∈ items, t ≤ m.added

def TimedAll (store : FutureStore) : Prop := Timed store.futureCacheKeyTimes store.futureEosCache ∧
  Timed store.futureCacheKeyTimes store.futureSpCache ∧ Timed store.futureCacheKeyTimes store.futureIpCache

lemma get?_foldl_erase {ν : Type} (ks : List Bytes32) (d : Dict Bytes32 ν) :
    (ks.foldl Dict.erase d).get? k = if k ∈ ks then none else d.get? k := by
  induction ks generalizing d with
  | nil => rfl
  | cons k' ks ih =>
    rw [foldl_cons, ih, Dict.get?_erase]
    by_cases hk : k = k'
    · simp [hk]
    · simp [hk]

/-- The keys that a clean-up removes. -/
def outdated (times : Dict Bytes32 ℤ) (now : ℤ) : List Bytes32 :=
  (times.entries.filter fun e => now - e.2 > 3600).map Prod.fst

lemma mem_outdated : k ∈ outdated times now ↔ ∃ t, times.get? k = some t ∧ now - t > 3600 := by
  simp [outdated, Dict.mem_entries]

lemma bounded_iff {part : FutureStore → FutureCache α} (hpart : ∀ now, part (store.clearOldCacheEntries now) =
      (outdated store.futureCacheKeyTimes now).foldl Dict.erase (part store)) :
    Bounded store part ↔ Timed store.futureCacheKeyTimes (part store) := by
  have hget : ∀ {now k items}, (part (store.clearOldCacheEntries now)).get? k = some items ↔
      k ∉ outdated store.futureCacheKeyTimes now ∧ (part store).get? k = some items := by
    intro now k items
    rw [hpart, get?_foldl_erase]
    split_ifs with hk <;> simp [hk]
  constructor
  · intro h k items hitems
    obtain ⟨t, ht⟩ := h.keyed k items hitems
    refine ⟨t, ht, fun m hm => ?_⟩
    -- a clean-up at the last moment that leaves the key
    have hkeep : k ∉ outdated store.futureCacheKeyTimes (t + 3600) := by
      rintro hk
      obtain ⟨t', ht', hlt⟩ := mem_outdated.mp hk
      rw [ht] at ht'
      cases ht'
      omega
    have := h.fresh (t + 3600) k items (hget.mpr ⟨hkeep, hitems⟩) m hm
    omega
  · intro h
    refine ⟨fun k items hitems => (h k items hitems).imp fun _ ht => ht.1, fun now k items hitems m hm => ?_⟩
    obtain ⟨hk, hitems⟩ := hget.mp hitems
    obtain ⟨t, ht, hle⟩ := h k items hitems
    have hold := mt (fun hlt => mem_outdated.mpr ⟨t, ht, hlt⟩) hk
    have := hle m hm
    omega

lemma boundedAll_iff : BoundedAll store ↔ TimedAll store := by
  rw [BoundedAll, TimedAll, bounded_iff fun _ => rfl, bounded_iff fun _ => rfl, bounded_iff fun _ => rfl]

/-- Nothing was cached under the key before. -/
def Unaged (cache : FutureCache α) (k : Bytes32) (now : ℤ) : Prop :=
  ∀ items, cache.get? k = some items → ∀ m ∈ items, now ≤ m.added

/-- A key gets its time when nothing older is under it. -/
lemma timed_set (h : Timed times cache) : Timed (times.set k now) cache ↔ Unaged cache k now := by
  constructor
  · intro h' items hitems m hm
    obtain ⟨t, ht, hle⟩ := h' k items hitems
    rw [Dict.get?_set_self] at ht
    cases ht
    exact hle m hm
  intro hk k' items hitems
  rw [Dict.get?_set]
  split_ifs with heq
  · exact ⟨now, rfl, hk items (heq ▸ hitems)⟩
  · exact h k' items hitems

/-- A message may join a key whose time is not after it. -/
lemma timed_append (h : Timed times cache) {m : α} :
    Timed times (cache.append k ⟨m, now⟩) ↔ ∃ t, times.get? k = some t ∧ t ≤ now := by
  constructor
  · intro h'
    obtain ⟨t, ht, hle⟩ := h' k _ (Dict.get?_set_self _ _ _)
    exact ⟨t, ht, hle ⟨m, now⟩ (by simp)⟩
  rintro ⟨t, ht, hle⟩ k' items hitems
  rw [FutureCache.append, Dict.get?_set] at hitems
  split_ifs at hitems with heq
  · cases hitems
    refine ⟨t, heq ▸ ht, fun m' hm' => ?_⟩
    rcases mem_append.mp hm' with hm' | hm'
    · cases hold : cache.get? k with
      | none => simp [hold] at hm'
      | some old =>
        obtain ⟨t', ht', hall⟩ := h k old hold
        cases ht.symm.trans ht'
        exact hall m' (by simpa [hold] using hm')
    · rw [mem_singleton.mp hm']
      exact hle
  · exact h k' items hitems

lemma timed_refresh (h : Timed times cache) {m : α} :
    Timed (times.set k now) (cache.append k ⟨m, now⟩) ↔ Unaged cache k now := by
  constructor
  · intro h' items hitems m' hm'
    obtain ⟨t, ht, hle⟩ := h' k _ (Dict.get?_set_self _ _ _)
    rw [Dict.get?_set_self] at ht
    cases ht
    exact hle m' (by simp [hitems, hm'])
  · exact fun hk => (timed_append ((timed_set h).mpr hk)).mpr ⟨now, Dict.get?_set_self _ _ _, le_rfl⟩

lemma timed_erase (h : Timed times cache) (ks : List Bytes32) :
    Timed (ks.foldl Dict.erase times) (ks.foldl Dict.erase cache) := by
  intro k items hitems
  rw [get?_foldl_erase] at hitems ⊢
  split_ifs at hitems ⊢
  exact h k items hitems

def UnagedAll (store : FutureStore) (k : Bytes32) (now : ℤ) : Prop :=
  Unaged store.futureEosCache k now ∧ Unaged store.futureSpCache k now ∧ Unaged store.futureIpCache k now

/-- A slot or a new signage point comes first under its key, an infusion point after one of them. -/
def Admissible (store : FutureStore) (now : ℤ) : Call → Prop
  | .eos eos => UnagedAll store eos.rewardChain.endOfSlotVdf.challenge now
  | .sp ⟨some ccVdf, some ccProof, some rcVdf, some rcProof⟩ index =>
    store.inFutureSpCache ⟨ccVdf, ccProof, rcVdf, rcProof⟩ index = true ∨ UnagedAll store rcVdf.challenge now
  | .ip infusionPoint =>
    ∃ t, store.futureCacheKeyTimes.get? infusionPoint.rewardChainIpVdf.challenge = some t ∧ t ≤ now
  | _ => True

lemma timedAll_step (h : TimedAll store) (c : Call) : TimedAll (store.step now c) ↔ Admissible store now c := by
  cases c with
  | eos eos => exact and_congr (timed_refresh h.1) (and_congr (timed_set h.2.1) (timed_set h.2.2))
  | sp signagePoint index =>
    obtain ⟨_ | ccVdf, _ | ccProof, _ | rcVdf, _ | rcProof⟩ := signagePoint
    case some.some.some.some =>
      rw [step, addToFutureSp, Admissible]
      by_cases hin : store.inFutureSpCache ⟨ccVdf, ccProof, rcVdf, rcProof⟩ index = true
      · simp [hin, h]
      · simp only [hin, Bool.false_eq_true, if_false, false_or]
        exact and_congr (timed_set h.1) (and_congr (timed_refresh h.2.1) (timed_set h.2.2))
    all_goals exact iff_of_true h trivial
  | ip infusionPoint =>
    exact ⟨fun h' => (timed_append h.2.2).mp h'.2.2, fun hk => ⟨h.1, h.2.1, (timed_append h.2.2).mpr hk⟩⟩
  | clear => exact iff_of_true ⟨timed_erase h.1 _, timed_erase h.2.1 _, timed_erase h.2.2 _⟩ trivial

/-- The caches stay bounded in age if and only if every call is admissible where it is made. -/
theorem bounded_run_iff (calls : List (ℤ × Call)) : (∀ n, BoundedAll (run (calls.take n))) ↔
    ∀ n c, calls[n]? = some c → Admissible (run (calls.take n)) c.1 c.2 := by
  simp only [boundedAll_iff]
  refine forall_take_foldl_iff (fun s (c : ℤ × Call) => s.step c.1 c.2) _ TimedAll
    (fun s c => Admissible s c.1 c.2) ⟨?_, ?_, ?_⟩ fun s c h => timedAll_step h c.2
  all_goals exact fun _ _ h => by cases h

/-- The infusion point on the challenge zero. -/
def infusionPoint : NewInfusionPointVDF := ⟨.ofNat 32 0, ⟨.ofNat 32 0, 1, .getDefaultElement⟩⟩

/-- An infusion point that arrives first is not removed after two hours. -/
theorem infusion_point_stays :
    (run [(0, .ip infusionPoint), (7200, .clear)]).futureIpCache.get? (.ofNat 32 0) = some [⟨infusionPoint, 0⟩] :=
  Dict.get?_set_self _ _ _

end SectorChain.Proofs.FutureMessages
