import SectorChain.FullNode.WeightProof
import Mathlib.Data.List.TakeWhile

/-!
# Which sub-epochs of a weight proof are checked

The grouping of the segments only goes up.
-/

namespace SectorChain.Proofs

open Lib List Dict

variable (labels : List ℕ) (n : ℕ) (segs : List SubEpochChallengeSegment)

/-- The label `n` stands at the start of the list or directly after a smaller one. -/
def Ascends : Prop :=
  ∃ pre post, labels = pre ++ n :: post ∧ isBelow pre.getLast? n = true

def AscendsAfter (curr : Option ℕ) (labels : List ℕ) (n : ℕ) : Prop :=
  ∃ pre post, labels = pre ++ n :: post ∧ isBelow (pre.getLast?.or curr) n = true

lemma ascendsAfter_nil {curr : Option ℕ} {n : ℕ} : ¬AscendsAfter curr [] n := by
  rintro ⟨pre, post, hsplit, -⟩
  exact append_ne_nil_of_right_ne_nil pre (cons_ne_nil n post) hsplit.symm

lemma ascendsAfter_cons {curr : Option ℕ} {label n : ℕ} {labels : List ℕ} : AscendsAfter curr (label :: labels) n ↔
    (label = n ∧ isBelow curr n = true) ∨ AscendsAfter (some label) labels n := by
  have hlast : ∀ pre : List ℕ, ((label :: pre).getLast?).or curr = pre.getLast?.or (some label) := fun pre => by
    cases hpre : pre.getLast? <;> simp [getLast?_cons, hpre]
  constructor
  · rintro ⟨pre, post, hsplit, hbelow⟩
    cases pre with
    | nil =>
      obtain ⟨rfl, -⟩ := List.cons.inj hsplit
      exact .inl ⟨rfl, hbelow⟩
    | cons label' pre =>
      obtain ⟨rfl, htail⟩ := List.cons.inj hsplit
      exact .inr ⟨pre, post, htail, hlast pre ▸ hbelow⟩
  · rintro (⟨rfl, hbelow⟩ | ⟨pre, post, rfl, hbelow⟩)
    · exact ⟨[], labels, rfl, hbelow⟩
    · exact ⟨label :: pre, post, rfl, (hlast pre).symm ▸ hbelow⟩

lemma contains_removeSampled (curr : Option ℕ) (segs : List SubEpochChallengeSegment) (sampled : Dict ℕ Bool)
    (n : ℕ) : (removeSampled curr segs sampled).contains n = true ↔
      sampled.contains n = true ∧ ¬AscendsAfter curr (segs.map (·.subEpochN)) n := by
  induction segs generalizing curr sampled with
  | nil => exact ⟨fun h => ⟨h, ascendsAfter_nil⟩, fun h => h.1⟩
  | cons seg segs ih =>
    rw [removeSampled, ih, map_cons, ascendsAfter_cons, not_or, ← and_assoc]
    refine and_congr_left fun _ => ?_
    cases hbelow : isBelow curr seg.subEpochN with
    | false =>
      refine ⟨fun h => ⟨h, ?_⟩, fun h => h.1⟩
      rintro ⟨rfl, htrue⟩
      rw [hbelow] at htrue
      cases htrue
    | true =>
      rw [if_pos rfl, Dict.contains, get?_erase]
      by_cases hn : n = seg.subEpochN
      · rw [if_pos hn]
        refine ⟨fun h => (by cases h), fun h => ?_⟩
        exact absurd ⟨hn.symm, hn ▸ hbelow⟩ h.2
      · rw [if_neg hn]
        exact ⟨fun h => ⟨h, fun h' => hn h'.1.symm⟩, fun h => h.1⟩

lemma validateSubEpochSampling_iff {weights : List ℕ} {weightToCheck : Option (List ℕ)}
    {segs : List SubEpochChallengeSegment} {sampled : Dict ℕ Bool}
    (hsampled : sampledSubEpochs weights weightToCheck = .ok sampled) :
    validateSubEpochSampling weights weightToCheck segs = .ok true ↔
      ∀ n, sampled.contains n = true → Ascends (segs.map (·.subEpochN)) n := by
  have hascends : ∀ n, AscendsAfter none (segs.map (·.subEpochN)) n ↔ Ascends (segs.map (·.subEpochN)) n :=
    fun n => by simp only [AscendsAfter, Ascends, Option.or_none]
  have hempty : ∀ d : Dict ℕ Bool, d.entries.length = 0 ↔ ∀ n, ¬d.contains n = true := fun d => by
    rw [length_eq_zero_iff, eq_nil_iff_forall_not_mem]
    constructor
    · intro h n hn
      obtain ⟨v, hv⟩ := Dict.contains_iff.mp hn
      exact h (n, v) (mem_entries.mpr hv)
    · rintro h ⟨n, v⟩ hmem
      exact h n (Dict.contains_iff.mpr ⟨v, mem_entries.mp hmem⟩)
  have hrun : validateSubEpochSampling weights weightToCheck segs =
      .ok (decide ((removeSampled none segs sampled).entries.length = 0)) := by
    unfold validateSubEpochSampling
    rw [hsampled]
    rfl
  rw [hrun, Except.ok.injEq, decide_eq_true_iff, hempty]
  refine forall_congr' fun n => ?_
  rw [contains_removeSampled, hascends, not_and, not_not]

/-- The segments labelled `n` stand together, after smaller labels only, and before a larger one. -/
def StandsAlone : Prop :=
  ∃ pre run post, labels = pre ++ run ++ post ∧ run ≠ [] ∧ (∀ m ∈ pre, m < n) ∧ (∀ m ∈ run, m = n) ∧
    ∀ m ∈ post.head?, n < m

def OwnGroup (groups : Dict ℕ (List SubEpochChallengeSegment)) (n : ℕ) : Prop :=
  ∃ group, groups.get? n = some group ∧ group ≠ [] ∧ ∀ segment ∈ group, segment.subEpochN = n

lemma get?_mapSegmentsFrom_below {n curr : ℕ} (segs : List SubEpochChallengeSegment)
    {groups : Dict ℕ (List SubEpochChallengeSegment)} {r : Option (List SubEpochChallengeSegment)} (hn : n < curr)
    (hget : groups.get? n = r) : (mapSegmentsFrom (some curr) segs groups).get? n = r := by
  induction segs generalizing curr groups with
  | nil => exact hget
  | cons seg segs ih =>
    rw [mapSegmentsFrom]
    split
    · rename_i hlt
      exact ih (hn.trans hlt) (by rw [get?_set_of_ne _ _ (hn.trans hlt).ne, hget])
    · exact ih hn (by rw [get?_set_of_ne _ _ hn.ne, hget])

lemma get?_mapSegmentsFrom_self
    (groups : Dict ℕ (List SubEpochChallengeSegment)) {group : List SubEpochChallengeSegment}
    (hgroup : groups.get? n = some group) : (mapSegmentsFrom (some n) segs groups).get? n =
      some (group ++ segs.takeWhile fun seg => seg.subEpochN ≤ n) := by
  induction segs generalizing groups group with
  | nil =>
    rw [takeWhile_nil, append_nil]
    exact hgroup
  | cons seg segs ih =>
    rw [mapSegmentsFrom]
    by_cases hlt : n < seg.subEpochN
    · rw [if_pos hlt, takeWhile_cons_of_neg (by simpa using hlt), append_nil, ← hgroup]
      exact get?_mapSegmentsFrom_below segs hlt (by rw [get?_set_of_ne _ _ hlt.ne])
    · rw [if_neg hlt, takeWhile_cons_of_pos (by simpa using hlt)]
      have hset : (groups.set n ((groups.get? n).getD [] ++ [seg])).get? n = some (group ++ [seg]) := by
        rw [get?_set_self, hgroup, Option.getD_some]
      rw [ih _ hset, append_assoc, singleton_append]

lemma get?_mapSegmentsFrom_above {n : ℕ} {curr : Option ℕ} (hcurr : isBelow curr n = true)
    (segs : List SubEpochChallengeSegment) (groups : Dict ℕ (List SubEpochChallengeSegment)) :
    (mapSegmentsFrom curr segs groups).get? n =
      match segs.dropWhile fun seg => seg.subEpochN < n with
      | [] => groups.get? n
      | seg :: rest =>
        if seg.subEpochN = n then some (seg :: rest.takeWhile fun seg => seg.subEpochN ≤ n)
        else groups.get? n := by
  induction segs generalizing curr groups with
  | nil => cases curr <;> rfl
  | cons seg segs ih =>
    have hset : ∀ {k : ℕ} (group : List SubEpochChallengeSegment), k < n →
        (groups.set k group).get? n = groups.get? n := fun group hk => by
      rw [get?_set_of_ne _ _ hk.ne']
    -- a label above the counter opens a new group
    have hopen : (mapSegmentsFrom (some seg.subEpochN) segs (groups.set seg.subEpochN [seg])).get? n =
        match (seg :: segs).dropWhile fun seg => seg.subEpochN < n with
        | [] => groups.get? n
        | seg :: rest =>
          if seg.subEpochN = n then some (seg :: rest.takeWhile fun seg => seg.subEpochN ≤ n)
          else groups.get? n := by
      rcases lt_trichotomy seg.subEpochN n with hlt | heq | hgt
      · rw [dropWhile_cons_of_pos (by simpa using hlt), ih (by simpa [isBelow] using hlt), hset _ hlt]
      · rw [dropWhile_cons_of_neg (by simp [heq])]
        dsimp only
        rw [if_pos heq]
        subst heq
        exact get?_mapSegmentsFrom_self _ segs _ (get?_set_self _ _ _)
      · rw [dropWhile_cons_of_neg (by simpa using hgt.le)]
        dsimp only
        rw [if_neg hgt.ne']
        exact get?_mapSegmentsFrom_below segs hgt (get?_set_of_ne _ _ hgt.ne)
    cases curr with
    | none => exact hopen
    | some curr =>
      have hcurr' : curr < n := by simpa [isBelow] using hcurr
      rw [mapSegmentsFrom]
      by_cases hlt : curr < seg.subEpochN
      · rw [if_pos hlt]
        exact hopen
      · have hsegment : seg.subEpochN < n := by omega
        rw [if_neg hlt, ih hcurr, hset _ hcurr', dropWhile_cons_of_pos (by simpa using hsegment)]

lemma ownGroup_iff (n : ℕ) : OwnGroup (mapSegmentsBySubEpoch segs) n ↔ StandsAlone (segs.map (·.subEpochN)) n := by
  have hget := get?_mapSegmentsFrom_above (show isBelow none n = true from rfl) segs .empty
  constructor
  · rintro ⟨group, hgroup, -, hall⟩
    rw [mapSegmentsBySubEpoch, hget] at hgroup
    have hsplit : segs = segs.takeWhile (fun seg => seg.subEpochN < n) ++
        segs.dropWhile (fun seg => seg.subEpochN < n) := takeWhile_append_dropWhile.symm
    cases hdrop : segs.dropWhile fun seg => seg.subEpochN < n with
    | nil =>
      rw [hdrop] at hgroup
      cases hgroup
    | cons seg rest =>
      rw [hdrop] at hgroup hsplit
      dsimp only at hgroup
      split at hgroup
      · obtain rfl := Option.some.inj hgroup
        refine ⟨(segs.takeWhile fun seg => seg.subEpochN < n).map (·.subEpochN),
          (seg :: rest.takeWhile fun seg => seg.subEpochN ≤ n).map (·.subEpochN),
          (rest.dropWhile fun seg => seg.subEpochN ≤ n).map (·.subEpochN), ?_, ?_, ?_, ?_, ?_⟩
        · rw [← map_append, ← map_append, append_assoc, cons_append, takeWhile_append_dropWhile, ← hsplit]
        · exact cons_ne_nil _ _
        · intro m hm
          obtain ⟨s, hs, rfl⟩ := mem_map.mp hm
          simpa using mem_takeWhile_imp hs
        · intro m hm
          obtain ⟨s, hs, rfl⟩ := mem_map.mp hm
          exact hall s hs
        intro m hm
        rw [head?_map, Option.mem_map] at hm
        obtain ⟨s, hs, rfl⟩ := hm
        have hneg := head?_dropWhile_not (fun seg : SubEpochChallengeSegment => decide (seg.subEpochN ≤ n)) rest
        rw [Option.mem_def.mp hs] at hneg
        simpa using hneg
      · cases hgroup
  · rintro ⟨pre, run, post, hlabels, hne, hpre, hrun, hpost⟩
    obtain ⟨front, spost, rfl, hfront, rfl⟩ := map_eq_append_iff.mp hlabels
    obtain ⟨spre, srun, rfl, rfl, rfl⟩ := map_eq_append_iff.mp hfront
    cases srun with
    | nil => exact absurd rfl hne
    | cons seg srun =>
      have hsegment : seg.subEpochN = n := hrun _ mem_cons_self
      have hdrop : (spre ++ seg :: srun ++ spost).dropWhile (fun seg => seg.subEpochN < n) =
          seg :: srun ++ spost := by
        rw [append_assoc, dropWhile_append_of_pos]
        · simp [hsegment]
        · intro s hs
          simpa using hpre _ (mem_map_of_mem hs)
      have htake : (srun ++ spost).takeWhile (fun seg => seg.subEpochN ≤ n) = srun := by
        rw [takeWhile_append_of_pos]
        · cases spost with
          | nil => simp
          | cons s spost =>
            have hs : n < s.subEpochN := hpost _ rfl
            rw [takeWhile_cons_of_neg (by simpa using hs), append_nil]
        · intro s hs
          simpa using (hrun _ (mem_cons_of_mem _ (mem_map_of_mem hs))).le
      refine ⟨seg :: srun, ?_, cons_ne_nil _ _, ?_⟩
      · rw [mapSegmentsBySubEpoch, hget, hdrop]
        dsimp only [cons_append]
        rw [if_pos hsegment, htake]
      · intro s hs
        exact hrun _ (mem_map_of_mem hs)

/-- Accepted samples have their own group exactly if labels that ascend also stand alone. -/
theorem sampled_have_own_group_iff (subEpochWeightList : List ℕ) (weightToCheck : Option (List ℕ))
    (segments : List SubEpochChallengeSegment) :
    (∀ sampled, sampledSubEpochs subEpochWeightList weightToCheck = .ok sampled →
      validateSubEpochSampling subEpochWeightList weightToCheck segments = .ok true →
      ∀ n, sampled.contains n = true → OwnGroup (mapSegmentsBySubEpoch segments) n) ↔
    (∀ sampled, sampledSubEpochs subEpochWeightList weightToCheck = .ok sampled →
      (∀ n, sampled.contains n = true → Ascends (segments.map (·.subEpochN)) n) →
      ∀ n, sampled.contains n = true → StandsAlone (segments.map (·.subEpochN)) n) := by
  refine forall_congr' fun sampled => forall_congr' fun hsampled => ?_
  rw [validateSubEpochSampling_iff hsampled]
  refine forall_congr' fun _ => forall_congr' fun n => forall_congr' fun _ => ?_
  exact ownGroup_iff segments n

/-- Labels 2, 0, 1: the segment of sub-epoch 1 is in the group of sub-epoch 2. -/
theorem sampled_without_own_group : let segments : List SubEpochChallengeSegment := [⟨2, []⟩, ⟨0, []⟩, ⟨1, []⟩]
    let weights := [100, 200, 300, 400]
    sampledSubEpochs weights (some [250, 350]) = .ok ((Dict.empty.set 1 true).set 2 true) ∧
      validateSubEpochSampling weights (some [250, 350]) segments = .ok true ∧
      mapSegmentsBySubEpoch segments = Dict.empty.set 2 segments := by
  decide +kernel

end SectorChain.Proofs
