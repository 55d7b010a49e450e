import SectorChain.FullNode.SyncStore
import SectorChain.Lib.Runs

/-!
# Sync targets

Reported peaks are found unless `clear_sync_info` comes too early.
-/

namespace SectorChain.Proofs.SyncTargets

open Lib List SyncStore

variable {store : SyncStore} {calls : List Call}

/-- What each connected peer last reported as its peak. -/
abbrev Reports := Bytes32 → Option SyncPeak

def Reports.step (reports : Reports) : Call → Reports
  | .peerHasBlock headerHash peerId weight height true =>
    Function.update reports peerId (some ⟨headerHash, height, weight⟩)
  | .peerHasBlock _ _ _ _ false => reports
  | .peerDisconnected nodeId => Function.update reports nodeId none
  | .clearSyncInfo => reports

def reported (calls : List Call) : Reports := calls.foldl Reports.step fun _ => none

lemma get?_run (calls : List Call) : (fun p => (run calls).peerToPeak.get? p) = reported calls := by
  refine (foldl_hom (fun (s : SyncStore) p => s.peerToPeak.get? p) fun s c => ?_).symm
  funext p
  cases c with
  | peerHasBlock headerHash peerId weight height newPeak =>
    cases newPeak with
    | true =>
      change _ = (s.peerToPeak.set peerId _).get? p
      rw [Dict.get?_set, Reports.step, Function.update_apply]
    | false => rfl
  | peerDisconnected nodeId =>
    rw [Reports.step, Function.update_apply]
    change _ = Dict.get? (if s.peerToPeak.contains nodeId then s.peerToPeak.erase nodeId else s.peerToPeak) p
    by_cases hmem : s.peerToPeak.contains nodeId
    · rw [if_pos hmem, Dict.get?_erase]
    rw [if_neg hmem]
    have hnone : s.peerToPeak.get? nodeId = none := by simpa [Dict.contains] using hmem
    split_ifs with hp
    · rw [hp, hnone]
    · rfl
  | clearSyncInfo => rfl

/-- The heaviest peak among the reports, or none if there are no reports. -/
def IsHeaviest (reports : Reports) : Option SyncPeak → Prop
  | none => ∀ peer, reports peer = none
  | some peak => (∃ peer, reports peer = some peak) ∧ ∀ peer other, reports peer = some other → other.weight ≤ peak.weight

/-- What the callers of the store rely on. -/
structure Targets (store : SyncStore) (reports : Reports) : Prop where
  heaviest : ∃ peak, store.getHeaviestPeak = .ok peak ∧ IsHeaviest reports peak
  listed : ∀ peer peak, reports peer = some peak → peer ∈ store.getPeersThatHavePeak [peak.headerHash]

/-- Each peer is under the peak that it is listed with. -/
def Consistent (store : SyncStore) : Prop := ∀ peer peak, store.peerToPeak.get? peer = some peak →
  ∃ peers, store.peakToPeer.get? peak.headerHash = some peers ∧ peer ∈ peers

lemma mem_getPeers {h peer : Bytes32} : peer ∈ store.getPeersThatHavePeak [h] ↔
    ∃ peers, store.peakToPeer.get? h = some peers ∧ peer ∈ peers := by
  rw [getPeersThatHavePeak, foldl_cons, foldl_nil]
  cases store.peakToPeer.get? h with
  | none => simp
  | some peers => simp

lemma foldl_heavier {es : List (Bytes32 × SyncPeak)} (hes : ∀ e ∈ es, store.peakToPeer.contains e.2.headerHash = true)
    (best : SyncPeak) : ∃ peak, es.foldl store.heavier (some best) = some peak ∧
      (peak = best ∨ ∃ e ∈ es, e.2 = peak) ∧ best.weight ≤ peak.weight ∧ ∀ e ∈ es, e.2.weight ≤ peak.weight := by
  induction es generalizing best with
  | nil => exact ⟨best, rfl, .inl rfl, le_rfl, by simp⟩
  | cons e es ih =>
    rw [forall_mem_cons] at hes
    rw [foldl_cons, heavier, if_pos hes.1]
    simp only [forall_mem_cons, exists_mem_cons_iff]
    by_cases hlt : e.2.weight > best.weight
    · rw [if_pos hlt]
      obtain ⟨peak, hfold, hpeak, hle, hall⟩ := ih hes.2 e.2
      refine ⟨peak, hfold, .inr (hpeak.imp_left Eq.symm), by omega, hle, hall⟩
    · rw [if_neg hlt]
      obtain ⟨peak, hfold, hpeak, hle, hall⟩ := ih hes.2 best
      exact ⟨peak, hfold, hpeak.imp_right .inr, hle, by omega, hall⟩

lemma Consistent.heaviest (h : Consistent store) :
    ∃ peak, store.getHeaviestPeak = .ok peak ∧ IsHeaviest (fun p => store.peerToPeak.get? p) peak := by
  have hknown : ∀ e ∈ store.peerToPeak.entries, store.peakToPeer.contains e.2.headerHash = true := by
    intro e he
    obtain ⟨peers, hpeers, _⟩ := h e.1 e.2 (Dict.mem_entries.mp he)
    exact Dict.contains_iff.mpr ⟨peers, hpeers⟩
  have hmem : ∀ peer peak, store.peerToPeak.get? peer = some peak ↔ (peer, peak) ∈ store.peerToPeak.entries :=
    fun _ _ => Dict.mem_entries.symm
  rw [getHeaviestPeak]
  cases hes : store.peerToPeak.entries with
  | nil =>
    refine ⟨none, rfl, fun peer => Option.eq_none_iff_forall_ne_some.mpr fun peak hpeak => ?_⟩
    simp [hmem, hes] at hpeak
  | cons e es =>
    rw [hes, forall_mem_cons] at hknown
    obtain ⟨peak, hfold, hpeak, hle, hall⟩ := foldl_heavier hknown.2 e.2
    have hfirst : store.heavier none e = some e.2 := if_pos hknown.1
    rw [if_neg (cons_ne_nil e es), foldl_cons, hfirst, hfold]
    refine ⟨some peak, rfl, ?_, fun peer other hother => ?_⟩
    · rcases hpeak with rfl | ⟨e', he', rfl⟩
      · exact ⟨e.1, (hmem _ _).mpr (by simp [hes])⟩
      · exact ⟨e'.1, (hmem _ _).mpr (by simp [hes, he'])⟩
    · rw [hmem, hes, mem_cons] at hother
      rcases hother with rfl | hother
      · exact hle
      · exact hall _ hother

lemma targets_run_iff : Targets (run calls) (reported calls) ↔ Consistent (run calls) := by
  rw [← get?_run]
  refine ⟨fun h peer peak hpeak => mem_getPeers.mp (h.listed peer peak hpeak), fun h => ⟨h.heaviest, ?_⟩⟩
  exact fun peer peak hpeak => mem_getPeers.mpr (h peer peak hpeak)

lemma Consistent.step (h : Consistent store) {c : Call} (hc : c = .clearSyncInfo → store.peerToPeak.entries = []) :
    Consistent (store.step c) := by
  intro peer peak hpeak
  cases c with
  | peerHasBlock headerHash peerId weight height newPeak =>
    have hget : ∀ h', ((store.step (.peerHasBlock headerHash peerId weight height newPeak)).peakToPeer.get? h') =
        if h' = headerHash then some (insert peerId ((store.peakToPeer.get? headerHash).getD ∅))
        else store.peakToPeer.get? h' := by
      intro h'
      rw [SyncStore.step, SyncStore.peerHasBlock]
      cases store.peakToPeer.get? headerHash with
      | none => exact Dict.get?_set _ _ _ _
      | some peers => exact Dict.get?_set _ _ _ _
    rw [hget]
    have hold : store.peerToPeak.get? peer = some peak ∨ peer = peerId ∧ peak.headerHash = headerHash := by
      cases newPeak with
      | false => exact .inl hpeak
      | true =>
        change (store.peerToPeak.set peerId _).get? peer = some peak at hpeak
        rw [Dict.get?_set] at hpeak
        split_ifs at hpeak with hp
        · cases hpeak
          exact .inr ⟨hp, rfl⟩
        · exact .inl hpeak
    rcases hold with hold | ⟨rfl, rfl⟩
    · obtain ⟨peers, hpeers, hmem⟩ := h peer peak hold
      split_ifs with hh
      · rw [← hh, hpeers]
        exact ⟨_, rfl, Finset.mem_insert_of_mem hmem⟩
      · exact ⟨peers, hpeers, hmem⟩
    · rw [if_pos rfl]
      exact ⟨_, rfl, Finset.mem_insert_self _ _⟩
  | peerDisconnected nodeId =>
    have hboth : peer ≠ nodeId ∧ store.peerToPeak.get? peer = some peak := by
      change Dict.get? (if store.peerToPeak.contains nodeId then _ else _) peer = some peak at hpeak
      by_cases hmem : store.peerToPeak.contains nodeId
      · rw [if_pos hmem, Dict.get?_erase] at hpeak
        split_ifs at hpeak with hp
        exact ⟨hp, hpeak⟩
      · rw [if_neg hmem] at hpeak
        exact ⟨fun hp => hmem (Dict.contains_iff.mpr ⟨peak, hp ▸ hpeak⟩), hpeak⟩
    obtain ⟨peers, hpeers, hmem⟩ := h peer peak hboth.2
    change ∃ ps, (store.peakToPeer.mapVals _).get? peak.headerHash = some ps ∧ peer ∈ ps
    rw [Dict.get?_mapVals, hpeers]
    refine ⟨_, rfl, ?_⟩
    change peer ∈ if nodeId ∈ peers then peers.erase nodeId else peers
    split_ifs
    · exact Finset.mem_erase.mpr ⟨hboth.1, hmem⟩
    · exact hmem
  | clearSyncInfo =>
    have hentry := Dict.mem_entries.mpr hpeak
    change (peer, peak) ∈ store.peerToPeak.entries at hentry
    simp [hc rfl] at hentry

lemma entries_of_consistent_clear (h : Consistent store.clearSyncInfo) : store.peerToPeak.entries = [] := by
  apply eq_nil_iff_forall_not_mem.mpr
  intro e he
  obtain ⟨peers, hpeers, _⟩ := h e.1 e.2 (Dict.mem_entries.mp he)
  cases hpeers

/-- The callers get what they rely on if and only if `clear_sync_info` is called only while no peer has a peak. -/
theorem targets_iff (calls : List Call) : (∀ n, Targets (run (calls.take n)) (reported (calls.take n))) ↔
    ∀ n c, calls[n]? = some c → c = .clearSyncInfo → (run (calls.take n)).peerToPeak.entries = [] := by
  simp only [targets_run_iff]
  refine forall_take_foldl_iff step create Consistent (fun s c => c = .clearSyncInfo → s.peerToPeak.entries = [])
    (fun _ _ hpeak => by cases hpeak) fun s c h => ⟨?_, h.step⟩
  rintro hafter rfl
  exact entries_of_consistent_clear hafter

/-- A peer reports a peak, the information is cleared, and no target can be selected. -/
theorem heaviest_after_clear : (run [.peerHasBlock (.ofNat 32 1) (.ofNat 32 2) 5 1 true, .clearSyncInfo]).getHeaviestPeak =
    .error .assertionError := by
  decide

end SectorChain.Proofs.SyncTargets
