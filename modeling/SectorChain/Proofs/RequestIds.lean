import Mathlib.Data.List.Induction
import SectorChain.Lib.Runs
import SectorChain.Server.WsConnection

/-!
# Responses and their requests

The tables hold one entry for each waiting request.
-/

namespace SectorChain.Proofs.RequestIds

open Lib List WSConnection

variable {c : WSConnection} {out : Bool} {events : List Event} {k n : ℕ}

def base (isOutbound : Bool) : ℕ := if isOutbound then 0 else 2 ^ 15

/-- Ids go around in their half of the numbers. -/
structure Numbered (isOutbound : Bool) (c : WSConnection) : Prop where
  side : c.isOutbound = isOutbound
  nonce : c.requestNonce = base isOutbound + c.started % 2 ^ 15
  ids : ∀ {k r}, c.requests k = some r → k < c.started ∧ r.id = base isOutbound + k % 2 ^ 15

/-- The message at time `t` came after the request was sent. -/
def ReceivedAfter (events : List Event) (r : Request) (t : ℕ) (m : Message) : Prop :=
  events[t]? = some (.receive m) ∧ ∃ s < t, r.sentAt = some s ∧ events[s]? = some (.outbound false)

/-- The tables belong to the requests that wait, and each answer to its addressee, after the first `n` events. -/
structure Matched (events : List Event) (n : ℕ) (c : WSConnection) : Prop where
  sentAt : ∀ {k r s}, c.requests k = some r → r.sentAt = some s → s < n ∧ events[s]? = some (.outbound false)
  waiting : ∀ {k r}, c.requests k = some r → r.outcome = none → c.pendingRequests.get? (some r.id) = some k
  pending : ∀ {i k}, c.pendingRequests.get? i = some k →
    ∃ r, c.requests k = some r ∧ r.outcome = none ∧ i = some r.id
  results : ∀ {i t m}, c.requestResults.get? i = some (t, m) → m.id = i ∧ isProtocolMessageType m.type = true ∧ t < n ∧
    c.pendingRequests.get? i = some (c.addressee t) ∧
    ∀ r, c.requests (c.addressee t) = some r → ReceivedAfter events r t m
  outcomes : ∀ {k r o}, c.requests k = some r → r.outcome = some o → o = .ok none ∨ ∃ t m, o = .ok (some (t, m)) ∧
    m.id = some r.id ∧ t < n ∧ ReceivedAfter events r t m ∧ c.addressee t = k

/-- Whenever a request starts, fewer than `2 ** 15` have started since each of those that still wait. -/
def Spaced (isOutbound : Bool) (events : List Event) : Prop := ∀ n m, events[n]? = some (.start m) →
  ∀ k r, (run isOutbound (events.take n)).requests k = some r → r.outcome = none →
    (run isOutbound (events.take n)).started - k < 2 ^ 15

/-- A message with the id of a request that waits has a type of the protocol, and the request was sent. -/
def Expected (c : WSConnection) (m : Message) : Prop := c.closed = false → ∀ k, c.pendingRequests.get? m.id = some k →
  isProtocolMessageType m.type = true ∧ ∀ r, c.requests k = some r → r.sentAt ≠ none

def OnlyExpected (isOutbound : Bool) (events : List Event) : Prop := ∀ n m, events[n]? = some (.receive m) →
  Expected (run isOutbound (events.take n)) m

lemma update_eq_some {f : ℕ → Option Request} {k' : ℕ} {r r' : Request}
    (h : Function.update f k (some r) k' = some r') : k' = k ∧ r' = r ∨ k' ≠ k ∧ f k' = some r' := by
  rw [Function.update_apply] at h
  split_ifs at h with hk
  · cases h
    exact .inl ⟨hk, rfl⟩
  · exact .inr ⟨hk, h⟩

lemma Numbered.start (h : Numbered out c) (m : Message) : Numbered out (c.startRequest m) := by
  unfold startRequest
  split
  · exact h
  refine ⟨h.side, ?_, fun {k r} hr => ?_⟩
  · have hnonce := h.nonce
    dsimp only [nextNonce]
    rw [h.side]
    unfold base at hnonce ⊢
    split_ifs at hnonce ⊢ <;> omega
  · rcases update_eq_some hr with ⟨rfl, rfl⟩ | ⟨-, hr⟩
    · exact ⟨Nat.lt_succ_self _, h.nonce⟩
    · exact ⟨Nat.lt_succ_of_lt (h.ids hr).1, (h.ids hr).2⟩

/-- The fields that say which ids are in use, and the ids of the requests, are the same. -/
structure SameIds (c c' : WSConnection) : Prop where
  side : c'.isOutbound = c.isOutbound
  nonce : c'.requestNonce = c.requestNonce
  started : c'.started = c.started
  requests : c'.requests = c.requests ∨ ∃ k r r', c.requests k = some r ∧ r'.id = r.id ∧
    c'.requests = Function.update c.requests k (some r')

lemma start_or_sameIds (c : WSConnection) (e : Event) : (∃ m, e = .start m) ∨ SameIds c (c.act e) := by
  cases e with
  | start m => exact .inl ⟨m, rfl⟩
  | _ =>
    refine .inr ?_
    constructor <;> grind [WSConnection.act, WSConnection.sendMessage, WSConnection.outbound, WSConnection.markSent,
      WSConnection.retry, WSConnection.receive, setEvent, WSConnection.timeOut, WSConnection.resume, WSConnection.finish,
      Option.bind_eq_some_iff, Option.map_eq_some_iff]

lemma Numbered.sameIds {c' : WSConnection} (h : Numbered out c) (hsame : SameIds c c') : Numbered out c' := by
  refine ⟨hsame.side.trans h.side, ?_, fun hr' => ?_⟩ <;> rw [hsame.started]
  · exact hsame.nonce.trans h.nonce
  · rcases hsame.requests with heq | ⟨k, r, r', hr, hid, heq⟩ <;> rw [heq] at hr'
    · exact h.ids hr'
    · rcases update_eq_some hr' with ⟨rfl, rfl⟩ | ⟨-, hr'⟩
      · exact hid ▸ h.ids hr
      · exact h.ids hr'

lemma numbered_run (out : Bool) (events : List Event) : Numbered out (run out events) := by
  refine foldlRecOn events step ⟨rfl, by cases out <;> rfl, nofun⟩ fun c h e _ => ?_
  obtain ⟨m, rfl⟩ | hsame := start_or_sameIds c e
  · exact { h.start m with }
  · exact { h.sameIds hsame with }

lemma Matched.succ (h : Matched events n c) : Matched events (n + 1) c := by
  refine { h with
    sentAt := fun hr hs => (h.sentAt hr hs).imp_left Nat.lt_succ_of_lt
    results := fun hres => ?_, outcomes := fun hr ho => ?_ }
  · obtain ⟨hm, htype, ht, hrest⟩ := h.results hres
    exact ⟨hm, htype, Nat.lt_succ_of_lt ht, hrest⟩
  · refine (h.outcomes hr ho).imp_right ?_
    rintro ⟨t, m, rfl, hm, ht, hrest⟩
    exact ⟨t, m, rfl, hm, Nat.lt_succ_of_lt ht, hrest⟩

lemma Matched.start (h : Matched events n c) (hnumbered : Numbered out c) (m : Message)
    (hspaced : ∀ k r, c.requests k = some r → r.outcome = none → c.started - k < 2 ^ 15) :
    Matched events n (c.startRequest m) := by
  by_cases hclosed : c.closed
  · rwa [startRequest, if_pos hclosed]
  rw [startRequest, if_neg hclosed]
  have hkept : ∀ {k r}, c.requests k = some r →
      Function.update c.requests c.started (some ⟨c.requestNonce, none, none⟩) k = some r :=
    fun hr => by rwa [Function.update_of_ne (hnumbered.ids hr).1.ne]
  -- the new id is not the id of a waiting request
  have hid : ∀ {k r}, c.requests k = some r → r.outcome = none → some r.id ≠ some c.requestNonce := by
    intro k r hr hnone heq
    have hlt := hspaced k r hr hnone
    have hids := hnumbered.ids hr
    have hnonce := hnumbered.nonce
    have := Option.some.inj heq
    omega
  refine ⟨?_, ?_, ?_, ?_, ?_⟩
  · intro k r s hr hs
    rcases update_eq_some hr with ⟨-, rfl⟩ | ⟨-, hr⟩
    · cases hs
    · exact h.sentAt hr hs
  · intro k r hr hnone
    dsimp only
    rcases update_eq_some hr with ⟨rfl, rfl⟩ | ⟨-, hr⟩
    · exact Dict.get?_set_self _ _ _
    · rw [Dict.get?_set_of_ne _ _ (hid hr hnone)]
      exact h.waiting hr hnone
  · intro i k hk
    dsimp only at hk ⊢
    rw [Dict.get?_set] at hk
    split_ifs at hk with hi
    · cases hk
      exact ⟨_, Function.update_self _ _ _, rfl, hi⟩
    · obtain ⟨r, hr, hnone, rfl⟩ := h.pending hk
      exact ⟨r, hkept hr, hnone, rfl⟩
  · intro i t m hres
    obtain ⟨hm, htype, ht, hpend, hat⟩ := h.results hres
    obtain ⟨r, hr, hnone, rfl⟩ := h.pending hpend
    refine ⟨hm, htype, ht, ?_, fun r' hr' => ?_⟩
    · dsimp only
      rwa [Dict.get?_set_of_ne _ _ (hid hr hnone)]
    · dsimp only at hr'
      rw [hkept hr] at hr'
      cases hr'
      exact hat r hr
  · intro k r o hr ho
    rcases update_eq_some hr with ⟨-, rfl⟩ | ⟨-, hr⟩
    · cases ho
    · exact h.outcomes hr ho

lemma Matched.receive {m : Message} (h : Matched events n c) (hn : c.clock = n)
    (hm : events[n]? = some (.receive m)) (hexpected : Expected c m) : Matched events (n + 1) (c.receive m) := by
  subst hn
  have h' := h.succ
  by_cases hclosed : c.closed
  · rwa [WSConnection.receive, if_pos hclosed]
  rw [WSConnection.receive, if_neg hclosed]
  cases hpend : c.pendingRequests.get? m.id with
  | none => exact h'
  | some k =>
    obtain ⟨htype, hsent⟩ := hexpected (Bool.eq_false_iff.mpr hclosed) k hpend
    refine { h' with results := fun {i t m'} hres => ?_, outcomes := fun hr ho => ?_ }
    · dsimp only at hres ⊢
      rw [Dict.get?_set] at hres
      split_ifs at hres with hi
      · cases hres
        rw [Function.update_self, hi]
        refine ⟨rfl, htype, Nat.lt_succ_self _, hpend, fun r hr => ⟨hm, ?_⟩⟩
        obtain ⟨s, hs⟩ := Option.ne_none_iff_exists'.mp (hsent r hr)
        obtain ⟨hlt, hev⟩ := h.sentAt hr hs
        exact ⟨s, hlt, hs, hev⟩
      · obtain ⟨hid, htype, ht, hrest⟩ := h.results hres
        rw [Function.update_of_ne ht.ne]
        exact ⟨hid, htype, Nat.lt_succ_of_lt ht, hrest⟩
    · refine (h.outcomes hr ho).imp_right ?_
      rintro ⟨t, m, rfl, hid, ht, hat, hk⟩
      refine ⟨t, m, rfl, hid, Nat.lt_succ_of_lt ht, hat, ?_⟩
      dsimp only
      rwa [Function.update_of_ne ht.ne]

lemma Matched.finish (h : Matched events n c) {r : Request} (hr : c.requests k = some r) (hnone : r.outcome = none)
    {results : Dict (Option ℕ) (ℕ × Message)} {found : Option (ℕ × Message)}
    (hfound : c.requestResults.get? (some r.id) = found)
    (hresults : ∀ i, results.get? i = if i = some r.id then none else c.requestResults.get? i) :
    Matched events n ({ c with
      pendingRequests := c.pendingRequests.erase (some r.id), requestResults := results }.finish k r (.ok found)) := by
  have hpend := h.waiting hr hnone
  refine ⟨fun hr' hs => ?_, fun {k' r'} hr' hnone' => ?_, fun {i k'} hk' => ?_, fun {i t m} hres => ?_,
    fun {k' r' o} hr' ho => ?_⟩
  · rcases update_eq_some hr' with ⟨rfl, rfl⟩ | ⟨-, hr'⟩
    · have hsent := h.sentAt hr hs
      exact hsent
    · exact h.sentAt hr' hs
  · rcases update_eq_some hr' with ⟨rfl, rfl⟩ | ⟨hk, hr'⟩
    · cases hnone'
    · have hpend' := h.waiting hr' hnone'
      have hne : some r'.id ≠ some r.id := fun heq => hk (Option.some.inj ((heq ▸ hpend').symm.trans hpend))
      exact (Dict.get?_erase _ _ _).trans ((if_neg hne).trans hpend')
  · change (c.pendingRequests.erase (some r.id)).get? i = some k' at hk'
    rw [Dict.get?_erase] at hk'
    split_ifs at hk' with hi
    obtain ⟨r', hr', hnone', rfl⟩ := h.pending hk'
    have hne : k' ≠ k := by
      rintro rfl
      rw [hr] at hr'
      cases hr'
      exact hi rfl
    exact ⟨r', (Function.update_of_ne hne _ _).trans hr', hnone', rfl⟩
  · change results.get? i = some (t, m) at hres
    rw [hresults] at hres
    split_ifs at hres with hi
    obtain ⟨hm, htype, ht, hpend', hat⟩ := h.results hres
    refine ⟨hm, htype, ht, (Dict.get?_erase _ _ _).trans ((if_neg hi).trans hpend'), fun r' hr' => ?_⟩
    rcases update_eq_some hr' with ⟨hk, rfl⟩ | ⟨-, hr'⟩
    · have hreceived := hat r (hk ▸ hr)
      exact hreceived
    · exact hat r' hr'
  · rcases update_eq_some hr' with ⟨rfl, rfl⟩ | ⟨-, hr'⟩
    · cases ho
      cases found with
      | none => exact .inl rfl
      | some result =>
        obtain ⟨hm, -, ht, hpend', hat⟩ := h.results hfound
        have haddressee := Option.some.inj (hpend'.symm.trans hpend)
        exact .inr ⟨_, _, rfl, hm, ht, hat r (haddressee ▸ hr), haddressee⟩
    · exact h.outcomes hr' ho

lemma Matched.resume (h : Matched events n c) (k : ℕ) : Matched events n (c.resume k) := by
  unfold WSConnection.resume
  split
  · rename_i r hr
    split_ifs with hset hcontains
    · dsimp only
      cases hres : c.requestResults.get? (some r.id) with
      | none =>
        refine h.finish hr hset.2 hres fun i => ?_
        split_ifs with hi
        · rw [hi, hres]
        · rfl
      | some result =>
        obtain ⟨hid, htype, -⟩ := h.results hres
        dsimp only
        rw [if_neg (by simp [htype]), if_pos (Dict.contains_iff.mpr ⟨result, hid ▸ hres⟩)]
        refine h.finish hr hset.2 hres fun i => ?_
        rw [Dict.get?_erase, hid]
    · exact absurd (Dict.contains_iff.mpr ⟨k, h.waiting hr hset.2⟩) hcontains
    · exact h
  · exact h

lemma Matched.timeOut (h : Matched events n c) (k : ℕ) : Matched events n (c.timeOut k) := by
  unfold WSConnection.timeOut
  split
  · exact { h with }
  · exact h

/-- A first sending is noted; the tables do not change. -/
lemma Matched.markSent (h : Matched events n c) (hclock : c.clock < n)
    (hev : events[c.clock]? = some (.outbound false)) (owner : Option ℕ) : Matched events n (c.markSent owner) := by
  unfold WSConnection.markSent
  split
  · rename_i k r hk
    obtain ⟨k', -, hk'⟩ := Option.bind_eq_some_iff.mp hk
    obtain ⟨r', hr, heq⟩ := Option.map_eq_some_iff.mp hk'
    cases heq
    have hafter : ∀ {t m}, ReceivedAfter events r t m →
        ReceivedAfter events { r with sentAt := r.sentAt.or (some c.clock) } t m := by
      rintro t m ⟨hm, s, hlt, hs, hev⟩
      exact ⟨hm, s, hlt, by simp [hs], hev⟩
    refine ⟨fun {k' r' s} hr' hs => ?_, fun {k' r'} hr' hnone => ?_, fun {i k'} hk' => ?_, fun {i t m} hres => ?_,
      fun {k' r' o} hr' ho => ?_⟩
    · rcases update_eq_some hr' with ⟨rfl, rfl⟩ | ⟨-, hr'⟩
      · rcases Option.or_eq_some_iff.mp hs with hs | ⟨-, hs⟩
        · exact h.sentAt hr hs
        · cases hs
          exact ⟨hclock, hev⟩
      · exact h.sentAt hr' hs
    · rcases update_eq_some hr' with ⟨rfl, rfl⟩ | ⟨-, hr'⟩
      · have hwaiting := h.waiting hr hnone
        exact hwaiting
      · exact h.waiting hr' hnone
    · obtain ⟨r', hr', hnone, rfl⟩ := h.pending hk'
      by_cases hkk : k' = k
      · subst hkk
        cases hr.symm.trans hr'
        exact ⟨_, Function.update_self _ _ _, hnone, rfl⟩
      · exact ⟨r', (Function.update_of_ne hkk _ _).trans hr', hnone, rfl⟩
    · obtain ⟨hm, htype, ht, hpend, hat⟩ := h.results hres
      refine ⟨hm, htype, ht, hpend, fun r' hr' => ?_⟩
      rcases update_eq_some hr' with ⟨hk, rfl⟩ | ⟨-, hr'⟩
      · exact hafter (hat r (hk ▸ hr))
      · exact hat r' hr'
    · rcases update_eq_some hr' with ⟨rfl, rfl⟩ | ⟨-, hr'⟩
      · refine (h.outcomes hr ho).imp_right ?_
        rintro ⟨t, m, rfl, hm, ht, hreceived, hk⟩
        exact ⟨t, m, rfl, hm, ht, hafter hreceived, hk⟩
      · exact h.outcomes hr' ho
  · exact h

lemma Matched.outbound {limited : Bool} (h : Matched events n c) (hclock : c.clock < n)
    (hev : events[c.clock]? = some (.outbound limited)) : Matched events n (c.outbound limited) := by
  unfold WSConnection.outbound
  split
  · exact h
  · rename_i owner message rest _
    have hrest : Matched events n { c with outgoingQueue := rest } := { h with }
    split_ifs with hclosed hlimited
    · exact h
    · exact { h with }
    · exact hrest
    · obtain rfl : limited = false := Bool.eq_false_iff.mpr hlimited
      exact hrest.markSent hclock hev owner

lemma Matched.act {e : Event} (h : Matched events n c) (hnumbered : Numbered out c) (hn : c.clock = n)
    (he : events[n]? = some e)
    (hspaced : ∀ m, e = .start m → ∀ k r, c.requests k = some r → r.outcome = none → c.started - k < 2 ^ 15)
    (hexpected : ∀ m, e = .receive m → Expected c m) : Matched events (n + 1) (c.act e) := by
  cases e with
  | start m => exact h.succ.start hnumbered m (hspaced m rfl)
  | sendMessage m =>
    change Matched events (n + 1) (c.sendMessage m)
    unfold WSConnection.sendMessage
    split
    · exact h.succ
    · exact { h.succ with }
  | outbound limited => exact h.succ.outbound (hn ▸ Nat.lt_succ_self _) (hn ▸ he)
  | retry i =>
    change Matched events (n + 1) (c.retry i)
    unfold WSConnection.retry
    split
    · exact { h.succ with }
    · exact h.succ
  | receive m => exact h.receive hn he (hexpected m rfl)
  | timeOut k => exact h.succ.timeOut k
  | resume k => exact h.succ.resume k
  | close => exact { h.succ with }

lemma matched_run (h : Spaced out events) (hn : n ≤ events.length)
    (hexpected : ∀ j < n, ∀ m, events[j]? = some (.receive m) → Expected (run out (events.take j)) m) :
    (run out (events.take n)).clock = n ∧ Matched events n (run out (events.take n)) := by
  induction n with
  | zero => exact ⟨rfl, nofun, nofun, nofun, nofun, nofun⟩
  | succ n ih =>
    obtain ⟨hclock, hmatched⟩ := ih (Nat.le_of_succ_le hn) fun j hj => hexpected j (Nat.lt_succ_of_lt hj)
    have he : events[n]? = some events[n] := getElem?_eq_getElem hn
    rw [run, foldl_take_add_one step (new out) he]
    refine ⟨congrArg (· + 1) hclock, ?_⟩
    exact { hmatched.act (numbered_run _ _) hclock he (fun m hm => h n m (hm ▸ he)) fun m hm =>
      hexpected n n.lt_succ_self m (hm ▸ he) with }

/-- A request returns nothing, or a message with its id that came after it was sent, and no two return the same. -/
structure Answered (isOutbound : Bool) (events : List Event) : Prop where
  own : ∀ {k r o}, (run isOutbound events).requests k = some r → r.outcome = some o → o = .ok none ∨
    ∃ t m, o = .ok (some (t, m)) ∧ m.id = some r.id ∧ ReceivedAfter events r t m
  once : ∀ {k k' r r' t m m'}, (run isOutbound events).requests k = some r →
    (run isOutbound events).requests k' = some r' → r.outcome = some (.ok (some (t, m))) →
    r'.outcome = some (.ok (some (t, m'))) → k = k'

lemma Matched.answered (h : Matched events n (run out events)) : Answered out events where
  own hr ho := (h.outcomes hr ho).imp_right fun ⟨t, m, ho, hm, _, hat, _⟩ => ⟨t, m, ho, hm, hat⟩
  once hr hr' ho ho' := by
    rcases h.outcomes hr ho with hnone | ⟨t, m, heq, -, -, -, rfl⟩
    · cases hnone
    rcases h.outcomes hr' ho' with hnone | ⟨t', m', heq', -, -, -, rfl⟩
    · cases hnone
    cases heq
    cases heq'
    rfl

/-- After every part of the run, whichever requests go on, all are answered. -/
def AlwaysAnswered (isOutbound : Bool) (events : List Event) : Prop :=
  ∀ n (ks : List ℕ), Answered isOutbound (events.take n ++ ks.map Event.resume)

lemma getElem?_take_append_resume {ks : List ℕ} {j : ℕ} {e : Event}
    (he : (events.take n ++ ks.map Event.resume)[j]? = some e) (hne : ∀ k, e ≠ .resume k) :
    events[j]? = some e ∧ (events.take n ++ ks.map Event.resume).take j = events.take j := by
  rcases Nat.lt_or_ge j (events.take n).length with hj | hj
  · rw [getElem?_append_left hj] at he
    have hlt : j < n := hj.trans_le (length_take_le _ _)
    rw [getElem?_take_of_lt hlt] at he
    refine ⟨he, ?_⟩
    rw [take_append_of_le_length hj.le, take_take, Nat.min_eq_left hlt.le]
  · rw [getElem?_append_right hj] at he
    obtain ⟨k, -, rfl⟩ := mem_map.mp (mem_of_getElem? he)
    exact absurd rfl (hne k)

lemma requests_receive_resume {m : Message} {r : Request} (hopen : c.closed = false)
    (hpend : c.pendingRequests.get? m.id = some k) (hr : c.requests k = some r) (hnone : r.outcome = none)
    (hid : m.id = some r.id) : ((c.step (.receive m)).step (.resume k)).requests k =
      some { r with
        outcome := some (if isProtocolMessageType m.type then .ok (some (c.clock, m)) else .error .valueError) } := by
  have hreceive : c.act (.receive m) = { c.setEvent k with
      requestResults := c.requestResults.set m.id (c.clock, m)
      addressee := Function.update c.addressee c.clock k } := by
    simp [WSConnection.act, WSConnection.receive, hopen, hpend]
  rw [step, step, hreceive]
  cases htype : isProtocolMessageType m.type <;>
    simp [WSConnection.act, WSConnection.resume, WSConnection.finish, setEvent, Dict.contains_iff, hr, hnone, ← hid, hpend,
      htype]

lemma alwaysAnswered_iff (h : Spaced out events) : AlwaysAnswered out events ↔ OnlyExpected out events := by
  constructor
  · intro hanswered n
    induction n using Nat.strong_induction_on with
    | h n ih =>
      intro m hm hopen k hk
      have hn := (List.getElem?_eq_some_iff.mp hm).1
      obtain ⟨r, hr, hnone, hid⟩ := (matched_run h hn.le ih).2.pending hk
      have hrun : run out (events.take (n + 1) ++ [k].map .resume) =
          ((run out (events.take n)).step (.receive m)).step (.resume k) := by
        rw [run, foldl_append, foldl_take_add_one step (new out) hm]
        rfl
      have hlast := requests_receive_resume hopen hk hr hnone hid
      rcases (hanswered (n + 1) [k]).own (hrun ▸ hlast) rfl with ho | ⟨t, m', ho, -, -, s, -, hs, -⟩
      · split_ifs at ho
        cases ho
      · split_ifs at ho with htype
        refine ⟨htype, fun r' hr' => ?_⟩
        cases hr.symm.trans hr'
        exact Option.ne_none_iff_exists'.mpr ⟨s, hs⟩
  · intro hexpected n ks
    have hspaced : Spaced out (events.take n ++ ks.map .resume) := by
      intro j m he
      obtain ⟨he, htake⟩ := getElem?_take_append_resume he fun _ => nofun
      exact htake ▸ h j m he
    have hmatched := (matched_run hspaced le_rfl fun j _ m he => ?_).2
    · rw [take_length] at hmatched
      exact hmatched.answered
    · obtain ⟨he, htake⟩ := getElem?_take_append_resume he fun _ => nofun
      exact htake ▸ hexpected j m he

/-- The two ends of a connection: each gets its own answers exactly if it gets no unexpected message, and they never
use the same id. -/
theorem responses_reach_requests (outbound inbound : List Event) (hout : Spaced true outbound)
    (hin : Spaced false inbound) : (AlwaysAnswered true outbound ↔ OnlyExpected true outbound) ∧
      (AlwaysAnswered false inbound ↔ OnlyExpected false inbound) ∧
      ∀ k k' r r', (run true outbound).requests k = some r → (run false inbound).requests k' = some r' →
        r.id ≠ r'.id := by
  refine ⟨alwaysAnswered_iff hout, alwaysAnswered_iff hin, fun k k' r r' hr hr' => ?_⟩
  have hid : r.id = 0 + k % 2 ^ 15 := ((numbered_run true outbound).ids hr).2
  have hid' : r'.id = 2 ^ 15 + k' % 2 ^ 15 := ((numbered_run false inbound).ids hr').2
  omega

lemma started_step (c : WSConnection) (e : Event) : (c.step e).started ≤ c.started + 1 := by
  obtain ⟨m, rfl⟩ | hsame := start_or_sameIds c e
  · change (c.startRequest m).started ≤ _
    unfold startRequest
    split
    · exact Nat.le_succ _
    · exact le_rfl
  · exact hsame.started.le.trans (Nat.le_succ _)

lemma started_run (out : Bool) (events : List Event) : (run out events).started ≤ events.length := by
  induction events using List.reverseRecOn with
  | nil => exact Nat.le_refl _
  | append_singleton events e ih =>
    rw [run, foldl_append, length_append]
    exact (started_step _ e).trans (Nat.succ_le_succ ih)

lemma spaced_of_length (h : events.length < 2 ^ 15) : Spaced out events := by
  intro n m hm k r hr hnone
  have hlt := (List.getElem?_eq_some_iff.mp hm).1
  have hle := started_run out (events.take n)
  rw [length_take] at hle
  omega

/-- Two requests, one of them over the rate limit, get their answers in the other order. -/
def exchange (id : ℕ) : List Event :=
  [.start ⟨20, none, []⟩, .start ⟨26, none, []⟩, .outbound true, .outbound false, .receive ⟨27, some (id + 1), []⟩,
    .retry 0, .outbound false, .receive ⟨21, some id, [7]⟩, .resume 0, .timeOut 0, .resume 1]

theorem responses_reach_requests_exchange :
    ((run true (exchange 0)).requests 0).map Request.outcome = some (some (.ok (some (7, ⟨21, some 0, [7]⟩)))) ∧
      AlwaysAnswered true (exchange 0) ∧ AlwaysAnswered false (exchange (2 ^ 15)) := by
  have hspaced : ∀ out id, Spaced out (exchange id) := fun out id => spaced_of_length (by simp [exchange])
  have hexpected : ∀ out, OnlyExpected out (exchange (base out)) := by
    intro out n m hm _ k hk
    have hn : n = 4 ∨ n = 7 := by
      by_contra hne
      rcases n with _ | _ | _ | _ | _ | _ | _ | _ | _ | _ | _ | n <;> first | omega | cases hm
    obtain rfl | rfl := hn <;> cases hm <;> cases out <;> cases hk <;> exact ⟨rfl, fun r hr => by cases hr; nofun⟩
  have hboth := responses_reach_requests (exchange 0) (exchange (2 ^ 15)) (hspaced _ _) (hspaced _ _)
  exact ⟨by decide, hboth.1.mpr (hexpected true), hboth.2.1.mpr (hexpected false)⟩

/-- An answer of an unknown type makes its request raise, and a message that came before the request was sent is
returned by it. -/
theorem responses_miss_requests :
    let unknown := [.start ⟨20, none, []⟩, .outbound false, .receive ⟨2, some 0, []⟩, .resume 0]
    let early := [.start ⟨20, none, []⟩, .receive ⟨21, some 0, []⟩, .resume 0]
    Spaced true unknown ∧ Spaced true early ∧
      ((run true unknown).requests 0).map Request.outcome = some (some (.error .valueError)) ∧
      ((run true early).requests 0).map (fun r => (r.sentAt, r.outcome)) =
        some (none, some (.ok (some (1, ⟨21, some 0, []⟩)))) ∧
      ¬ Answered true unknown ∧ ¬ Answered true early := by
  intro unknown early
  refine ⟨spaced_of_length (by decide), spaced_of_length (by decide), by decide, by decide, fun h => ?_, fun h => ?_⟩
  · rcases h.own (k := 0) rfl rfl with hnone | ⟨t, m, hm, -⟩
    · cases hnone
    · cases hm
  · rcases h.own (k := 0) rfl rfl with hnone | ⟨t, m, hm, -, -, s, -, hs, -⟩
    · cases hnone
    · cases hs

end SectorChain.Proofs.RequestIds
