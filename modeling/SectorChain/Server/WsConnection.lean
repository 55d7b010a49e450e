import SectorChain.Lib.Dict
import SectorChain.Types.Basic

/-!
# Requests on a connection

Calls of `create_request` are numbered in the order in which they start.
-/

namespace SectorChain

open Lib

structure Message where
  type : ℕ
  id : Option ℕ
  data : Bytes
deriving DecidableEq

/-- The numbers in `ProtocolMessageTypes`. -/
def isProtocolMessageType (type : ℕ) : Bool := type = 1 || type = 3 || 5 ≤ type && type ≤ 68

def respondPeers : ℕ := 44

/-- A call of `create_request`, when its message was sent, and what it returned or raised. A message comes with the
time of its arrival. -/
structure Request where
  id : ℕ
  sentAt : Option ℕ
  outcome : Option (Except PyError (Option (ℕ × Message)))

/-- Events are those of the calls with the same numbers. The source has no `clock` and no `addressee`, and its queue
does not say which call a message comes from. -/
structure WSConnection where
  isOutbound : Bool
  requestNonce : ℕ
  closed : Bool
  pendingRequests : Dict (Option ℕ) ℕ
  requestResults : Dict (Option ℕ) (ℕ × Message)
  outgoingQueue : List (Option ℕ × Message)
  retries : List (Option ℕ × Message)
  requests : ℕ → Option Request
  eventIsSet : ℕ → Bool
  started : ℕ
  clock : ℕ
  addressee : ℕ → ℕ

namespace WSConnection

def new (isOutbound : Bool) : WSConnection where
  isOutbound := isOutbound
  requestNonce := if isOutbound then 0 else 2 ^ 15
  closed := false
  pendingRequests := .empty
  requestResults := .empty
  outgoingQueue := []
  retries := []
  requests := fun _ => none
  eventIsSet := fun _ => false
  started := 0
  clock := 0
  addressee := fun _ => 0

variable (c : WSConnection)

def nextNonce : ℕ :=
  if c.isOutbound then if c.requestNonce ≠ 2 ^ 15 - 1 then c.requestNonce + 1 else 0
  else if c.requestNonce ≠ 2 ^ 16 - 1 then c.requestNonce + 1 else 2 ^ 15

/-- `create_request` up to the point where it waits. -/
def startRequest (messageNoId : Message) : WSConnection :=
  if c.closed then c
  else
    { c with
      requestNonce := c.nextNonce
      pendingRequests := c.pendingRequests.set (some c.requestNonce) c.started
      outgoingQueue := c.outgoingQueue ++ [(some c.started, { messageNoId with id := some c.requestNonce })]
      requests := Function.update c.requests c.started (some ⟨c.requestNonce, none, none⟩)
      started := c.started + 1 }

/-- `send_message` and `reply_to_request`. -/
def sendMessage (message : Message) : WSConnection :=
  if c.closed then c else { c with outgoingQueue := c.outgoingQueue ++ [(none, message)] }

def markSent (owner : Option ℕ) : WSConnection :=
  match owner.bind fun k => (c.requests k).map (k, ·) with
  | some (k, r) =>
    { c with requests := Function.update c.requests k (some { r with sentAt := r.sentAt.or (some c.clock) }) }
  | none => c

/-- One round of `outbound_handler`. A message over the rate limit waits for a retry. -/
def outbound (limited : Bool) : WSConnection :=
  match c.outgoingQueue with
  | [] => c
  | (owner, message) :: rest =>
    if c.closed then c
    else if limited then
      if message.type ≠ respondPeers then
        { c with outgoingQueue := rest, retries := c.retries ++ [(owner, message)] }
      else { c with outgoingQueue := rest }
    else { c with outgoingQueue := rest }.markSent owner

/-- The end of `_wait_and_retry`. -/
def retry (i : ℕ) : WSConnection :=
  match c.retries[i]? with
  | some message =>
    { c with outgoingQueue := c.outgoingQueue ++ [message], retries := c.retries.eraseIdx i }
  | none => c

def setEvent (k : ℕ) : WSConnection := { c with eventIsSet := Function.update c.eventIsSet k true }

/-- One round of `inbound_handler`; other messages go to the server's queue. -/
def receive (message : Message) : WSConnection :=
  if c.closed then c
  else match c.pendingRequests.get? message.id with
    | some k => { c.setEvent k with
        requestResults := c.requestResults.set message.id (c.clock, message)
        addressee := Function.update c.addressee c.clock k }
    | none => c

/-- The end of the timer of a request, which stays alive after the request has returned. -/
def timeOut (k : ℕ) : WSConnection :=
  match (c.requests k).bind fun r => c.pendingRequests.get? (some r.id) with
  | some k' => c.setEvent k'
  | none => c

def finish (k : ℕ) (r : Request) (outcome : Except PyError (Option (ℕ × Message))) : WSConnection :=
  { c with requests := Function.update c.requests k (some { r with outcome := some outcome }) }

/-- The rest of `create_request`, once its event is set. The log line reads the type of the response. -/
def resume (k : ℕ) : WSConnection :=
  match c.requests k with
  | some r =>
    if c.eventIsSet k ∧ r.outcome = none then
      if c.pendingRequests.contains (some r.id) then
        let pendingRequests := c.pendingRequests.erase (some r.id)
        match c.requestResults.get? (some r.id) with
        | none => { c with pendingRequests := pendingRequests }.finish k r (.ok none)
        | some result =>
          if isProtocolMessageType result.2.type = false then
            { c with pendingRequests := pendingRequests }.finish k r (.error .valueError)
          else if c.requestResults.contains result.2.id then
            { c with
              pendingRequests := pendingRequests
              requestResults := c.requestResults.erase result.2.id }.finish k r (.ok (some result))
          else { c with pendingRequests := pendingRequests }.finish k r (.error .keyError)
      else c.finish k r (.error .keyError)
    else c
  | none => c

inductive Event where
  | start (messageNoId : Message)
  | sendMessage (message : Message)
  | outbound (limited : Bool)
  | retry (i : ℕ)
  | receive (message : Message)
  | timeOut (k : ℕ)
  | resume (k : ℕ)
  | close

def act : Event → WSConnection
  | .start messageNoId => c.startRequest messageNoId
  | .sendMessage message => c.sendMessage message
  | .outbound limited => c.outbound limited
  | .retry i => c.retry i
  | .receive message => c.receive message
  | .timeOut k => c.timeOut k
  | .resume k => c.resume k
  | .close => { c with closed := true }

def step (e : Event) : WSConnection := { c.act e with clock := c.clock + 1 }

def run (isOutbound : Bool) (events : List Event) : WSConnection := events.foldl step (new isOutbound)

end WSConnection

end SectorChain
