import Mathlib.Data.Finset.Basic
import SectorChain.Lib.Dict
import SectorChain.Types.Basic

/-!
# The peaks of the peers

`SyncStore` without the fields that only its callers read.
-/

namespace SectorChain

open Lib

structure SyncPeak where
  headerHash : Bytes32
  height : ℕ
  weight : ℕ
deriving DecidableEq

structure SyncStore where
  peakToPeer : Dict Bytes32 (Finset Bytes32)
  peerToPeak : Dict Bytes32 SyncPeak
  syncTargetHeaderHash : Option Bytes32
  /-- Whether the event `peers_changed` is set. -/
  peersChanged : Bool

namespace SyncStore

def create : SyncStore where
  peakToPeer := .empty
  peerToPeak := .empty
  syncTargetHeaderHash := none
  peersChanged := false

variable (store : SyncStore)

def peerHasBlock (headerHash peerId : Bytes32) (weight height : ℕ) (newPeak : Bool) : SyncStore where
  peakToPeer := match store.peakToPeer.get? headerHash with
    | some peers => store.peakToPeer.set headerHash (insert peerId peers)
    | none => store.peakToPeer.set headerHash {peerId}
  peerToPeak := if newPeak then store.peerToPeak.set peerId ⟨headerHash, height, weight⟩ else store.peerToPeak
  syncTargetHeaderHash := store.syncTargetHeaderHash
  peersChanged := store.syncTargetHeaderHash = some headerHash || store.peersChanged

def getPeersThatHavePeak (headerHashes : List Bytes32) : Finset Bytes32 :=
  headerHashes.foldl (fun nodeIds headerHash => match store.peakToPeer.get? headerHash with
    | some peers => nodeIds ∪ peers
    | none => nodeIds) ∅

/-- One round of the loop of `get_heaviest_peak`. -/
def heavier (heaviest : Option SyncPeak) (e : Bytes32 × SyncPeak) : Option SyncPeak :=
  if store.peakToPeer.contains e.2.headerHash then
    match heaviest with
    | none => some e.2
    | some peak => if e.2.weight > peak.weight then some e.2 else some peak
  else heaviest

def getHeaviestPeak : Except PyError (Option SyncPeak) :=
  if store.peerToPeak.entries = [] then .ok none
  else match store.peerToPeak.entries.foldl store.heavier none with
    | some peak => .ok (some peak)
    | none => .error .assertionError

def clearSyncInfo : SyncStore := { store with peakToPeer := .empty }

/-- The assertion in the loop holds, since the peer was just removed from the set. -/
def peerDisconnected (nodeId : Bytes32) : SyncStore :=
  { store with
    peakToPeer := store.peakToPeer.mapVals fun _ peers => if nodeId ∈ peers then peers.erase nodeId else peers
    peerToPeak := if store.peerToPeak.contains nodeId then store.peerToPeak.erase nodeId else store.peerToPeak
    peersChanged := true }

inductive Call where
  | peerHasBlock (headerHash peerId : Bytes32) (weight height : ℕ) (newPeak : Bool)
  | peerDisconnected (nodeId : Bytes32)
  | clearSyncInfo

def step : Call → SyncStore
  | .peerHasBlock headerHash peerId weight height newPeak => store.peerHasBlock headerHash peerId weight height newPeak
  | .peerDisconnected nodeId => store.peerDisconnected nodeId
  | .clearSyncInfo => store.clearSyncInfo

def run (calls : List Call) : SyncStore := calls.foldl step create

end SyncStore

end SectorChain
