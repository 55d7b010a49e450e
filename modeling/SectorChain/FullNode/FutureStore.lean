import SectorChain.Consensus.Header.Types
import SectorChain.Lib.Dict

/-!
# Messages from the future

The caches for messages whose blocks have not arrived yet.
-/

namespace SectorChain

open Lib Header

structure SignagePoint where
  ccVdf : Option VDFInfo
  ccProof : Option VDFProof
  rcVdf : Option VDFInfo
  rcProof : Option VDFProof

structure NewInfusionPointVDF where
  unfinishedRewardHash : Bytes32
  rewardChainIpVdf : VDFInfo

/-- A cached message. The source does not keep `added`, the time of its arrival, and nothing reads it. -/
structure Cached (α : Type) where
  message : α
  added : ℤ

abbrev FutureCache (α : Type) := Dict Bytes32 (List (Cached α))

/-- `cache[k].append(..)`, after the list of a new key was created. -/
def FutureCache.append {α : Type} (cache : FutureCache α) (k : Bytes32) (m : Cached α) : FutureCache α :=
  cache.set k ((cache.get? k).getD [] ++ [m])

structure FutureStore where
  futureEosCache : FutureCache Header.EndOfSubSlotBundle
  futureSpCache : FutureCache (ℕ × SignagePoint)
  futureIpCache : FutureCache NewInfusionPointVDF
  futureCacheKeyTimes : Dict Bytes32 ℤ

namespace FutureStore

variable (store : FutureStore) (now : ℤ)

/-- The branch of `new_finished_sub_slot` for a slot whose challenge is not known yet. -/
def addToFutureEos (eos : Header.EndOfSubSlotBundle) : FutureStore :=
  let rcChallenge := eos.rewardChain.endOfSlotVdf.challenge
  { store with
    futureEosCache := store.futureEosCache.append rcChallenge ⟨eos, now⟩
    futureCacheKeyTimes := store.futureCacheKeyTimes.set rcChallenge now }

def addToFutureIp (infusionPoint : NewInfusionPointVDF) : FutureStore :=
  { store with
    futureIpCache := store.futureIpCache.append infusionPoint.rewardChainIpVdf.challenge ⟨infusionPoint, now⟩ }

def inFutureSpCache (signagePoint : SignagePoint) (index : ℕ) : Bool :=
  match signagePoint.rcVdf with
  | none => false
  | some rcVdf => ((store.futureSpCache.get? rcVdf.challenge).getD []).any fun m =>
    m.message.1 = index ∧ m.message.2.rcVdf = some rcVdf

def addToFutureSp (signagePoint : SignagePoint) (index : ℕ) : FutureStore :=
  match signagePoint with
  | ⟨some _, some _, some rcVdf, some _⟩ =>
    if store.inFutureSpCache signagePoint index then store
    else
      { store with
        futureCacheKeyTimes := store.futureCacheKeyTimes.set rcVdf.challenge now
        futureSpCache := store.futureSpCache.append rcVdf.challenge ⟨(index, signagePoint), now⟩ }
  | _ => store

def clearOldCacheEntries : FutureStore :=
  let removeKeys := (store.futureCacheKeyTimes.entries.filter fun e => now - e.2 > 3600).map Prod.fst
  { futureEosCache := removeKeys.foldl Dict.erase store.futureEosCache
    futureSpCache := removeKeys.foldl Dict.erase store.futureSpCache
    futureIpCache := removeKeys.foldl Dict.erase store.futureIpCache
    futureCacheKeyTimes := removeKeys.foldl Dict.erase store.futureCacheKeyTimes }

inductive Call where
  | eos (eos : Header.EndOfSubSlotBundle)
  | sp (signagePoint : SignagePoint) (index : ℕ)
  | ip (infusionPoint : NewInfusionPointVDF)
  | clear

def step : Call → FutureStore
  | .eos eos => store.addToFutureEos now eos
  | .sp signagePoint index => store.addToFutureSp now signagePoint index
  | .ip infusionPoint => store.addToFutureIp now infusionPoint
  | .clear => store.clearOldCacheEntries now

/-- Calls with the time that the clock shows. -/
def run (calls : List (ℤ × Call)) : FutureStore :=
  calls.foldl (fun store c => store.step c.1 c.2) ⟨.empty, .empty, .empty, .empty⟩

end FutureStore

end SectorChain
