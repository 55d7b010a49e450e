import SectorChain.FullNode.BundleTools
import SectorChain.Lib.Exec
import SectorChain.Lib.SortedDict

/-!
# The mempool

The pending transactions of a full node (`mempool.py`, `mempool_item.py`), in five structures.
-/

namespace SectorChain

open Lib

structure MempoolItem where
  spendBundle : SpendBundle
  fee : ℕ
  npcResult : NPCResult
  cost : ℕ
  spendBundleName : Bytes32
  additions : List Coin
  removals : List Coin
  program : Bytes
deriving DecidableEq

def MempoolItem.name (item : MempoolItem) : Bytes32 := item.spendBundleName

structure Mempool (Q : Type) [LinearOrder Q] where
  spends : Dict Bytes32 MempoolItem
  sortedSpends : SortedDict Q (Dict Bytes32 MempoolItem)
  additions : Dict Bytes32 MempoolItem
  removals : Dict Bytes32 MempoolItem
  maxSizeInCost : ℕ
  totalMempoolCost : ℤ

variable {Q : Type} [LinearOrder Q]

namespace Mempool

def new (maxSizeInCost : ℕ) : Mempool Q where
  spends := .empty
  sortedSpends := .empty
  additions := .empty
  removals := .empty
  maxSizeInCost := maxSizeInCost
  totalMempoolCost := 0

def inOrder (m : Mempool Q) : List (Q × MempoolItem) :=
  m.sortedSpends.entries.flatMap fun bucket => bucket.2.entries.map fun e => (bucket.1, e.2)

def atFullCapacity (m : Mempool Q) (cost : ℕ) : Bool := m.totalMempoolCost + cost > m.maxSizeInCost

end Mempool

abbrev MempoolM (Q : Type) [LinearOrder Q] (α : Type) := Exec PyError (Mempool Q) α

def delKey {κ ν : Type} [DecidableEq κ] (d : Dict κ ν) (k : κ) : Except PyError (Dict κ ν) :=
  if d.contains k then .ok (d.erase k) else .error .keyError

namespace Mempool

def delRemoval (name : Bytes32) : MempoolM Q Unit := do
  let removals ← delKey (← get).removals name
  modify fun m => { m with removals := removals }

def delAddition (name : Bytes32) : MempoolM Q Unit := do
  let additions ← delKey (← get).additions name
  modify fun m => { m with additions := additions }

def delSpend (name : Bytes32) : MempoolM Q Unit := do
  let spends ← delKey (← get).spends name
  modify fun m => { m with spends := spends }

def delSorted (feePerCost : Q) (name : Bytes32) : MempoolM Q Unit := do
  match (← get).sortedSpends.get? feePerCost with
  | none => throw .keyError
  | some dic =>
    let dic ← delKey dic name
    modify fun m => { m with sortedSpends :=
      if dic.entries.length = 0 then m.sortedSpends.erase feePerCost
      else m.sortedSpends.set feePerCost dic }

def releaseCost (cost : ℕ) : MempoolM Q Unit := do
  modify fun m => { m with totalMempoolCost := m.totalMempoolCost - cost }
  pyAssert (0 ≤ (← get).totalMempoolCost)

end Mempool

section

variable (env : MempoolEnv Q)

def MempoolItem.feePerCost (item : MempoolItem) : Q := env.perCost item.fee item.cost

namespace Mempool

/-- The loop over the items: one after the other is taken out until the cost fits. -/
def minFeeRateFrom (maxSizeInCost cost : ℕ) : ℤ → List (Q × MempoolItem) → Except PyError Q
  | _, [] => .error .valueError
  | currentCost, (feePerCost, item) :: rest =>
    if currentCost - item.cost + cost ≤ maxSizeInCost then .ok feePerCost
    else minFeeRateFrom maxSizeInCost cost (currentCost - item.cost) rest

def getMinFeeRate (m : Mempool Q) (cost : ℕ) : Except PyError Q :=
  if m.atFullCapacity cost then
    minFeeRateFrom m.maxSizeInCost cost m.totalMempoolCost m.inOrder
  else .ok (env.perCost 0 1)

/-- Removes an item, under the coins that its bundle states. -/
def removeFromPool (item : MempoolItem) : MempoolM Q Unit := do
  let additions ← item.spendBundle.additions env
  item.spendBundle.removals.forM fun rem => delRemoval (rem.name env.stdHash)
  additions.forM fun add => delAddition (add.name env.stdHash)
  delSpend item.name
  delSorted (item.feePerCost env) item.name
  releaseCost item.cost

def peekLowest (m : Mempool Q) : Except PyError MempoolItem :=
  match m.sortedSpends.entries with
  | [] => .error .indexError
  | (_, val) :: _ =>
    match val.entries with
    | [] => .error .indexError
    | (_, item) :: _ => .ok item

/-- The loop that makes room. Every round takes out an item. -/
def makeRoom (cost : ℕ) : ℕ → MempoolM Q Unit
  | 0 => throw .doesNotReturn
  | fuel + 1 => do
    if (← get).atFullCapacity cost then do
      let toRemove ← peekLowest (← get)
      removeFromPool env toRemove
      makeRoom cost fuel
    else return

def insertItem (item : MempoolItem) (additions : List Coin) (removalNames : List Bytes32)
    (m : Mempool Q) : Mempool Q where
  spends := m.spends.set item.name item
  sortedSpends := m.sortedSpends.set (item.feePerCost env)
    (((m.sortedSpends.get? (item.feePerCost env)).getD .empty).set item.name item)
  additions := additions.foldl (fun d add => d.set (add.name env.stdHash) item) m.additions
  removals := removalNames.foldl (fun d key => d.set key item) m.removals
  maxSizeInCost := m.maxSizeInCost
  totalMempoolCost := m.totalMempoolCost + item.cost

/-- Adds an item, after making room for it in order of increasing fee per cost. -/
def addToPool (item : MempoolItem) (additions : List Coin) (removalsDic : Dict Bytes32 Coin) :
    MempoolM Q Unit := do
  makeRoom env item.cost ((← get).spends.entries.length + 1)
  modify (insertItem env item additions removalsDic.keys)

end Mempool

end

end SectorChain
