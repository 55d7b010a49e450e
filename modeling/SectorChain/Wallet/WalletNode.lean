import SectorChain.Consensus.BlockRootValidation
import SectorChain.Wallet.Records

/-!
# What a light wallet accepts from a full node

Replies are checked against the roots in the header.
-/

namespace SectorChain

open MerkleSet

structure RespondAdditions where
  coins : List (Bytes32 × List Coin)
  /-- Puzzle hash, proof for the puzzle hash, proof for the hash of the coin list. -/
  proofs : Option (List (Bytes32 × Bytes × Option Bytes))

structure RespondRemovals where
  coins : List (Bytes32 × Option Coin)
  proofs : Option (List (Bytes32 × Bytes))

inductive Reply (α : Type) where
  | nothing
  | respond (response : α)
  | reject

section

variable [RecursionLimit] (sha256 : Bytes → Bytes32)

/-- `except AssertionError: return False`. -/
def falseOnAssertion : Except PyError Bool → Except PyError Bool
  | .error .assertionError => .ok false
  | result => result

/-- A proof that is missing is subscripted all the same. -/
def subscripted : Option Bytes → Except PyError Bytes
  | some proof => .ok proof
  | none => .error .typeError

/-- The loop over the coins with their proofs. It ends at the first entry that is not confirmed. -/
def validateEach {α β : Type} (validate : α → β → Except PyError Bool) : List α → List β → Except PyError Bool
  | [], _ => .ok true
  | _ :: _, [] => .error .indexError
  | entry :: coins, proof :: proofs => do
    if !(← validate entry proof) then return false
    validateEach validate coins proofs

/-- One round of the loop. -/
def validateAddition (root : Bytes32) (entry : Bytes32 × List Coin)
    (proof : Bytes32 × Bytes × Option Bytes) : Except PyError Bool := do
  pyAssert (entry.1 = proof.1)
  if entry.2.length = 0 then
    confirmNotIncludedAlreadyHashed sha256 root.toBytes entry.1.toBytes proof.2.1
  else
    let listIncluded ← falseOnAssertion do
      let coinListProof ← subscripted proof.2.2
      confirmIncludedAlreadyHashed sha256 root.toBytes (hashCoinList sha256 entry.2).toBytes
        coinListProof
    if !listIncluded then return false
    falseOnAssertion
      (confirmIncludedAlreadyHashed sha256 root.toBytes entry.1.toBytes proof.2.1)

def validateAdditions (coins : List (Bytes32 × List Coin))
    (proofs : Option (List (Bytes32 × Bytes × Option Bytes))) (root : Bytes32) :
    Except PyError Bool :=
  match proofs with
  | none => do
    let additionsMerkleSet ← buildMerkleSet sha256
      (coins.flatMap fun entry => [entry.1, hashCoinList sha256 entry.2])
    let additionsRoot ← additionsMerkleSet.getRoot sha256
    return root.toBytes = additionsRoot
  | some proofs => validateEach (validateAddition sha256 root) coins proofs

/-- The coins that a block creates, according to a full node: those of `additions`, or all. -/
def getAdditions (additionsRoot : Bytes32) (additions : Option (List Bytes32))
    (getAllAdditions : Bool) (peer : Option (List Bytes32) → Reply RespondAdditions) :
    Except PyError (Option (List Coin)) :=
  if (additions.any fun l => l.length > 0) || getAllAdditions then
    match peer (if getAllAdditions then none else additions) with
    | .nothing => return none
    | .respond response => do
      let validated ← validateAdditions sha256 response.coins response.proofs additionsRoot
      if !validated then return none
      -- the validation has sorted the lists in place
      return some (response.coins.flatMap fun entry => sortByNameStr sha256 entry.2)
    | .reject => return none
  else return some []

/-- One round of the loop. -/
def validateRemoval (root : Bytes32) (entry : Bytes32 × Option Coin) (proof : Bytes32 × Bytes) :
    Except PyError Bool :=
  if entry.1 ≠ proof.1 then .ok false
  else match entry.2 with
    | none => confirmNotIncludedAlreadyHashed sha256 root.toBytes entry.1.toBytes proof.2
    | some coin =>
      if entry.1 ≠ coin.name sha256 then .ok false
      else confirmIncludedAlreadyHashed sha256 root.toBytes (coin.name sha256).toBytes proof.2

def validateRemovals (coins : List (Bytes32 × Option Coin)) (proofs : Option (List (Bytes32 × Bytes)))
    (root : Bytes32) : Except PyError Bool :=
  match proofs with
  | none => do
    let removalsMerkleSet ← buildMerkleSet sha256
      ((coins.filterMap Prod.snd).map (Coin.name sha256))
    let removalsRoot ← removalsMerkleSet.getRoot sha256
    return root.toBytes = removalsRoot
  | some proofs =>
    if coins.length ≠ proofs.length then return false
    else validateEach (validateRemoval sha256 root) coins proofs

/-- Coins of these wallets make the wallet ask for all removals. -/
def needsAllRemovals (walletType : Bytes32 → Option WalletType) (additions : List Coin) : Bool :=
  additions.any fun coin =>
    walletType coin.puzzleHash = some .COLOURED_COIN ||
      walletType coin.puzzleHash = some .DISTRIBUTED_ID

/-- The coins that a block spends, according to a full node: those with the names `removals`, or all. -/
def getRemovals (removalsRoot : Bytes32) (walletType : Bytes32 → Option WalletType)
    (additions : List Coin) (removals : List Bytes32) (requestAllRemovals : Bool)
    (peer : Option (List Bytes32) → Reply RespondRemovals) : Except PyError (Option (List Coin)) :=
  let requestAllRemovals := needsAllRemovals walletType additions || requestAllRemovals
  if removals.length > 0 || requestAllRemovals then
    match peer (if requestAllRemovals then none else some removals) with
    | .nothing => return none
    | .respond response => do
      let validated ← validateRemovals sha256 response.coins response.proofs removalsRoot
      if !validated then return none
      return some (response.coins.filterMap Prod.snd)
    | .reject => return none
  else return some []

end

end SectorChain
