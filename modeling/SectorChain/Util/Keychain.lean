import SectorChain.Lib.BitString
import SectorChain.Lib.Dict
import SectorChain.Lib.Exec
import SectorChain.Util.ByteTypes

/-!
# Mnemonics and stored keys

`keychain.py`: slots of the keyring are numbered.
-/

namespace SectorChain

structure Keychain where
  user : PyStr
  testing : Bool

end SectorChain

namespace SectorChain.Keychain

open Lib

def MAX_KEYS : ℕ := 100

def text (s : String) : PyStr := s.toList.map ofChar

def SPACE : Fin 0x110000 := ofChar ' '

/-- The lines of the resource `english.txt`. -/
structure WordList where
  words : List PyStr
  length_eq : words.length = 2048
  nodup : words.Nodup
  noSpace : ∀ word ∈ words, SPACE ∉ word

abbrev PrivateKey := Bytes32

abbrev G1Element := SizedBytes 48

/-- What the code takes from elsewhere. `isG1Element` is what `G1Element.from_bytes` accepts. -/
structure Env where
  wordList : WordList
  stdHash : Bytes → Bytes32
  normalize : PyStr → PyStr
  pbkdf2Hmac : Bytes → Bytes → ℕ → SizedBytes 64
  keyGen : Bytes → PrivateKey
  getG1 : PrivateKey → G1Element
  isG1Element : Bytes → Bool
  isG1Element_getG1 : ∀ key, isG1Element (getG1 key).toBytes = true
  getFingerprint : G1Element → ℕ

variable (env : Env)

/-- `BitArray` of a byte string. -/
def bitArray (bs : Bytes) : List Bool := packBits 8 (bs.map UInt8.toNat)

/-- `BitArray.bytes`, for a whole number of bytes. -/
def bytesOfBits (bits : List Bool) : Bytes := (unpackBits 8 bits).map UInt8.ofNat

def wordAt (mWordPosition : ℕ) : Except PyError PyStr :=
  match env.wordList.words[mWordPosition]? with
  | some mWord => .ok mWord
  | none => .error .indexError

def bytesToMnemonic (mnemonicBytes : Bytes) : Except PyError PyStr := do
  if mnemonicBytes.length ∉ [16, 20, 24, 28, 32] then throw .valueError
  let CS := mnemonicBytes.length / 4
  let checksum := (bitArray (env.stdHash mnemonicBytes).toBytes).take CS
  let bitarray := bitArray mnemonicBytes ++ checksum
  if bitarray.length % 11 ≠ 0 then throw .assertionError
  let mnemonics ← (unpackBits 11 bitarray).mapM (wordAt env)
  return [SPACE].intercalate mnemonics

/-- The position of each word; of the last one, if it is listed twice. -/
def wordPositions : Dict PyStr ℕ :=
  env.wordList.words.zipIdx.foldl (fun d e => d.set e.1 e.2) .empty

def positionOf (word : PyStr) : Except PyError ℕ :=
  match (wordPositions env).get? word with
  | some value => .ok value
  | none => .error .valueError

def bytesFromMnemonic (mnemonicStr : PyStr) : Except PyError Bytes := do
  let mnemonic := mnemonicStr.splitOn SPACE
  if mnemonic.length ∉ [12, 15, 18, 21, 24] then throw .valueError
  let values ← mnemonic.mapM (positionOf env)
  let bits := packBits 11 values
  let CS := mnemonic.length / 3
  let ENT := mnemonic.length * 11 - CS
  if bits.length ≠ mnemonic.length * 11 then throw .assertionError
  if ENT % 32 ≠ 0 then throw .assertionError
  let entropyBytes := bytesOfBits (bits.take ENT)
  let checksumBytes := bits.drop ENT
  let checksum := (bitArray (env.stdHash entropyBytes).toBytes).take CS
  if checksumBytes.length ≠ CS then throw .assertionError
  if checksum ≠ checksumBytes then throw .valueError
  return entropyBytes

def mnemonicToSeed (mnemonic passphrase : PyStr) : Except PyError Bytes := do
  let saltStr := text "mnemonic" ++ passphrase
  let salt ← encodeUtf8 (env.normalize saltStr)
  let mnemonicNormalized ← encodeUtf8 (env.normalize mnemonic)
  return (env.pbkdf2Hmac mnemonicNormalized salt 2048).toBytes

/-- The passwords of a keyring, for a service and a user. -/
abbrev Keyring := Dict (PyStr × PyStr) PyStr

abbrev KeyringM := Exec PyError Keyring

def getPassword (service user : PyStr) : KeyringM (Option PyStr) := do
  return (← get).get? (service, user)

def setPassword (service user password : PyStr) : KeyringM Unit :=
  modify fun keyring => keyring.set (service, user) password

def deletePassword (service user : PyStr) : KeyringM Unit := do
  if (← get).contains (service, user) then modify fun keyring => keyring.erase (service, user)
  else throw .passwordDeleteError

def decimal (n : ℕ) : PyStr := (Nat.toDigits 10 n).map ofChar

variable (self : Keychain)

def getService : PyStr :=
  if self.testing then text "sector-" ++ self.user ++ text "-test" else text "sector-" ++ self.user

def g1FromBytes (bs : Bytes) : Except PyError G1Element :=
  if env.isG1Element bs then SizedBytes.ofBytes 48 bs else .error .valueError

/-- What a text of the keyring stands for. -/
def readEntry : Option PyStr → Except PyError (Option (G1Element × Bytes))
  | none => .ok none
  | some readStr =>
    if readStr.length = 0 then .ok none
    else do
      let strBytes ← fromhex readStr
      let pk ← g1FromBytes env (strBytes.take 48)
      return some (pk, strBytes.drop 48)

def getPkAndEntropy (user : PyStr) : KeyringM (Option (G1Element × Bytes)) := do
  let readStr ← getPassword (getService self) user
  liftM (readEntry env readStr)

def getPrivateKeyUser (index : ℕ) : PyStr :=
  if self.testing then text "wallet-" ++ self.user ++ text "-test-" ++ decimal index
  else text "wallet-" ++ self.user ++ text "-" ++ decimal index

/-- The loop that looks for a free slot, for at most `fuel` slots. -/
def freeIndexFrom : ℕ → ℕ → KeyringM ℕ
  | 0, _ => throw .doesNotReturn
  | fuel + 1, index => do
    match ← getPkAndEntropy env self (getPrivateKeyUser self index) with
    | none => return index
    | some _ => freeIndexFrom fuel (index + 1)

/-- There is a free slot after as many as the keyring has passwords. -/
def getFreePrivateKeyIndex : KeyringM ℕ := do
  let keyring ← get
  freeIndexFrom env self (keyring.entries.length + 1) 0

/-! ### Walks over the slots

The loops read one more slot than they visit. -/

section Walks

variable {α : Type}

/-- A free slot is passed over. -/
def visitSlot (visit : ℕ → G1Element → Bytes → α → KeyringM (ForInStep α)) (index : ℕ) (acc : α) :
    Option (G1Element × Bytes) → KeyringM (ForInStep α)
  | some (pk, ent) => visit index pk ent acc
  | none => return .yield acc

/-- The rest of a walk, with `left` slots to visit and what the first of them has. -/
def walkFrom (visit : ℕ → G1Element → Bytes → α → KeyringM (ForInStep α)) :
    ℕ → ℕ → Option (G1Element × Bytes) → α → KeyringM α
  | 0, _, _, acc => return acc
  | left + 1, index, pkent, acc => do
    match ← visitSlot visit index acc pkent with
    | .done acc => return acc
    | .yield acc =>
      let pkent ← getPkAndEntropy env self (getPrivateKeyUser self (index + 1))
      walkFrom visit left (index + 1) pkent acc

def walk (visit : ℕ → G1Element → Bytes → α → KeyringM (ForInStep α)) (init : α) : KeyringM α := do
  let pkent ← getPkAndEntropy env self (getPrivateKeyUser self 0)
  walkFrom env self visit (MAX_KEYS + 1) 0 pkent init

end Walks

/-- The key of an entropy and a passphrase. -/
def deriveKey (ent : Bytes) (pp : PyStr) : Except PyError PrivateKey := do
  let mnemonic ← bytesToMnemonic env ent
  let seed ← mnemonicToSeed env mnemonic pp
  return env.keyGen seed

/-- The first derived key that passes a test. -/
def firstKey (test : PrivateKey → Bool) (ent : Bytes) : List PyStr → Except PyError (Option PrivateKey)
  | [] => .ok none
  | pp :: passphrases => do
    let key ← deriveKey env ent pp
    if test key then return some key else firstKey test ent passphrases

/-- The lookups that return the first key that passes a test. -/
def findPrivateKey (test : G1Element → PrivateKey → Bool) (passphrases : List PyStr) :
    KeyringM (Option (PrivateKey × Bytes)) :=
  walk env self (fun _ pk ent acc => do
    match ← liftM (firstKey env (test pk) ent passphrases) with
    | some key => return .done (some (key, ent))
    | none => return .yield acc) none

/-- The test is on the stored public key, not on the derived one. -/
def getPrivateKeyByFingerprint (fingerprint : ℕ) (passphrases : List PyStr) : KeyringM (Option (PrivateKey × Bytes)) :=
  findPrivateKey env self (fun pk _ => env.getFingerprint pk = fingerprint) passphrases

def getAllPrivateKeys (passphrases : List PyStr) : KeyringM (List (PrivateKey × Bytes)) :=
  walk env self (fun _ pk ent allKeys => do
    let keys ← liftM (passphrases.mapM (deriveKey env ent))
    return .yield (allKeys ++ (keys.filter fun key => env.getG1 key = pk).map fun key => (key, ent))) []

def getAllPublicKeys : KeyringM (List G1Element) :=
  walk env self (fun _ pk _ allKeys => return .yield (allKeys ++ [pk])) []

def addPrivateKey (mnemonic passphrase : PyStr) : KeyringM PrivateKey := do
  let seed ← liftM (mnemonicToSeed env mnemonic passphrase)
  let entropy ← liftM (bytesFromMnemonic env mnemonic)
  let index ← getFreePrivateKeyIndex env self
  let key := env.keyGen seed
  let fingerprint := env.getFingerprint (env.getG1 key)
  let publicKeys ← getAllPublicKeys env self
  if fingerprint ∈ publicKeys.map env.getFingerprint then return key
  setPassword (getService self) (getPrivateKeyUser self index) (hexStr (env.getG1 key).toBytes ++ hexStr entropy)
  return key

def deleteKeyByFingerprint (fingerprint : ℕ) : KeyringM Unit :=
  walk env self (fun index pk _ acc => do
    if env.getFingerprint pk = fingerprint then deletePassword (getService self) (getPrivateKeyUser self index)
    return .yield acc) ()

/-- One round of `delete_all_keys`: what the slot had, and whether something was raised so far. -/
def deleteSlot (index : ℕ) (pkent : Option (G1Element × Bytes)) (deleteException : Bool) :
    KeyringM (Option (G1Element × Bytes) × Bool) :=
  tryCatch
    (do
      let pkent ← getPkAndEntropy env self (getPrivateKeyUser self index)
      tryCatch
        (do
          deletePassword (getService self) (getPrivateKeyUser self index)
          return (pkent, deleteException))
        (fun _ => return (pkent, true)))
    (fun _ => return (pkent, true))

/-- A loop of `delete_all_keys`, for at most `fuel` slots. -/
def deleteFrom : ℕ → ℕ → Option (G1Element × Bytes) → Bool → KeyringM Unit
  | 0, _, _, _ => throw .doesNotReturn
  | fuel + 1, index, pkent, deleteException => do
    let (pkent, deleteException) ← deleteSlot env self index pkent deleteException
    if (pkent.isNone ∨ deleteException) ∧ index > MAX_KEYS then return ()
    else deleteFrom fuel (index + 1) pkent deleteException

/-- Every slot after the last one that is always tried costs a password. -/
def deleteAllKeys : KeyringM Unit := do
  let keyring ← get
  deleteFrom env self (keyring.entries.length + MAX_KEYS + 2) 0 none false
  let keyring ← get
  deleteFrom env self (keyring.entries.length + MAX_KEYS + 2) 0 none true

end SectorChain.Keychain
