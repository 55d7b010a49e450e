import SectorChain.Types.Basic
import Mathlib.Data.List.Sort
import Mathlib.Data.Nat.Size

/-!
# Coins

A coin, its id and the hash of a list of coins (`coin.py`). `std_hash` is SHA-256, a
parameter.
-/

namespace SectorChain

/-- `int_to_bytes` of a natural number: a set high bit gets a leading zero byte. -/
def intToBytes (n : ℕ) : Bytes := if n = 0 then [] else Lib.beBytes ((n.size + 8) / 8) n

structure Coin where
  parentCoinInfo : Bytes32
  puzzleHash : Bytes32
  amount : ℕ
  amount_lt : amount < 2 ^ 64
deriving DecidableEq

def hexDigit (n : ℕ) : Char := if n < 10 then Char.ofNat (48 + n) else Char.ofNat (87 + n)

/-- `bytes.hex()`. -/
def hex (bs : Bytes) : List Char :=
  bs.flatMap fun b => [hexDigit (b.toNat / 16), hexDigit (b.toNat % 16)]

section Hash

variable (stdHash : Bytes → Bytes32)

namespace Coin

/-- What `get_hash` hashes. -/
def preimage (coin : Coin) : Bytes :=
  coin.parentCoinInfo.toBytes ++ coin.puzzleHash.toBytes ++ intToBytes coin.amount

def getHash (coin : Coin) : Bytes32 := stdHash coin.preimage

def name (coin : Coin) : Bytes32 := coin.getHash stdHash

def nameStr (coin : Coin) : List Char := hex (coin.name stdHash).toBytes

end Coin

/-- `coin_list.sort(key=lambda x: x.name_str, reverse=True)`: stable and descending. -/
def sortByNameStr (coinList : List Coin) : List Coin :=
  coinList.insertionSort fun a b => ¬ a.nameStr stdHash < b.nameStr stdHash

def hashCoinList (coinList : List Coin) : Bytes32 :=
  stdHash ((sortByNameStr stdHash coinList).flatMap fun coin => (coin.name stdHash).toBytes)

end Hash

end SectorChain
