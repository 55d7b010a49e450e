import SectorChain.Types.Coin
import SectorChain.Util.Streamable

/-!
# Byte strings as hexadecimal text

`bytes.hex`, `bytes.fromhex` and `byte_types.hexstr_to_bytes`.
-/

namespace SectorChain

/-- `bytes.hex` as a `str`. -/
def hexStr (bs : Bytes) : PyStr := (hex bs).map ofChar

/-- The characters that `bytes.fromhex` skips between two bytes. -/
def isSpace (c : Fin 0x110000) : Bool := (9 ≤ c.val ∧ c.val ≤ 13) ∨ c.val = 32

def digitValue (c : Fin 0x110000) : Except PyError ℕ :=
  if 48 ≤ c.val ∧ c.val ≤ 57 then .ok (c.val - 48)
  else if 97 ≤ c.val ∧ c.val ≤ 102 then .ok (c.val - 87)
  else if 65 ≤ c.val ∧ c.val ≤ 70 then .ok (c.val - 55)
  else .error .valueError

def fromhex : PyStr → Except PyError Bytes
  | [] => .ok []
  | [c] => if isSpace c then .ok [] else .error .valueError
  | c :: d :: rest =>
    if isSpace c then fromhex (d :: rest)
    else do
      let top ← digitValue c
      let bot ← digitValue d
      let bs ← fromhex rest
      return UInt8.ofNat (top * 16 + bot) :: bs

/-- The texts `"0x"` and `"0X"`. -/
def hexMark : List PyStr := [[ofChar '0', ofChar 'x'], [ofChar '0', ofChar 'X']]

def hexstrToBytes (inputStr : PyStr) : Except PyError Bytes :=
  if inputStr.take 2 ∈ hexMark then fromhex (inputStr.drop 2) else fromhex inputStr

lemma digitValue_hexDigit :
    ∀ d < 16, isSpace (ofChar (hexDigit d)) = false ∧ digitValue (ofChar (hexDigit d)) = .ok d := by
  decide

/-- Text of whole bytes is read back. -/
@[simp] theorem fromhex_hexStr (bs : Bytes) : fromhex (hexStr bs) = .ok bs := by
  induction bs with
  | nil => rfl
  | cons b bs ih =>
    have hb := b.toNat_lt
    obtain ⟨hspace, htop⟩ := digitValue_hexDigit (b.toNat / 16) (by omega)
    obtain ⟨-, hbot⟩ := digitValue_hexDigit (b.toNat % 16) (by omega)
    have hbyte : b.toNat / 16 * 16 + b.toNat % 16 = b.toNat := by omega
    change fromhex (ofChar (hexDigit (b.toNat / 16)) :: ofChar (hexDigit (b.toNat % 16)) :: hexStr bs) = _
    rw [fromhex, if_neg (by rw [hspace]; exact Bool.false_ne_true), htop, hbot, ih]
    change Except.ok (UInt8.ofNat (b.toNat / 16 * 16 + b.toNat % 16) :: bs) = _
    rw [hbyte, UInt8.ofNat_toNat]

lemma hexStr_append (bs bs' : Bytes) : hexStr (bs ++ bs') = hexStr bs ++ hexStr bs' := by
  simp [hexStr, hex]

end SectorChain
