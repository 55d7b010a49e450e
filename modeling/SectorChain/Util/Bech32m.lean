import SectorChain.Util.Streamable

/-!
# Addresses

Text is a list of code points, data are numbers below 32.
-/

namespace SectorChain.Bech32m

def CHARSET : PyStr :=
  ['q', 'p', 'z', 'r', 'y', '9', 'x', '8', 'g', 'f', '2', 't', 'v', 'd', 'w', '0',
    's', '3', 'j', 'n', '5', '4', 'k', 'h', 'c', 'e', '6', 'm', 'u', 'a', '7', 'l'].map ofChar

/-- The text `"1"` between the readable part and the data. -/
def SEPARATOR : Fin 0x110000 := ofChar '1'

def generator : List ℕ := [0x3B6A57B2, 0x26508E6D, 0x1EA119FA, 0x3D4233DD, 0x2A1462B3]

/-- The value of bit `i` of the part that was shifted out. -/
def generatorTerm (top i : ℕ) : ℕ := if (top >>> i) &&& 1 ≠ 0 then generator.getD i 0 else 0

/-- One round of `bech32_polymod`. -/
def polymodStep (chk value : ℕ) : ℕ :=
  let top := chk >>> 25
  let chk := ((chk &&& 0x1FFFFFF) <<< 5) ^^^ value
  (List.range 5).foldl (fun chk i => chk ^^^ generatorTerm top i) chk

def bech32Polymod (values : List ℕ) : ℕ := values.foldl polymodStep 1

variable (s : PyStr) (hrp : PyStr) (data : List ℕ)

def bech32HrpExpand : List ℕ := (hrp.map fun x => x.val >>> 5) ++ [0] ++ hrp.map fun x => x.val &&& 31

def M : ℕ := 0x2BC830A3

def bech32VerifyChecksum : Bool := bech32Polymod (bech32HrpExpand hrp ++ data) = M

def bech32CreateChecksum : List ℕ :=
  let values := bech32HrpExpand hrp ++ data
  let polymod := bech32Polymod (values ++ [0, 0, 0, 0, 0, 0]) ^^^ M
  (List.range 6).map fun i => (polymod >>> (5 * (5 - i))) &&& 31

def charAt (d : ℕ) : Except PyError (Fin 0x110000) :=
  match CHARSET[d]? with
  | some x => .ok x
  | none => .error .indexError

def bech32Encode : Except PyError PyStr := do
  let combined := data ++ bech32CreateChecksum hrp data
  let chars ← combined.mapM charAt
  return hrp ++ [SEPARATOR] ++ chars

/-- `str.lower` of a letter, where only ASCII text is looked at. -/
def lowerChar (x : Fin 0x110000) : Fin 0x110000 := if 65 ≤ x.val ∧ x.val ≤ 90 then Fin.ofNat _ (x.val + 32) else x

/-- `str.upper` of a letter, where only ASCII text is looked at. -/
def upperChar (x : Fin 0x110000) : Fin 0x110000 := if 97 ≤ x.val ∧ x.val ≤ 122 then Fin.ofNat _ (x.val - 32) else x

def lower : PyStr := s.map lowerChar

def upper : PyStr := s.map upperChar

def rfind (c : Fin 0x110000) : Option ℕ := if c ∈ s then some (s.length - 1 - s.reverse.idxOf c) else none

/-- The readable part and the data without the checksum. -/
def bech32Decode (bech : PyStr) : Option (PyStr × List ℕ) :=
  if (bech.any fun x => x.val < 33 ∨ x.val > 126) ∨ lower bech ≠ bech ∧ upper bech ≠ bech then none
  else
    let bech := lower bech
    match rfind bech SEPARATOR with
    | none => none
    | some pos =>
      if pos < 1 ∨ pos + 7 > bech.length ∨ bech.length > 90 then none
      else if ¬ (bech.drop (pos + 1)).all fun x => x ∈ CHARSET then none
      else
        let hrp := bech.take pos
        let data := (bech.drop (pos + 1)).map fun x => CHARSET.idxOf x
        if ¬ bech32VerifyChecksum hrp data then none
        else some (hrp, data.take (data.length - 6))

/-- The inner loop of `convertbits`, which takes `tobits` bits in each round. -/
def takeGroups (tobits acc : ℕ) : ℕ → ℕ → List ℕ → ℕ × List ℕ
  | 0, bits, ret => (bits, ret)
  | rounds + 1, bits, ret =>
    if bits ≥ tobits then
      takeGroups tobits acc rounds (bits - tobits) (ret ++ [(acc >>> (bits - tobits)) &&& ((1 <<< tobits) - 1)])
    else (bits, ret)

/-- The variables of the loop of `convertbits`. -/
structure Regroup where
  acc : ℕ
  bits : ℕ
  ret : List ℕ
deriving DecidableEq

/-- One round. With `tobits > 0` the inner loop has at most as many rounds as there are bits. -/
def convertbitsStep (frombits tobits : ℕ) (s : Regroup) (value : ℕ) : Except PyError Regroup :=
  if value >>> frombits ≠ 0 then .error .valueError
  else
    let acc := ((s.acc <<< frombits) ||| value) &&& ((1 <<< (frombits + tobits - 1)) - 1)
    let bits := s.bits + frombits
    let (bits, ret) := takeGroups tobits acc bits bits s.ret
    .ok ⟨acc, bits, ret⟩

/-- Groups of `frombits` bits as groups of `tobits` bits, for positive `tobits`. -/
def convertbits (frombits tobits : ℕ) (pad : Bool) : Except PyError (List ℕ) := do
  let s ← data.foldlM (convertbitsStep frombits tobits) ⟨0, 0, []⟩
  let rest := (s.acc <<< (tobits - s.bits)) &&& ((1 <<< tobits) - 1)
  if pad then return if s.bits ≠ 0 then s.ret ++ [rest] else s.ret
  else if s.bits ≥ frombits ∨ rest ≠ 0 then throw .valueError
  else return s.ret

def bytesOfInts (l : List ℕ) : Except PyError Bytes :=
  if l.all fun x => x < 256 then .ok (l.map UInt8.ofNat) else .error .valueError

def encodePuzzleHash (puzzleHash : Bytes) (pre : PyStr) : Except PyError PyStr := do
  let data ← convertbits (puzzleHash.map UInt8.toNat) 8 5 true
  bech32Encode pre data

/-- The length of what was decoded is not looked at. -/
def decodePuzzleHash (address : PyStr) : Except PyError Bytes :=
  match bech32Decode address with
  | none => .error .valueError
  | some (_, data) => do
    let decoded ← convertbits data 5 8 false
    bytesOfInts decoded

end SectorChain.Bech32m
