import SectorChain.Wallet.Puzzles.Clvm

/-!
# Running CLVM

An evaluator for the operators of decompression, without limits on cost.
-/

namespace SectorChain

open Lib

namespace Clvm

/-- A compiled program. -/
def loadClvm (compiled : Bytes) : SExp := (SExp.fromBytes compiled).getD (.atom [])

/-- `chialisp_deserialisation.clvm`, as the generator ROM has it. -/
def LOCAL_DESERIALIZE_MOD : SExp := loadClvm
  (([0xff02ffff01ff05ffff02ff3effff04ff02ffff04ff05ff8080808080ffff04ffff01ffffff81ff7fff81df81bfffff,
    0xff02ffff03ffff09ff0bffff01818080ffff01ff04ff80ffff04ff05ff808080ffff01ff02ffff03ffff0aff0bff18,
    0x80ffff01ff02ff1affff04ff02ffff04ffff02ffff03ffff0aff0bff1c80ffff01ff02ffff03ffff0aff0bff1480ff,
    0xff01ff0880ffff01ff04ffff0effff18ffff011fff0b80ffff0cff05ff80ffff01018080ffff04ffff0cff05ffff01,
    0x0180ff80808080ff0180ffff01ff04ffff18ffff013fff0b80ffff04ff05ff80808080ff0180ff80808080ffff01ff,
    0x04ff0bffff04ff05ff80808080ff018080ff0180ff04ffff0cff15ff80ff0980ffff04ffff0cff15ff0980ff808080,
    0xffff04ffff04ff05ff1380ffff04ff2bff808080ffff02ff16ffff04ff02ffff04ff09ffff04ffff02ff3effff04ff,
    0x02ffff04ff15ff80808080ff8080808080ff02ffff03ffff09ffff0cff05ff80ffff010180ff1080ffff01ff02ff2e,
    0xffff04ff02ffff04ffff02ff3effff04ff02ffff04ffff0cff05ffff010180ff80808080ff80808080ffff01ff02ff,
    0x12ffff04ff02ffff04ffff0cff05ffff010180ffff04ffff0cff05ff80ffff010180ff808080808080ff0180ff0180]
    : List ℕ).flatMap (beBytes 47) ++ [0x80])

/-- The value that a path leads to, by the bits of the number from the lowest on. -/
def traversePath (path : ℕ) (env : SExp) : Option SExp :=
  if path = 0 then some (.atom [])
  else (List.range path.log2).foldlM (fun v i => if path.testBit i then v.rest? else v.first?) env

/-- The operator `substr`, whose indices have to be in range. -/
def substr (s : Bytes) (start stop : ℤ) : Option SExp :=
  if 0 ≤ start ∧ start ≤ stop ∧ stop ≤ s.length then some (.atom ((s.drop start.toNat).take (stop - start).toNat))
  else none

/-- An operator on values. -/
def applyOperator (op : Bytes) (args : List SExp) : Option SExp :=
  match op, args with
  | [3], [condition, a, b] => some (if truthy condition then a else b)
  | [4], [a, b] => some (.pair a b)
  | [5], [a] => a.first?
  | [6], [a] => a.rest?
  | [12], [s, start] => do substr (← s.atom?) (← asInt start) (← s.atom?).length
  | [12], [s, start, stop] => do substr (← s.atom?) (← asInt start) (← asInt stop)
  | [14], args => do
    let parts ← args.mapM SExp.atom?
    return .atom parts.flatten
  | _, _ => none

def evalList (eval : SExp → Option SExp) : SExp → Option (List SExp)
  | .atom bs => if bs = [] then some [] else none
  | .pair program programs => do
    let v ← eval program
    let vs ← evalList eval programs
    return v :: vs

/-- The value of a program in an environment; `depth` bounds the nesting. -/
def eval : ℕ → SExp → SExp → Option SExp
  | 0, _, _ => none
  | _ + 1, .atom path, env => traversePath (Lib.beNat path) env
  | _ + 1, .pair (.pair _ _) _, _ => none
  | depth + 1, .pair (.atom op) args, env =>
    if op = [1] then some args
    else do
      let vs ← evalList (fun program => eval depth program env) args
      if op = [2] then
        match vs with
        | [program, env] =>
          if program = LOCAL_DESERIALIZE_MOD then (nthAtom? 0 env).bind SExp.fromBytes
          else eval depth program env
        | _ => none
      else applyOperator op vs

end Clvm

end SectorChain
