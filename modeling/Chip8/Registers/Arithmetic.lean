import Chip8.Instruction.Basic
import Chip8.Registers

/-!
What the arithmetic instructions compute and where they leave it. Any of the three registers
`VX`, `VY` and `VF` may be the same one: both operands are read before anything is written.
-/

namespace Chip8

def AluOp.value (x y : UInt8) : AluOp → UInt8
  | .copy => y
  | .or => x ||| y
  | .and => x &&& y
  | .xor => x ^^^ y
  | .add => x + y
  | .subtract => x - y
  | .shiftRight => x >>> 1
  | .subtractFrom => y - x
  | .shiftLeft => x <<< 1

/-- What an operation reports in `VF`: the carry of a sum, that a difference is positive, or the
bit shifted out. The others leave `VF` alone. -/
def AluOp.flag? (x y : UInt8) : AluOp → Option Bool
  | .copy => none
  | .or => none
  | .and => none
  | .xor => none
  | .add => some (256 ≤ x.toNat + y.toNat)
  | .subtract => some (y < x)
  | .shiftRight => some (x &&& 1 == 1)
  | .subtractFrom => some (x < y)
  | .shiftLeft => some (x &&& 0x80 != 0)

/-- The flag is written first, so that with `VF` as the target the value remains. -/
def Registers.combine (registers : Registers) (op : AluOp) (x y : UInt8) : Registers :=
  let left := registers.get x
  let right := registers.get y
  match op.flag? left right with
  | none => registers.set x (op.value left right)
  | some flag => (registers.setFlag flag).set x (op.value left right)

def decimalDigits (value : UInt8) : List UInt8 :=
  [value / 100, value / 10 % 10, value % 10]

end Chip8
