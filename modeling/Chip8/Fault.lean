import Chip8.Hex

/-!
What can go wrong. A fault raised while an instruction runs stops the machine; a fault raised
for a host request leaves the machine as it was.
-/

namespace Chip8

inductive Fault where
  | memoryOutOfBounds (address : Nat)
  | programTooLarge (size maxSize : Nat)
  | stackOverflow (depth : Nat)
  | stackUnderflow
  | keyOutOfRange (key : UInt8)
  | halted
  deriving DecidableEq, Repr

/-- An address is written with at least four digits and a key with at least two. -/
def Fault.message : Fault → String
  | .memoryOutOfBounds address =>
      "memory access out of bounds at address " ++ Hex.marked 4 address
  | .programTooLarge size maxSize =>
      "program is too large (" ++ size.repr ++ " bytes), max size is " ++ maxSize.repr ++ " bytes"
  | .stackOverflow depth => "stack overflow: more than " ++ depth.repr ++ " nested calls"
  | .stackUnderflow => "stack underflow: return with an empty call stack"
  | .keyOutOfRange key => "key " ++ Hex.marked 2 key.toNat ++ " is outside the keypad"
  | .halted => "machine is halted"

end Chip8
