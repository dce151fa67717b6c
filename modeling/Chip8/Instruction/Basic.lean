import Chip8.Opcode

/-!
The instructions of the machine. Operands are kept at the width of the word they are held in:
a register number is a byte, of which the register file reads the low four bits, and an address
is sixteen bits wide.
-/

namespace Chip8

inductive Condition where
  | byteIs (x byte : UInt8)
  | byteIsNot (x byte : UInt8)
  | same (x y : UInt8)
  | differ (x y : UInt8)
  | keyDown (x : UInt8)
  | keyUp (x : UInt8)
  deriving DecidableEq, Repr

inductive AluOp where
  | copy
  | or
  | and
  | xor
  | add
  /-- Leaves `VX - VY`. -/
  | subtract
  /-- Halves `VX`; `VY` is not read. -/
  | shiftRight
  /-- Leaves `VY - VX`. -/
  | subtractFrom
  /-- Doubles `VX`; `VY` is not read. -/
  | shiftLeft
  deriving DecidableEq, Repr

inductive Instruction where
  | clearScreen
  | ret
  | jump (target : UInt16)
  | call (target : UInt16)
  | skipIf (condition : Condition)
  | setByte (x byte : UInt8)
  | addByte (x byte : UInt8)
  | combine (op : AluOp) (x y : UInt8)
  | setIndex (address : UInt16)
  /-- Jumps to the address plus `V0`. -/
  | jumpOffset (address : UInt16)
  /-- Leaves a random byte, masked, in `VX`. -/
  | random (x mask : UInt8)
  /-- Draws the `height` bytes at `I` as a sprite at `(VX, VY)`. -/
  | draw (x y height : UInt8)
  | readDelay (x : UInt8)
  | awaitKey (x : UInt8)
  | setDelay (x : UInt8)
  | setSound (x : UInt8)
  | addToIndex (x : UInt8)
  /-- Points `I` at the glyph of the digit in `VX`. -/
  | pointAtGlyph (x : UInt8)
  /-- Stores the hundreds, tens and units of `VX` at `I`. -/
  | storeDecimal (x : UInt8)
  /-- Stores `V0` to the last register named at `I`. -/
  | storeRegisters (last : UInt8)
  | loadRegisters (last : UInt8)
  /-- An opcode without a meaning here, kept so that it can be reported. -/
  | unknown (opcode : Opcode)
  deriving DecidableEq, Repr

end Chip8
