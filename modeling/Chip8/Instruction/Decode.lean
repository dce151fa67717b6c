import Chip8.Instruction.Basic

/-!
From opcodes to instructions and back. Every opcode decodes. Comparing two registers ignores
the last digit of the opcode, and encoding writes a zero there; all other instructions have
exactly one opcode.
-/

namespace Chip8

def AluOp.ofNibble? (nibble : UInt8) : Option AluOp :=
  match nibble.toNat with
  | 0x0 => some .copy
  | 0x1 => some .or
  | 0x2 => some .and
  | 0x3 => some .xor
  | 0x4 => some .add
  | 0x5 => some .subtract
  | 0x6 => some .shiftRight
  | 0x7 => some .subtractFrom
  | 0xE => some .shiftLeft
  | _ => none

def AluOp.nibble : AluOp → UInt8
  | .copy => 0x0
  | .or => 0x1
  | .and => 0x2
  | .xor => 0x3
  | .add => 0x4
  | .subtract => 0x5
  | .shiftRight => 0x6
  | .subtractFrom => 0x7
  | .shiftLeft => 0xE

theorem AluOp.ofNibble?_nibble (op : AluOp) : ofNibble? op.nibble = some op := by
  cases op <;> rfl

namespace Instruction

/-- Family 0 has two instructions; calls into native code are not among them. -/
def decodeSystem (opcode : Opcode) : Instruction :=
  match opcode.toNat with
  | 0x00E0 => .clearScreen
  | 0x00EE => .ret
  | _ => .unknown opcode

def decodeArithmetic (opcode : Opcode) : Instruction :=
  match AluOp.ofNibble? opcode.nibble with
  | some op => .combine op opcode.x opcode.y
  | none => .unknown opcode

def decodeKey (opcode : Opcode) : Instruction :=
  match opcode.byte.toNat with
  | 0x9E => .skipIf (.keyDown opcode.x)
  | 0xA1 => .skipIf (.keyUp opcode.x)
  | _ => .unknown opcode

def decodeDevice (opcode : Opcode) : Instruction :=
  match opcode.byte.toNat with
  | 0x07 => .readDelay opcode.x
  | 0x0A => .awaitKey opcode.x
  | 0x15 => .setDelay opcode.x
  | 0x18 => .setSound opcode.x
  | 0x1E => .addToIndex opcode.x
  | 0x29 => .pointAtGlyph opcode.x
  | 0x33 => .storeDecimal opcode.x
  | 0x55 => .storeRegisters opcode.x
  | 0x65 => .loadRegisters opcode.x
  | _ => .unknown opcode

/-- A family is a single digit, so the sixteen cases before the last are all there are. -/
def decode (opcode : Opcode) : Instruction :=
  match opcode.family.toNat with
  | 0x0 => decodeSystem opcode
  | 0x1 => .jump opcode.address
  | 0x2 => .call opcode.address
  | 0x3 => .skipIf (.byteIs opcode.x opcode.byte)
  | 0x4 => .skipIf (.byteIsNot opcode.x opcode.byte)
  | 0x5 => .skipIf (.same opcode.x opcode.y)
  | 0x6 => .setByte opcode.x opcode.byte
  | 0x7 => .addByte opcode.x opcode.byte
  | 0x8 => decodeArithmetic opcode
  | 0x9 => .skipIf (.differ opcode.x opcode.y)
  | 0xA => .setIndex opcode.address
  | 0xB => .jumpOffset opcode.address
  | 0xC => .random opcode.x opcode.byte
  | 0xD => .draw opcode.x opcode.y opcode.nibble
  | 0xE => decodeKey opcode
  | 0xF => decodeDevice opcode
  | _ => .unknown opcode

end Instruction

def Condition.encode : Condition → Opcode
  | .byteIs x byte => .ofByte 0x3 x byte
  | .byteIsNot x byte => .ofByte 0x4 x byte
  | .same x y => .ofNibbles 0x5 x y 0
  | .differ x y => .ofNibbles 0x9 x y 0
  | .keyDown x => .ofByte 0xE x 0x9E
  | .keyUp x => .ofByte 0xE x 0xA1

/-- The opcode of an instruction whose operands fit their fields. -/
def Instruction.encode : Instruction → Opcode
  | .clearScreen => 0x00E0
  | .ret => 0x00EE
  | .jump target => .ofAddress 0x1 target
  | .call target => .ofAddress 0x2 target
  | .skipIf condition => condition.encode
  | .setByte x byte => .ofByte 0x6 x byte
  | .addByte x byte => .ofByte 0x7 x byte
  | .combine op x y => .ofNibbles 0x8 x y op.nibble
  | .setIndex address => .ofAddress 0xA address
  | .jumpOffset address => .ofAddress 0xB address
  | .random x mask => .ofByte 0xC x mask
  | .draw x y height => .ofNibbles 0xD x y height
  | .readDelay x => .ofByte 0xF x 0x07
  | .awaitKey x => .ofByte 0xF x 0x0A
  | .setDelay x => .ofByte 0xF x 0x15
  | .setSound x => .ofByte 0xF x 0x18
  | .addToIndex x => .ofByte 0xF x 0x1E
  | .pointAtGlyph x => .ofByte 0xF x 0x29
  | .storeDecimal x => .ofByte 0xF x 0x33
  | .storeRegisters last => .ofByte 0xF last 0x55
  | .loadRegisters last => .ofByte 0xF last 0x65
  | .unknown opcode => opcode

end Chip8
