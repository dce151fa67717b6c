import Chip8.Instruction.Basic

/-!
The written form of an instruction: its name, followed by its operands in decimal if it has any.
A name and its operands determine the instruction.
-/

namespace Chip8

def Condition.name : Condition → String
  | .byteIs .. => "SkipEqualConstant"
  | .byteIsNot .. => "SkipNotEqualConstant"
  | .same .. => "SkipEqualRegister"
  | .differ .. => "SkipNotEqualRegister"
  | .keyDown .. => "SkipIfPressed"
  | .keyUp .. => "SkipIfNotPressed"

def Condition.operands : Condition → List Nat
  | .byteIs x byte => [x.toNat, byte.toNat]
  | .byteIsNot x byte => [x.toNat, byte.toNat]
  | .same x y => [x.toNat, y.toNat]
  | .differ x y => [x.toNat, y.toNat]
  | .keyDown x => [x.toNat]
  | .keyUp x => [x.toNat]

def AluOp.name : AluOp → String
  | .copy => "CopyRegister"
  | .or => "Or"
  | .and => "And"
  | .xor => "XOr"
  | .add => "Add"
  | .subtract => "SubtractForward"
  | .shiftRight => "RightShift"
  | .subtractFrom => "SubtractBackward"
  | .shiftLeft => "LeftShift"

namespace Instruction

def name : Instruction → String
  | .clearScreen => "ClearScreen"
  | .ret => "PopSubroutine"
  | .jump .. => "Jump"
  | .call .. => "PushSubroutine"
  | .skipIf condition => condition.name
  | .setByte .. => "SetRegister"
  | .addByte .. => "AddToRegister"
  | .combine op .. => op.name
  | .setIndex .. => "SetIndexRegister"
  | .jumpOffset .. => "JumpWithOffset"
  | .random .. => "Random"
  | .draw .. => "Display"
  | .readDelay .. => "CopyDelayToRegister"
  | .awaitKey .. => "GetKey"
  | .setDelay .. => "CopyRegisterToDelay"
  | .setSound .. => "CopyRegisterToSound"
  | .addToIndex .. => "AddToIndex"
  | .pointAtGlyph .. => "PointChar"
  | .storeDecimal .. => "ToDecimal"
  | .storeRegisters .. => "StoreRegisterToMemory"
  | .loadRegisters .. => "LoadRegisterFromMemory"
  | .unknown .. => "Unimplemented"

def operands : Instruction → List Nat
  | .clearScreen => []
  | .ret => []
  | .jump target => [target.toNat]
  | .call target => [target.toNat]
  | .skipIf condition => condition.operands
  | .setByte x byte => [x.toNat, byte.toNat]
  | .addByte x byte => [x.toNat, byte.toNat]
  | .combine _ x y => [x.toNat, y.toNat]
  | .setIndex address => [address.toNat]
  | .jumpOffset address => [address.toNat]
  | .random x mask => [x.toNat, mask.toNat]
  | .draw x y height => [x.toNat, y.toNat, height.toNat]
  | .readDelay x => [x.toNat]
  | .awaitKey x => [x.toNat]
  | .setDelay x => [x.toNat]
  | .setSound x => [x.toNat]
  | .addToIndex x => [x.toNat]
  | .pointAtGlyph x => [x.toNat]
  | .storeDecimal x => [x.toNat]
  | .storeRegisters last => [last.toNat]
  | .loadRegisters last => [last.toNat]
  | .unknown opcode => [opcode.toNat]

def text (instruction : Instruction) : String :=
  match instruction.operands with
  | [] => instruction.name
  | operands => instruction.name ++ "(" ++ ", ".intercalate (operands.map Nat.repr) ++ ")"

def ofName? (name : String) : Option Instruction :=
  match name with
  | "ClearScreen" => some .clearScreen
  | "PopSubroutine" => some .ret
  | _ => none

def ofWord? (name : String) (word : UInt16) : Option Instruction :=
  match name with
  | "Jump" => some (.jump word)
  | "PushSubroutine" => some (.call word)
  | "SetIndexRegister" => some (.setIndex word)
  | "JumpWithOffset" => some (.jumpOffset word)
  | "Unimplemented" => some (.unknown word)
  | _ => none

def ofRegister? (name : String) (x : UInt8) : Option Instruction :=
  match name with
  | "SkipIfPressed" => some (.skipIf (.keyDown x))
  | "SkipIfNotPressed" => some (.skipIf (.keyUp x))
  | "CopyDelayToRegister" => some (.readDelay x)
  | "GetKey" => some (.awaitKey x)
  | "CopyRegisterToDelay" => some (.setDelay x)
  | "CopyRegisterToSound" => some (.setSound x)
  | "AddToIndex" => some (.addToIndex x)
  | "PointChar" => some (.pointAtGlyph x)
  | "ToDecimal" => some (.storeDecimal x)
  | "StoreRegisterToMemory" => some (.storeRegisters x)
  | "LoadRegisterFromMemory" => some (.loadRegisters x)
  | _ => none

def ofPair? (name : String) (x second : UInt8) : Option Instruction :=
  match name with
  | "SkipEqualConstant" => some (.skipIf (.byteIs x second))
  | "SkipNotEqualConstant" => some (.skipIf (.byteIsNot x second))
  | "SkipEqualRegister" => some (.skipIf (.same x second))
  | "SkipNotEqualRegister" => some (.skipIf (.differ x second))
  | "SetRegister" => some (.setByte x second)
  | "AddToRegister" => some (.addByte x second)
  | "CopyRegister" => some (.combine .copy x second)
  | "Or" => some (.combine .or x second)
  | "And" => some (.combine .and x second)
  | "XOr" => some (.combine .xor x second)
  | "Add" => some (.combine .add x second)
  | "SubtractForward" => some (.combine .subtract x second)
  | "RightShift" => some (.combine .shiftRight x second)
  | "SubtractBackward" => some (.combine .subtractFrom x second)
  | "LeftShift" => some (.combine .shiftLeft x second)
  | "Random" => some (.random x second)
  | _ => none

def ofParts? (name : String) : List Nat → Option Instruction
  | [] => ofName? name
  | [operand] => ofWord? name operand.toUInt16 <|> ofRegister? name operand.toUInt8
  | [first, second] => ofPair? name first.toUInt8 second.toUInt8
  | [x, y, height] =>
      if name = "Display" then some (.draw x.toUInt8 y.toUInt8 height.toUInt8) else none
  | _ => none

theorem ofParts?_parts (instruction : Instruction) :
    ofParts? instruction.name instruction.operands = some instruction := by
  cases instruction with
  | skipIf condition =>
      cases condition <;>
        simp [name, operands, Condition.name, Condition.operands, ofParts?, ofWord?, ofRegister?,
          ofPair?]
  | combine op x y => cases op <;> simp [name, operands, AluOp.name, ofParts?, ofPair?]
  | _ => simp [name, operands, ofParts?, ofName?, ofWord?, ofRegister?, ofPair?]

end Instruction

end Chip8
