import Chip8.Proofs.Machine.Targets
import Chip8.Proofs.Safety.Drawing
import Chip8.Proofs.Safety.Storage

/-!
Checked evaluation of the instructions. Two of them make a sum that can be too large: a jump with an
offset, unless its operand is an address of twelve bits, and the count of unknown opcodes, which no
machine lives to see full. All other sums and products have room for every operand, or are made of
addresses that have been checked.
-/

namespace Chip8

open Checked

/-- Only the two shifts have a hazard. -/
def AluOp.valueChecked (x y : UInt8) : AluOp → Checked UInt8
  | .shiftRight => do return (← Checked.shiftRight 8 x.toNat 1).toUInt8
  | .shiftLeft => do return (← Checked.shiftLeft 8 x.toNat 1).toUInt8
  | op => return op.value x y

def Registers.combineChecked (registers : Registers) (op : AluOp) (x y : UInt8) :
    Checked Registers := do
  let left ← registers.getChecked x
  let right ← registers.getChecked y
  let value ← op.valueChecked left right
  match op.flag? left right with
  | none => registers.setChecked x value
  | some flag =>
      let flagged ← registers.setFlagChecked flag
      flagged.setChecked x value

def Condition.holdsChecked (machine : Machine) : Condition → Checked (Except Fault Bool)
  | .byteIs x byte => do return .ok ((← machine.registers.getChecked x) == byte)
  | .byteIsNot x byte => do return .ok ((← machine.registers.getChecked x) != byte)
  | .same x y => do
      return .ok ((← machine.registers.getChecked x) == (← machine.registers.getChecked y))
  | .differ x y => do
      return .ok ((← machine.registers.getChecked x) != (← machine.registers.getChecked y))
  | .keyDown x => do machine.keypad.isDownChecked (← machine.registers.getChecked x)
  | .keyUp x => do
      return (← machine.keypad.isDownChecked (← machine.registers.getChecked x)).map not

namespace Machine

def skipIfChecked (machine : Machine) (condition : Condition) : Checked (Outcome Unit) := do
  match ← condition.holdsChecked machine with
  | .ok taken => return .done (machine.skipWhen taken) ()
  | .error fault => return .failed machine fault

def enterChecked (machine : Machine) (target : Address) : Checked (Outcome Unit) := do
  match ← machine.stack.pushChecked machine.pc with
  | .ok stack => return .done { machine with stack, pc := target } ()
  | .error fault => return .failed machine fault

def leaveChecked (machine : Machine) : Checked (Outcome Unit) := do
  match ← machine.stack.popChecked with
  | .ok popped => return .done { machine with stack := popped.2, pc := popped.1 } ()
  | .error fault => return .failed machine fault

def setRegisterChecked (machine : Machine) (number value : UInt8) : Checked Machine := do
  let registers ← machine.registers.setChecked number value
  return { machine with registers }

def randomizeChecked (machine : Machine) (x mask : UInt8) : Checked Machine := do
  let taken := machine.random.nextByte
  let registers ← machine.registers.setChecked x (taken.1 &&& mask)
  return { machine with random := taken.2, registers }

def drawAtIndexChecked (machine : Machine) (x y height : UInt8) : Checked (Outcome Unit) := do
  let column ← machine.registers.getChecked x
  let row ← machine.registers.getChecked y
  match ← machine.memory.sliceChecked machine.index height.toNat with
  | .error fault => return .failed machine fault
  | .ok sprite =>
      let drawn ← machine.screen.drawChecked column row sprite
      let registers ← machine.registers.setFlagChecked drawn.1
      return (Outcome.done { machine with screen := drawn.2, registers } ()).report
        (.spriteDrawn column row sprite)

def storeAtIndexChecked (machine : Machine) (bytes : List UInt8) : Checked (Outcome Unit) := do
  match ← Memory.rangeChecked machine.index bytes.length with
  | .error fault => return .failed machine fault
  | .ok () =>
      let stored ← machine.memory.storeChecked machine.index 0 bytes
      return { result := stored.2, machine := { machine with memory := stored.1 }, events := [] }

def loadAtIndexChecked (machine : Machine) (last : UInt8) : Checked (Outcome Unit) := do
  let count ← sum 64 last.toNat 1
  match ← machine.memory.sliceChecked machine.index count with
  | .ok values =>
      let registers ← machine.registers.setFromChecked 0 values
      return .done { machine with registers } ()
  | .error fault => return .failed machine fault

def passOverChecked (machine : Machine) (opcode : Opcode) : Checked (Outcome Unit) := do
  let count ← sum 64 machine.unknownCount.toNat 1
  return (Outcome.done { machine with unknownCount := count.toUInt64 } ()).report
    (.unknownSkipped opcode (machine.pc - 2))

def applyChecked (machine : Machine) : Instruction → Checked (Outcome Unit)
  | .clearScreen => return .done { machine with screen := machine.screen.clear } ()
  | .ret => machine.leaveChecked
  | .jump target => return .done { machine with pc := target } ()
  | .call target => machine.enterChecked target
  | .skipIf condition => machine.skipIfChecked condition
  | .setByte x byte => do return .done (← machine.setRegisterChecked x byte) ()
  | .addByte x byte => do
      let registers ← machine.registers.addChecked x byte
      return .done { machine with registers } ()
  | .combine op x y => do
      let registers ← machine.registers.combineChecked op x y
      return .done { machine with registers } ()
  | .setIndex address => return .done { machine with index := address } ()
  | .jumpOffset address => do
      let offset ← machine.registers.getChecked 0
      let target ← sum 16 address.toNat offset.toNat
      return .done { machine with pc := target.toUInt16 } ()
  | .random x mask => do return .done (← machine.randomizeChecked x mask) ()
  | .draw x y height => machine.drawAtIndexChecked x y height
  | .readDelay x => do return .done (← machine.setRegisterChecked x machine.delay.count) ()
  | .awaitKey x => return machine.awaitKey x
  | .setDelay x => do
      return .done { machine with delay := ⟨← machine.registers.getChecked x⟩ } ()
  | .setSound x => do
      return .done { machine with sound := ⟨← machine.registers.getChecked x⟩ } ()
  | .addToIndex x => do
      let offset ← machine.registers.getChecked x
      return .done { machine with index := machine.index + offset.toUInt16 } ()
  | .pointAtGlyph x => do
      let digit ← machine.registers.getChecked x
      let start ← product 16 digit.toNat Memory.glyphHeight
      return .done { machine with index := start.toUInt16 } ()
  | .storeDecimal x => do
      let value ← machine.registers.getChecked x
      machine.storeAtIndexChecked (decimalDigits value)
  | .storeRegisters last => do
      let values ← machine.registers.upToChecked last
      machine.storeAtIndexChecked values
  | .loadRegisters last => machine.loadAtIndexChecked last
  | .unknown opcode => machine.passOverChecked opcode

end Machine

def Instruction.OffsetFits (machine : Machine) : Instruction → Prop
  | .jumpOffset address => address.toNat + (machine.registers.get 0).toNat < 2 ^ 16
  | _ => True

section Operands

theorem AluOp.valueChecked_eq (op : AluOp) (x y : UInt8) :
    op.valueChecked x y = .ok (op.value x y) := by
  cases op with
  | shiftRight =>
      rw [valueChecked, shiftRight_of_lt _ (by decide), ok_bind, pure_eq_ok, value]
      congr 1
      apply UInt8.toNat_inj.mp
      simp [Nat.lt_of_le_of_lt (Nat.shiftRight_le x.toNat 1) x.toNat_lt]
  | shiftLeft =>
      rw [valueChecked, shiftLeft_of_lt _ (by decide), ok_bind, pure_eq_ok, value]
      congr 1
      apply UInt8.toNat_inj.mp
      simp
  | _ => rfl

theorem Registers.combineChecked_eq (registers : Registers) (op : AluOp) (x y : UInt8) :
    registers.combineChecked op x y = .ok (registers.combine op x y) := by
  rw [combineChecked, getChecked_eq, ok_bind, getChecked_eq, ok_bind, AluOp.valueChecked_eq,
    ok_bind]
  simp only [combine]
  cases op.flag? (registers.get x) (registers.get y) with
  | none => exact setChecked_eq registers x _
  | some flag =>
      simp only [setFlagChecked_eq, ok_bind]
      exact setChecked_eq _ x _

theorem Condition.holdsChecked_eq (machine : Machine) (condition : Condition) :
    condition.holdsChecked machine = .ok (condition.holds machine) := by
  cases condition <;>
    simp only [holdsChecked, holds, Registers.getChecked_eq, Keypad.isDownChecked_eq, ok_bind,
      pure_eq_ok]

end Operands

namespace Machine

variable (machine : Machine)

theorem skipIfChecked_eq (condition : Condition) :
    machine.skipIfChecked condition = .ok (machine.skipIf condition) := by
  rw [skipIfChecked, Condition.holdsChecked_eq, ok_bind, skipIf]
  cases condition.holds machine <;> rfl

theorem enterChecked_eq (target : Address) :
    machine.enterChecked target = .ok (machine.enter target) := by
  rw [enterChecked, CallStack.pushChecked_eq, ok_bind, enter]
  cases machine.stack.push machine.pc <;> rfl

theorem leaveChecked_eq : machine.leaveChecked = .ok machine.leave := by
  rw [leaveChecked, CallStack.popChecked_eq, ok_bind, leave]
  cases machine.stack.pop <;> rfl

theorem setRegisterChecked_eq (number value : UInt8) :
    machine.setRegisterChecked number value = .ok (machine.setRegister number value) :=
  return_of_safe (machine.registers.setChecked_eq number value) _

theorem randomizeChecked_eq (x mask : UInt8) :
    machine.randomizeChecked x mask = .ok (machine.randomize x mask) :=
  return_of_safe (machine.registers.setChecked_eq x _) _

theorem drawAtIndexChecked_eq (x y height : UInt8) :
    machine.drawAtIndexChecked x y height = .ok (machine.drawAtIndex x y height) := by
  have low := height.toNat_lt
  rw [drawAtIndexChecked, Registers.getChecked_eq, ok_bind, Registers.getChecked_eq, ok_bind,
    Memory.sliceChecked_eq _ _ (by omega), ok_bind, drawAtIndex]
  cases read : machine.memory.slice machine.index height.toNat with
  | error fault => rfl
  | ok sprite =>
      have length := Memory.length_le_of_slice read
      have short : sprite.length < 2 ^ 53 := by omega
      simp only [Screen.drawChecked_eq _ _ _ short, Registers.setFlagChecked_eq, ok_bind]
      rfl

theorem storeAtIndexChecked_eq {bytes : List UInt8} (short : bytes.length ≤ 2 ^ 53) :
    machine.storeAtIndexChecked bytes = .ok (machine.storeAtIndex bytes) := by
  rw [storeAtIndexChecked, Memory.rangeChecked_eq _ short, ok_bind, storeAtIndex]
  cases checked : Memory.checkRange machine.index bytes.length with
  | error fault => rfl
  | ok _ =>
      have fits := Memory.stop_le_of_checkRange machine.index checked
      have start : machine.index + (0 : Nat).toUInt16 = machine.index := by simp
      simp only [Memory.storeChecked_eq machine.memory machine.index bytes 0 fits, start, ok_bind]
      rfl

theorem loadAtIndexChecked_eq (last : UInt8) :
    machine.loadAtIndexChecked last = .ok (machine.loadAtIndex last) := by
  have bound := last.toNat_lt
  rw [loadAtIndexChecked, sum_of_lt (by omega), ok_bind, Memory.sliceChecked_eq _ _ (by omega),
    ok_bind, loadAtIndex]
  cases machine.memory.slice machine.index (last.toNat + 1) with
  | error fault => rfl
  | ok values =>
      simp only [Registers.setFromChecked_eq, ok_bind]
      rfl

theorem passOverChecked_eq (opcode : Opcode) (counted : machine.unknownCount.toNat < 2 ^ 64 - 1) :
    machine.passOverChecked opcode = .ok (machine.passOver opcode) := by
  have next : (machine.unknownCount.toNat + 1).toUInt64 = machine.unknownCount + 1 := by simp
  rw [passOverChecked, sum_of_lt (by omega), ok_bind, next]
  rfl

theorem applyChecked_eq {instruction : Instruction} (fits : instruction.OffsetFits machine)
    (counted : machine.unknownCount.toNat < 2 ^ 64 - 1) :
    machine.applyChecked instruction = .ok (machine.apply instruction) := by
  cases instruction with
  | ret => exact machine.leaveChecked_eq
  | call target => exact machine.enterChecked_eq target
  | skipIf condition => exact machine.skipIfChecked_eq condition
  | setByte x byte => exact return_of_safe (machine.setRegisterChecked_eq x byte) _
  | readDelay x => exact return_of_safe (machine.setRegisterChecked_eq x machine.delay.count) _
  | addByte x byte => exact return_of_safe (machine.registers.addChecked_eq x byte) _
  | combine op x y => exact return_of_safe (machine.registers.combineChecked_eq op x y) _
  | jumpOffset address =>
      have target : (address.toNat + (machine.registers.get 0).toNat).toUInt16 =
          address + (machine.registers.get 0).toUInt16 := by simp
      rw [applyChecked, Registers.getChecked_eq, ok_bind, sum_of_lt fits, ok_bind, target]
      rfl
  | random x mask => exact return_of_safe (machine.randomizeChecked_eq x mask) _
  | draw x y height => exact machine.drawAtIndexChecked_eq x y height
  | setDelay x => exact return_of_safe (machine.registers.getChecked_eq x) _
  | setSound x => exact return_of_safe (machine.registers.getChecked_eq x) _
  | addToIndex x => exact return_of_safe (machine.registers.getChecked_eq x) _
  | pointAtGlyph x =>
      have small := (machine.registers.get x).toNat_lt
      have fits : (machine.registers.get x).toNat * Memory.glyphHeight < 2 ^ 16 := by
        change (machine.registers.get x).toNat * 5 < 2 ^ 16
        omega
      have start : ((machine.registers.get x).toNat * Memory.glyphHeight).toUInt16 =
          (machine.registers.get x).toUInt16 * Memory.glyphHeight.toUInt16 := by simp
      rw [applyChecked, Registers.getChecked_eq, ok_bind, product_of_lt fits, ok_bind, start]
      rfl
  | storeDecimal x =>
      rw [applyChecked, Registers.getChecked_eq, ok_bind]
      exact machine.storeAtIndexChecked_eq (show 3 ≤ 2 ^ 53 by decide)
  | storeRegisters last =>
      have bound := last.toNat_lt
      have length := length_upTo machine.registers last
      rw [applyChecked, Registers.upToChecked_eq, ok_bind]
      exact machine.storeAtIndexChecked_eq (by omega)
  | loadRegisters last => exact machine.loadAtIndexChecked_eq last
  | unknown opcode => exact machine.passOverChecked_eq opcode counted
  | _ => rfl

end Machine

end Chip8
