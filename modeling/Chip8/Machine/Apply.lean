import Chip8.Instruction.Basic
import Chip8.Machine.Outcome
import Chip8.Registers.Arithmetic

/-!
What each instruction does to the machine, whatever its mode. The program counter has moved past
the instruction already: a skip adds two to it, and a call saves it as it is. An instruction that
can fail makes its checks before its first write.
-/

namespace Chip8

def Condition.holds (machine : Machine) : Condition → Except Fault Bool
  | .byteIs x byte => .ok (machine.registers.get x == byte)
  | .byteIsNot x byte => .ok (machine.registers.get x != byte)
  | .same x y => .ok (machine.registers.get x == machine.registers.get y)
  | .differ x y => .ok (machine.registers.get x != machine.registers.get y)
  | .keyDown x => machine.keypad.isDown (machine.registers.get x)
  | .keyUp x => (machine.keypad.isDown (machine.registers.get x)).map not

namespace Machine

def setRegister (machine : Machine) (number value : UInt8) : Machine :=
  { machine with registers := machine.registers.set number value }

def skipWhen (machine : Machine) (taken : Bool) : Machine :=
  if taken then { machine with pc := machine.pc.next } else machine

def skipIf (machine : Machine) (condition : Condition) : Outcome Unit :=
  match condition.holds machine with
  | .ok taken => .done (machine.skipWhen taken) ()
  | .error fault => .failed machine fault

def enter (machine : Machine) (target : Address) : Outcome Unit :=
  match machine.stack.push machine.pc with
  | .ok stack => .done { machine with stack, pc := target } ()
  | .error fault => .failed machine fault

def leave (machine : Machine) : Outcome Unit :=
  match machine.stack.pop with
  | .ok popped => .done { machine with stack := popped.2, pc := popped.1 } ()
  | .error fault => .failed machine fault

/-- A random byte is taken even if the mask hides all of it. -/
def randomize (machine : Machine) (x mask : UInt8) : Machine :=
  let taken := machine.random.nextByte
  { machine with
    random := taken.2
    registers := machine.registers.set x (taken.1 &&& mask) }

/-- Draws the bytes at `I`. The place is read before the flag is written. -/
def drawAtIndex (machine : Machine) (x y height : UInt8) : Outcome Unit :=
  match machine.memory.slice machine.index height.toNat with
  | .error fault => .failed machine fault
  | .ok sprite =>
      let column := machine.registers.get x
      let row := machine.registers.get y
      let drawn := machine.screen.draw column row sprite
      (Outcome.done { machine with
        screen := drawn.2
        registers := machine.registers.setFlag drawn.1 } ()).report
          (.spriteDrawn column row sprite)

/-- Writes bytes from `I` on, after the whole range has been checked. -/
def storeAtIndex (machine : Machine) (bytes : List UInt8) : Outcome Unit :=
  match Memory.checkRange machine.index bytes.length with
  | .error fault => .failed machine fault
  | .ok () =>
      let stored := machine.memory.store machine.index bytes
      { result := stored.2, machine := { machine with memory := stored.1 }, events := [] }

def loadAtIndex (machine : Machine) (last : UInt8) : Outcome Unit :=
  match machine.memory.slice machine.index (last.toNat + 1) with
  | .ok values => .done { machine with registers := machine.registers.setFrom 0 values } ()
  | .error fault => .failed machine fault

def awaitKey (machine : Machine) (x : UInt8) : Outcome Unit :=
  (Outcome.done { machine with mode := .awaitingKey x 0 } ()).report (.waitStarted x)

/-- Counts an opcode without a meaning. The address reported is two below the program counter,
where the opcode is when it has been fetched. -/
def passOver (machine : Machine) (opcode : Opcode) : Outcome Unit :=
  (Outcome.done { machine with unknownCount := machine.unknownCount + 1 } ()).report
    (.unknownSkipped opcode (machine.pc - 2))

def apply (machine : Machine) : Instruction → Outcome Unit
  | .clearScreen => .done { machine with screen := machine.screen.clear } ()
  | .ret => machine.leave
  | .jump target => .done { machine with pc := target } ()
  | .call target => machine.enter target
  | .skipIf condition => machine.skipIf condition
  | .setByte x byte => .done (machine.setRegister x byte) ()
  | .addByte x byte => .done { machine with registers := machine.registers.add x byte } ()
  | .combine op x y => .done { machine with registers := machine.registers.combine op x y } ()
  | .setIndex address => .done { machine with index := address } ()
  | .jumpOffset address =>
      .done { machine with pc := address + (machine.registers.get 0).toUInt16 } ()
  | .random x mask => .done (machine.randomize x mask) ()
  | .draw x y height => machine.drawAtIndex x y height
  | .readDelay x => .done (machine.setRegister x machine.delay.count) ()
  | .awaitKey x => machine.awaitKey x
  | .setDelay x => .done { machine with delay := ⟨machine.registers.get x⟩ } ()
  | .setSound x => .done { machine with sound := ⟨machine.registers.get x⟩ } ()
  | .addToIndex x =>
      .done { machine with index := machine.index + (machine.registers.get x).toUInt16 } ()
  | .pointAtGlyph x =>
      .done { machine with
        index := (machine.registers.get x).toUInt16 * Memory.glyphHeight.toUInt16 } ()
  | .storeDecimal x => machine.storeAtIndex (decimalDigits (machine.registers.get x))
  | .storeRegisters last => machine.storeAtIndex (machine.registers.upTo last)
  | .loadRegisters last => machine.loadAtIndex last
  | .unknown opcode => machine.passOver opcode

end Machine

end Chip8
