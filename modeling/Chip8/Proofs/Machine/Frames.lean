import Chip8.Machine.Call

/-!
What the operations on the machine leave alone. Every instruction and every call has a list of the
parts of the machine that it may write, and two states of the machine before and after it agree on
all others.
-/

namespace Chip8

namespace Keypad

theorem setDown_of_lt (keypad : Keypad) {key : UInt8} (down : Bool) (inside : key.toNat < 16) :
    ∃ changed, keypad.setDown key down = .ok changed := by
  unfold setDown locate
  rw [dif_pos inside]
  exact ⟨_, rfl⟩

theorem setDown_of_le (keypad : Keypad) {key : UInt8} (down : Bool) (outside : 16 ≤ key.toNat) :
    keypad.setDown key down = .error (.keyOutOfRange key) := by
  unfold setDown locate
  rw [dif_neg (Nat.not_lt.mpr outside)]
  rfl

end Keypad

def Call.pressed? : Call → Option UInt8
  | .keyDown key => some key
  | .press symbol => Keypad.keyOfSymbol? symbol
  | _ => none

inductive Part where
  | registers
  | pc
  | index
  | memory
  | stack
  | screen
  | keypad
  | delay
  | sound
  | mode
  | random
  | config
  | unknownCount
  deriving DecidableEq, Repr

def Part.all : List Part :=
  [.registers, .pc, .index, .memory, .stack, .screen, .keypad, .delay, .sound, .mode, .random,
    .config, .unknownCount]

theorem Part.mem_all (part : Part) : part ∈ all := by
  cases part <;> decide

/-- The parts that an instruction may write when it is carried out. -/
def Instruction.writes : Instruction → List Part
  | .clearScreen => [.screen]
  | .ret => [.stack, .pc]
  | .jump _ => [.pc]
  | .call _ => [.stack, .pc]
  | .skipIf _ => [.pc]
  | .setByte _ _ => [.registers]
  | .addByte _ _ => [.registers]
  | .combine _ _ _ => [.registers]
  | .setIndex _ => [.index]
  | .jumpOffset _ => [.pc]
  | .random _ _ => [.random, .registers]
  | .draw _ _ _ => [.screen, .registers]
  | .readDelay _ => [.registers]
  | .awaitKey _ => [.mode]
  | .setDelay _ => [.delay]
  | .setSound _ => [.sound]
  | .addToIndex _ => [.index]
  | .pointAtGlyph _ => [.index]
  | .storeDecimal _ => [.memory]
  | .storeRegisters _ => [.memory]
  | .loadRegisters _ => [.registers]
  | .unknown _ => [.unknownCount]

/-- Keys and the configuration are left to the host. -/
theorem Instruction.unwritten {part : Part} (hostOnly : part ∈ [.keypad, .config])
    (instruction : Instruction) : part ∉ instruction.writes := by
  simp only [List.mem_cons, List.not_mem_nil, or_false] at hostOnly
  rcases hostOnly with rfl | rfl <;> cases instruction <;> simp [writes]

/-- The parts that a call may write. One that carries an instruction out is not narrowed down
here, and neither is a reset. -/
def Call.writes : Call → List Part
  | .load _ => [.memory, .pc]
  | .fetch => [.pc]
  | .keyDown _ => [.keypad, .registers, .mode]
  | .keyUp _ => [.keypad]
  | .press _ => [.keypad, .registers, .mode]
  | .release _ => [.keypad]
  | .cancelWait => [.mode]
  | .tick => [.delay, .sound]
  | .draw _ _ _ => [.screen]
  | .clearScreen => [.screen]
  | .takeDirty => [.screen]
  | .step => Part.all
  | .execute _ => Part.all
  | .perform _ => Part.all
  | .reset => Part.all

namespace Machine

def Agree (before after : Machine) : Part → Prop
  | .registers => after.registers = before.registers
  | .pc => after.pc = before.pc
  | .index => after.index = before.index
  | .memory => after.memory = before.memory
  | .stack => after.stack = before.stack
  | .screen => after.screen = before.screen
  | .keypad => after.keypad = before.keypad
  | .delay => after.delay = before.delay
  | .sound => after.sound = before.sound
  | .mode => after.mode = before.mode
  | .random => after.random = before.random
  | .config => after.config = before.config
  | .unknownCount => after.unknownCount = before.unknownCount

section Instructions

variable (machine : Machine)

theorem skipIf_frame (condition : Condition) :
    ∃ pc, (machine.skipIf condition).machine = { machine with pc } := by
  unfold skipIf
  split
  next taken _ =>
    refine ⟨if taken then machine.pc.next else machine.pc, ?_⟩
    cases taken <;> rfl
  next => exact ⟨machine.pc, rfl⟩

theorem enter_frame (target : Address) :
    ∃ stack pc, (machine.enter target).machine = { machine with stack, pc } := by
  unfold enter
  split
  next stack _ => exact ⟨stack, target, rfl⟩
  next => exact ⟨machine.stack, machine.pc, rfl⟩

theorem leave_frame : ∃ stack pc, machine.leave.machine = { machine with stack, pc } := by
  unfold leave
  split
  next popped _ => exact ⟨popped.2, popped.1, rfl⟩
  next => exact ⟨machine.stack, machine.pc, rfl⟩

theorem drawAtIndex_frame (x y height : UInt8) :
    ∃ screen registers,
      (machine.drawAtIndex x y height).machine = { machine with screen, registers } := by
  unfold drawAtIndex
  split
  next => exact ⟨machine.screen, machine.registers, rfl⟩
  next => exact ⟨_, _, rfl⟩

theorem storeAtIndex_frame (bytes : List UInt8) :
    ∃ memory, (machine.storeAtIndex bytes).machine = { machine with memory } := by
  unfold storeAtIndex
  split
  next => exact ⟨machine.memory, rfl⟩
  next => exact ⟨_, rfl⟩

theorem loadAtIndex_frame (last : UInt8) :
    ∃ registers, (machine.loadAtIndex last).machine = { machine with registers } := by
  unfold loadAtIndex
  split
  next => exact ⟨_, rfl⟩
  next => exact ⟨machine.registers, rfl⟩

theorem apply_agree {instruction : Instruction} {part : Part}
    (unwritten : part ∉ instruction.writes) :
    machine.Agree (machine.apply instruction).machine part := by
  revert unwritten
  cases instruction with
  | ret =>
      obtain ⟨_, _, left⟩ := leave_frame machine
      rw [apply, left]
      cases part <;> simp [Instruction.writes, Agree]
  | call target =>
      obtain ⟨_, _, left⟩ := enter_frame machine target
      rw [apply, left]
      cases part <;> simp [Instruction.writes, Agree]
  | skipIf condition =>
      obtain ⟨_, left⟩ := skipIf_frame machine condition
      rw [apply, left]
      cases part <;> simp [Instruction.writes, Agree]
  | draw x y height =>
      obtain ⟨_, _, left⟩ := drawAtIndex_frame machine x y height
      rw [apply, left]
      cases part <;> simp [Instruction.writes, Agree]
  | storeDecimal x =>
      obtain ⟨_, left⟩ := storeAtIndex_frame machine (decimalDigits (machine.registers.get x))
      rw [apply, left]
      cases part <;> simp [Instruction.writes, Agree]
  | storeRegisters last =>
      obtain ⟨_, left⟩ := storeAtIndex_frame machine (machine.registers.upTo last)
      rw [apply, left]
      cases part <;> simp [Instruction.writes, Agree]
  | loadRegisters last =>
      obtain ⟨_, left⟩ := loadAtIndex_frame machine last
      rw [apply, left]
      cases part <;> simp [Instruction.writes, Agree]
  | _ =>
      cases part <;>
        simp [Instruction.writes, Agree, apply, setRegister, randomize, awaitKey, passOver]

theorem apply_mode (instruction : Instruction) :
    (machine.apply instruction).machine.mode = machine.mode ∨
      ∃ register, instruction = .awaitKey register ∧
        (machine.apply instruction).machine.mode = .awaitingKey register 0 := by
  by_cases unwritten : .mode ∈ instruction.writes
  · cases instruction with
    | awaitKey register => exact .inr ⟨register, rfl, rfl⟩
    | _ => simp [Instruction.writes] at unwritten
  · exact .inl (apply_agree machine unwritten)

end Instructions

section Host

variable (machine : Machine)

theorem load_frame (program : List UInt8) :
    ∃ memory pc, (machine.load program).machine = { machine with memory, pc } := by
  unfold load
  split
  next entry memory _ => exact ⟨memory, entry, rfl⟩
  next => exact ⟨machine.memory, machine.pc, rfl⟩

theorem fetch_frame : ∃ pc, machine.fetch.machine = { machine with pc } := by
  unfold fetch
  split
  next => exact ⟨machine.pc.next, rfl⟩
  next => exact ⟨machine.pc, rfl⟩

theorem keyUp_frame (key : UInt8) :
    ∃ keypad, (machine.keyUp key).machine = { machine with keypad } := by
  unfold keyUp
  split
  next => exact ⟨machine.keypad, rfl⟩
  next keypad _ => exact ⟨keypad, rfl⟩

theorem release_frame (symbol : Char) :
    ∃ keypad, (machine.release symbol).machine = { machine with keypad } := by
  unfold release onSymbol
  split
  next => exact ⟨machine.keypad, rfl⟩
  next key _ => exact keyUp_frame machine key

theorem keyDown_frame (key : UInt8) :
    ∃ keypad registers mode,
      (machine.keyDown key).machine = { machine with keypad, registers, mode } := by
  unfold keyDown
  split
  next => exact ⟨machine.keypad, machine.registers, machine.mode, rfl⟩
  next keypad _ =>
    split
    next => exact ⟨keypad, _, .running, rfl⟩
    next => exact ⟨keypad, machine.registers, machine.mode, rfl⟩

theorem press_frame (symbol : Char) :
    ∃ keypad registers mode,
      (machine.press symbol).machine = { machine with keypad, registers, mode } := by
  unfold press onSymbol
  split
  next => exact ⟨machine.keypad, machine.registers, machine.mode, rfl⟩
  next key _ => exact keyDown_frame machine key

theorem cancelWait_frame : ∃ mode, machine.cancelWait.machine = { machine with mode } := by
  unfold cancelWait
  split
  next => exact ⟨.running, rfl⟩
  next => exact ⟨machine.mode, rfl⟩

theorem call_agree {call : Call} {part : Part} (unwritten : part ∉ call.writes) :
    machine.Agree (machine.call call).machine part := by
  revert unwritten
  cases call with
  | load program =>
      obtain ⟨_, _, left⟩ := load_frame machine program
      rw [Machine.call, Outcome.map_machine, left]
      cases part <;> simp [Call.writes, Agree]
  | fetch =>
      obtain ⟨_, left⟩ := fetch_frame machine
      rw [Machine.call, Outcome.map_machine, left]
      cases part <;> simp [Call.writes, Agree]
  | keyDown key =>
      obtain ⟨_, _, _, left⟩ := keyDown_frame machine key
      rw [Machine.call, Outcome.map_machine, left]
      cases part <;> simp [Call.writes, Agree]
  | keyUp key =>
      obtain ⟨_, left⟩ := keyUp_frame machine key
      rw [Machine.call, Outcome.map_machine, left]
      cases part <;> simp [Call.writes, Agree]
  | press symbol =>
      obtain ⟨_, _, _, left⟩ := press_frame machine symbol
      rw [Machine.call, Outcome.map_machine, left]
      cases part <;> simp [Call.writes, Agree]
  | release symbol =>
      obtain ⟨_, left⟩ := release_frame machine symbol
      rw [Machine.call, Outcome.map_machine, left]
      cases part <;> simp [Call.writes, Agree]
  | cancelWait =>
      obtain ⟨_, left⟩ := cancelWait_frame machine
      rw [Machine.call, Outcome.map_machine, left]
      cases part <;> simp [Call.writes, Agree]
  | tick => cases part <;> simp [Call.writes, Agree, Machine.call, tick]
  | draw x y sprite => cases part <;> simp [Call.writes, Agree, Machine.call, drawSprite]
  | clearScreen => cases part <;> simp [Call.writes, Agree, Machine.call]
  | takeDirty => cases part <;> simp [Call.writes, Agree, Machine.call]
  | _ => exact fun unwritten => absurd part.mem_all unwritten

end Host

section Keys

variable {machine : Machine}

theorem call_machine_of_pressed {call : Call} {key : UInt8} (pressed : call.pressed? = some key) :
    (machine.call call).machine = (machine.keyDown key).machine := by
  cases call with
  | keyDown named =>
      cases pressed
      rfl
  | press symbol =>
      have found : Keypad.keyOfSymbol? symbol = some key := pressed
      rw [call, Outcome.map_machine, press, onSymbol, found]
  | _ => cases pressed

theorem keyDown_of_outside {key : UInt8} (outside : 16 ≤ key.toNat) :
    machine.keyDown key = .failed machine (.keyOutOfRange key) := by
  rw [keyDown, Keypad.setDown_of_le _ _ outside]

theorem keyUp_of_outside {key : UInt8} (outside : 16 ≤ key.toNat) :
    machine.keyUp key = .failed machine (.keyOutOfRange key) := by
  rw [keyUp, Keypad.setDown_of_le _ _ outside]

theorem keyDown_of_awaiting {key register : UInt8} {waited : UInt32} (inside : key.toNat < 16)
    (awaiting : machine.mode = .awaitingKey register waited) :
    ∃ keypad, machine.keypad.setDown key true = .ok keypad ∧
      (machine.keyDown key).machine = { machine with
        keypad
        registers := machine.registers.set register key
        mode := .running } := by
  obtain ⟨keypad, accepted⟩ := Keypad.setDown_of_lt machine.keypad true inside
  refine ⟨keypad, accepted, ?_⟩
  rw [keyDown, accepted]
  simp only [awaiting]
  rfl

theorem keyDown_mode_of_not_awaiting (key : UInt8)
    (free : ∀ register waited, machine.mode ≠ .awaitingKey register waited) :
    (machine.keyDown key).machine.mode = machine.mode := by
  unfold keyDown
  split
  next => rfl
  next =>
    split
    next register waited awaiting => exact absurd awaiting (free register waited)
    next => rfl

theorem press_of_unmapped {symbol : Char} (unmapped : Keypad.keyOfSymbol? symbol = none) :
    machine.press symbol = .done machine none := by
  rw [press, onSymbol, unmapped]

theorem release_of_unmapped {symbol : Char} (unmapped : Keypad.keyOfSymbol? symbol = none) :
    machine.release symbol = .done machine none := by
  rw [release, onSymbol, unmapped]

end Keys

end Machine

end Chip8
