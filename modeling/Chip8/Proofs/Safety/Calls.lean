import Chip8.Machine.Call
import Chip8.Proofs.Machine.Bounds
import Chip8.Proofs.Safety.Decoding
import Chip8.Proofs.Safety.Instructions

/-!
Checked evaluation of the calls. No call meets a hazard, whatever the machine and the arguments,
except for the two sums that can be too large and for programs and sprites beyond all measure. An
instruction that has been decoded never jumps too far.
-/

namespace Chip8

open Checked

def Timer.tickChecked (timer : Timer) : Checked Timer := do
  if timer.count = 0 then
    return timer
  let count ← difference timer.count.toNat 1
  return ⟨count.toUInt8⟩

namespace Machine

def powerOnChecked (config : Config) (random : WordSource) : Checked Machine := do
  let memory ← Memory.initialChecked
  return { powerOn config random with memory }

def performChecked (machine : Machine) (instruction : Instruction) : Checked (Outcome Unit) :=
  match machine.mode with
  | .halted => return .failed machine .halted
  | .awaitingKey register _ =>
      return (Outcome.done machine ()).report (.dropped instruction register)
  | .running => do
      let applied ← machine.applyChecked instruction
      match applied.result with
      | .ok () => return applied
      | .error fault =>
          let stopped := applied.machine.halt fault
          return { stopped with events := applied.events ++ stopped.events }

def executeChecked (machine : Machine) (opcode : Opcode) : Checked (Outcome Unit) := do
  machine.performChecked (← Instruction.decodeChecked opcode)

def fetchChecked (machine : Machine) : Checked (Outcome Instruction) := do
  match ← machine.memory.wordChecked machine.pc with
  | .ok opcode =>
      let instruction ← Instruction.decodeChecked opcode
      return .done { machine with pc := machine.pc.next } instruction
  | .error fault => return .failed machine fault

def lengthenedChecked (waited : UInt32) : Checked UInt32 := do
  if waited = 0xFFFFFFFF then
    return waited
  let passed ← sum 32 waited.toNat 1
  return passed.toUInt32

def waitOnChecked (machine : Machine) (register : UInt8) (waited : UInt32) :
    Checked (Outcome Unit) := do
  let passed ← lengthenedChecked waited
  let still := Outcome.done { machine with mode := .awaitingKey register passed } ()
  match machine.config.keyWaitTimeout with
  | none => return still
  | some limit =>
      if limit ≤ passed then
        return (Outcome.done { machine with mode := .running } ()).report
          (.waitExpired register passed)
      else return still

def stepChecked (machine : Machine) : Checked (Outcome Unit) :=
  match machine.mode with
  | .halted => return .failed machine .halted
  | .awaitingKey register waited => machine.waitOnChecked register waited
  | .running => do
      let fetched ← machine.fetchChecked
      match fetched.result with
      | .error fault => return fetched.machine.halt fault
      | .ok instruction =>
          let performed ← fetched.machine.performChecked instruction
          return { performed with events := .fetched machine.pc instruction :: performed.events }

def loadChecked (machine : Machine) (program : List UInt8) : Checked (Outcome Unit) := do
  match ← machine.memory.loadChecked program with
  | .ok (entry, memory) =>
      return (Outcome.done { machine with memory, pc := entry } ()).report
        (.programLoaded program.length entry)
  | .error fault => return .failed machine fault

def keyDownChecked (machine : Machine) (key : UInt8) : Checked (Outcome Unit) := do
  match ← machine.keypad.setDownChecked key true with
  | .error fault => return .failed machine fault
  | .ok keypad =>
      match machine.mode with
      | .awaitingKey register _ =>
          let registers ← machine.registers.setChecked register key
          return (Outcome.done { machine with keypad, registers, mode := .running } ()).report
            (.keyArrived key register)
      | _ => return .done { machine with keypad } ()

def keyUpChecked (machine : Machine) (key : UInt8) : Checked (Outcome Unit) := do
  match ← machine.keypad.setDownChecked key false with
  | .error fault => return .failed machine fault
  | .ok keypad => return .done { machine with keypad } ()

def onSymbolChecked (machine : Machine) (symbol : Char)
    (action : UInt8 → Checked (Outcome Unit)) : Checked (Outcome (Option UInt8)) :=
  match Keypad.keyOfSymbol? symbol with
  | none => return .done machine none
  | some key => do
      let acted ← action key
      return { acted with
        result := match acted.result with
          | .ok () => .ok (some key)
          | .error _ => .ok none }

def tickChecked (machine : Machine) : Checked (Outcome Bool) := do
  let delay ← machine.delay.tickChecked
  let sound ← machine.sound.tickChecked
  return .done { machine with delay, sound } sound.isActive

def drawSpriteChecked (machine : Machine) (x y : UInt8) (sprite : List UInt8) :
    Checked (Outcome Bool) := do
  let drawn ← machine.screen.drawChecked x y sprite
  return (Outcome.done { machine with screen := drawn.2 } drawn.1).report (.spriteDrawn x y sprite)

def callChecked (machine : Machine) : Call → Checked (Outcome Reply)
  | .load program => do return (← machine.loadChecked program).map fun () => .nothing
  | .step => do return (← machine.stepChecked).map fun () => .nothing
  | .execute opcode => do return (← machine.executeChecked opcode).map fun () => .nothing
  | .perform instruction => do
      return (← machine.performChecked instruction).map fun () => .nothing
  | .fetch => do return (← machine.fetchChecked).map .instruction
  | .keyDown key => do return (← machine.keyDownChecked key).map fun () => .nothing
  | .keyUp key => do return (← machine.keyUpChecked key).map fun () => .nothing
  | .press symbol => do
      return (← machine.onSymbolChecked symbol machine.keyDownChecked).map .key
  | .release symbol => do
      return (← machine.onSymbolChecked symbol machine.keyUpChecked).map .key
  | .cancelWait => return machine.cancelWait.map .truth
  | .tick => do return (← machine.tickChecked).map .truth
  | .reset => do return .done (← powerOnChecked machine.config machine.random) .nothing
  | .draw x y sprite => do return (← machine.drawSpriteChecked x y sprite).map .truth
  | .clearScreen => return .done { machine with screen := machine.screen.clear } .nothing
  | .takeDirty =>
      return .done { machine with screen := machine.screen.takeDirty.2 }
        (.truth machine.screen.takeDirty.1)

end Machine

/-- The arguments of a call are of a size that occurs, and an instruction that it names itself does
not jump too far. -/
def Call.Admissible (machine : Machine) : Call → Prop
  | .load program => program.length ≤ 2 ^ 53
  | .perform instruction => instruction.OffsetFits machine
  | .draw _ _ sprite => sprite.length < 2 ^ 53
  | _ => True

theorem Timer.tickChecked_eq (timer : Timer) : timer.tickChecked = .ok timer.tick := by
  rw [tickChecked, tick]
  split
  next => rfl
  next positive =>
    have nonzero : timer.count.toNat ≠ 0 := fun same => positive (UInt8.toNat_inj.mp same)
    have least : (1 : UInt8) ≤ timer.count := UInt8.le_iff_toNat_le.mpr (show 1 ≤ _ by omega)
    rw [difference_of_le (by omega), ok_bind, pure_eq_ok]
    congr 2
    apply UInt8.toNat_inj.mp
    have bound := timer.count.toNat_lt
    rw [UInt8.toNat_sub_of_le _ _ least]
    exact Nat.mod_eq_of_lt (by omega)

theorem Instruction.decode_offsetFits (machine : Machine) (opcode : Opcode) :
    (decode opcode).OffsetFits machine := by
  have small := (machine.registers.get 0).toNat_lt
  have short : ∀ target, (decode opcode).target? = some target → target.toNat < 4096 :=
    fun _ => decode_target_lt
  cases decoded : decode opcode with
  | jumpOffset address =>
      rw [decoded] at short
      have twelve := short address rfl
      change address.toNat + (machine.registers.get 0).toNat < 2 ^ 16
      omega
  | _ => trivial

namespace Machine

section Safe

variable {machine : Machine}

theorem powerOnChecked_eq (config : Config) (random : WordSource) :
    powerOnChecked config random = .ok (powerOn config random) :=
  return_of_safe Memory.initialChecked_eq _

theorem performChecked_eq {instruction : Instruction} (fits : instruction.OffsetFits machine)
    (counted : machine.unknownCount.toNat < 2 ^ 64 - 1) :
    machine.performChecked instruction = .ok (machine.perform instruction) := by
  rw [performChecked, perform]
  cases machine.mode with
  | running =>
      simp only [applyChecked_eq machine fits counted, ok_bind]
      cases (machine.apply instruction).result <;> rfl
  | _ => rfl

theorem executeChecked_eq (opcode : Opcode) (counted : machine.unknownCount.toNat < 2 ^ 64 - 1) :
    machine.executeChecked opcode = .ok (machine.execute opcode) := by
  rw [executeChecked, Instruction.decodeChecked_eq, ok_bind, execute]
  exact performChecked_eq (Instruction.decode_offsetFits machine opcode) counted

theorem fetchChecked_eq (machine : Machine) : machine.fetchChecked = .ok machine.fetch := by
  rw [fetchChecked, Memory.wordChecked_eq, ok_bind, fetch]
  cases machine.memory.word machine.pc with
  | error fault => rfl
  | ok opcode =>
      simp only [Instruction.decodeChecked_eq, ok_bind]
      rfl

theorem lengthenedChecked_eq (waited : UInt32) :
    lengthenedChecked waited = .ok (lengthened waited) := by
  rw [lengthenedChecked, lengthened]
  split
  next => rfl
  next short =>
    have bound := waited.toNat_lt
    have nonmaximal : waited.toNat ≠ 0xFFFFFFFF := fun same => short (UInt32.toNat_inj.mp same)
    rw [sum_of_lt (by omega), ok_bind]
    simp

theorem waitOnChecked_eq (machine : Machine) (register : UInt8) (waited : UInt32) :
    machine.waitOnChecked register waited = .ok (machine.waitOn register waited) := by
  rw [waitOnChecked, lengthenedChecked_eq, ok_bind, waitOn, ← lengthened]
  cases machine.config.keyWaitTimeout with
  | none => rfl
  | some limit =>
      simp only
      split <;> rfl

theorem stepChecked_eq (counted : machine.unknownCount.toNat < 2 ^ 64 - 1) :
    machine.stepChecked = .ok machine.step := by
  rw [stepChecked, step]
  cases machine.mode with
  | halted => rfl
  | awaitingKey register waited => exact waitOnChecked_eq machine register waited
  | running =>
      simp only [fetchChecked_eq, ok_bind]
      cases read : machine.memory.word machine.pc with
      | error fault =>
          rw [fetch_of_unreadable read]
          rfl
      | ok opcode =>
          have fits := Instruction.decode_offsetFits (machine.poised .step) opcode
          have performed := @performChecked_eq (machine.poised .step) _ fits counted
          simp only [fetch_of_word read, Outcome.done_result, Outcome.done_machine, performed,
            ok_bind]
          rfl

theorem loadChecked_eq {program : List UInt8} (short : program.length ≤ 2 ^ 53) :
    machine.loadChecked program = .ok (machine.load program) := by
  rw [loadChecked, Memory.loadChecked_eq _ short, ok_bind, load]
  cases machine.memory.load program <;> rfl

theorem keyDownChecked_eq (key : UInt8) :
    machine.keyDownChecked key = .ok (machine.keyDown key) := by
  rw [keyDownChecked, Keypad.setDownChecked_eq, ok_bind, keyDown]
  cases machine.keypad.setDown key true with
  | error fault => rfl
  | ok keypad =>
      cases machine.mode with
      | awaitingKey register waited =>
          simp only [Registers.setChecked_eq, ok_bind]
          rfl
      | _ => rfl

theorem keyUpChecked_eq (key : UInt8) : machine.keyUpChecked key = .ok (machine.keyUp key) := by
  rw [keyUpChecked, Keypad.setDownChecked_eq, ok_bind, keyUp]
  cases machine.keypad.setDown key false <;> rfl

theorem onSymbolChecked_eq (symbol : Char) {action : UInt8 → Checked (Outcome Unit)}
    {result : UInt8 → Outcome Unit} (safe : ∀ key, action key = .ok (result key)) :
    machine.onSymbolChecked symbol action = .ok (machine.onSymbol symbol result) := by
  rw [onSymbolChecked, onSymbol]
  cases Keypad.keyOfSymbol? symbol with
  | none => rfl
  | some key => exact return_of_safe (safe key) _

theorem tickChecked_eq (machine : Machine) : machine.tickChecked = .ok machine.tick := by
  rw [tickChecked, Timer.tickChecked_eq, ok_bind, Timer.tickChecked_eq]
  rfl

theorem drawSpriteChecked_eq (x y : UInt8) {sprite : List UInt8}
    (short : sprite.length < 2 ^ 53) :
    machine.drawSpriteChecked x y sprite = .ok (machine.drawSprite x y sprite) :=
  return_of_safe (machine.screen.drawChecked_eq x y short) _

theorem callChecked_eq {call : Call} (admissible : call.Admissible machine)
    (counted : machine.unknownCount.toNat < 2 ^ 64 - 1) :
    machine.callChecked call = .ok (machine.call call) := by
  cases call with
  | load program => exact return_of_safe (loadChecked_eq admissible) _
  | step => exact return_of_safe (stepChecked_eq counted) _
  | execute opcode => exact return_of_safe (executeChecked_eq opcode counted) _
  | perform instruction => exact return_of_safe (performChecked_eq admissible counted) _
  | fetch => exact return_of_safe machine.fetchChecked_eq _
  | keyDown key => exact return_of_safe (keyDownChecked_eq key) _
  | keyUp key => exact return_of_safe (keyUpChecked_eq key) _
  | press symbol => exact return_of_safe (onSymbolChecked_eq symbol keyDownChecked_eq) _
  | release symbol => exact return_of_safe (onSymbolChecked_eq symbol keyUpChecked_eq) _
  | tick => exact return_of_safe machine.tickChecked_eq _
  | reset => exact return_of_safe (powerOnChecked_eq machine.config machine.random) _
  | draw x y sprite => exact return_of_safe (drawSpriteChecked_eq x y admissible) _
  | _ => rfl

end Safe

section Hazards

variable {machine : Machine}

theorem far_jump_overflows {address : Address} (running : machine.mode = .running)
    (beyond : 2 ^ 16 ≤ address.toNat + (machine.registers.get 0).toNat) :
    machine.callChecked (.perform (.jumpOffset address)) = .error .overflow := by
  rw [callChecked, performChecked, running]
  simp only [applyChecked, Registers.getChecked_eq, ok_bind, sum_of_le beyond]
  rfl

theorem full_count_overflows (opcode : Opcode) (running : machine.mode = .running)
    (full : machine.unknownCount.toNat = 2 ^ 64 - 1) :
    machine.callChecked (.perform (.unknown opcode)) = .error .overflow := by
  have beyond : 2 ^ 64 ≤ machine.unknownCount.toNat + 1 := by omega
  rw [callChecked, performChecked, running]
  simp only [applyChecked, passOverChecked, sum_of_le beyond]
  rfl

end Hazards

/-- Checked evaluation answers what the operations answer, for a machine in any state. That it holds
at most sixteen return addresses is part of its type. The jumps that are left out do overflow. -/
theorem operations_meet_no_hazard (machine : Machine)
    (counted : machine.unknownCount.toNat < 2 ^ 64 - 1) :
    (∀ call : Call, call.Admissible machine →
      machine.callChecked call = .ok (machine.call call)) ∧
    (∀ address : Address, machine.mode = .running →
      2 ^ 16 ≤ address.toNat + (machine.registers.get 0).toNat →
      machine.callChecked (.perform (.jumpOffset address)) = .error .overflow) ∧
    (∀ opcode, Instruction.decodeChecked opcode = .ok (.decode opcode)) ∧
    (∀ address : Address,
      machine.memory.getChecked address = .ok (machine.memory.get address) ∧
      (∀ byte, machine.memory.setChecked address byte = .ok (machine.memory.set address byte)) ∧
      machine.memory.wordChecked address = .ok (machine.memory.word address) ∧
      ∀ count ≤ 2 ^ 53,
        Memory.rangeChecked address count = .ok (Memory.checkRange address count) ∧
        machine.memory.sliceChecked address count = .ok (machine.memory.slice address count)) ∧
    (∀ program : List UInt8, program.length ≤ 2 ^ 53 →
      machine.memory.loadChecked program = .ok (machine.memory.load program)) ∧
    (∀ address, machine.stack.pushChecked address = .ok (machine.stack.push address)) ∧
    machine.stack.popChecked = .ok machine.stack.pop ∧
    (∀ number value : UInt8,
      machine.registers.getChecked number = .ok (machine.registers.get number) ∧
      machine.registers.setChecked number value = .ok (machine.registers.set number value) ∧
      machine.registers.addChecked number value = .ok (machine.registers.add number value)) ∧
    (∀ x y (sprite : List UInt8), sprite.length < 2 ^ 53 →
      machine.screen.drawChecked x y sprite = .ok (machine.screen.draw x y sprite)) ∧
    (∀ column row, machine.screen.isLitChecked column row = .ok (machine.screen.isLit column row)) ∧
    (∀ key down, machine.keypad.isDownChecked key = .ok (machine.keypad.isDown key) ∧
      machine.keypad.setDownChecked key down = .ok (machine.keypad.setDown key down)) ∧
    machine.delay.tickChecked = .ok machine.delay.tick ∧
    ∀ config random, powerOnChecked config random = .ok (powerOn config random) := by
  refine ⟨?_, fun _ => far_jump_overflows, Instruction.decodeChecked_eq, ?_, ?_,
    machine.stack.pushChecked_eq, machine.stack.popChecked_eq, ?_, ?_,
    machine.screen.isLitChecked_eq, ?_, machine.delay.tickChecked_eq, powerOnChecked_eq⟩
  · exact fun call admissible => callChecked_eq admissible counted
  · intro address
    refine ⟨machine.memory.getChecked_eq address, machine.memory.setChecked_eq address,
      machine.memory.wordChecked_eq address, ?_⟩
    intro count short
    exact ⟨Memory.rangeChecked_eq address short, machine.memory.sliceChecked_eq address short⟩
  · exact fun program short => machine.memory.loadChecked_eq short
  · exact fun number value => ⟨machine.registers.getChecked_eq number,
      machine.registers.setChecked_eq number value, machine.registers.addChecked_eq number value⟩
  · exact fun x y sprite short => machine.screen.drawChecked_eq x y short
  · exact fun key down => ⟨machine.keypad.isDownChecked_eq key,
      machine.keypad.setDownChecked_eq key down⟩

/-- With `I` at the last address of all, the second digit has none: the range is refused before a
sum is made. -/
theorem store_at_the_last_address_is_a_fault :
    let machine := { powerOn {} (.cycle #[]) with index := 0xFFFF }
    let call : Call := .perform (.storeDecimal 0)
    machine.unknownCount.toNat < 2 ^ 64 - 1 ∧
      machine.callChecked call = .ok (machine.call call) ∧
      (machine.call call).result = .error (.memoryOutOfBounds 0x10001) := by
  intro machine call
  have counted : machine.unknownCount.toNat < 2 ^ 64 - 1 := by decide
  exact ⟨counted, (operations_meet_no_hazard machine counted).1 call trivial, rfl⟩

end Machine

end Chip8
