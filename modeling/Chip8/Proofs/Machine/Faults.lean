import Chip8.Machine.Apply
import Chip8.Proofs.Memory.Access

/-!
The faults that instructions meet. Whether there is one, and which, is settled by the machine as
the instruction finds it: with a fault nothing is written, and without one everything is. The
loops that write to memory add no fault of their own, since their range is checked beforehand.
-/

namespace Chip8

namespace Keypad

theorem locate_of_lt {key : UInt8} (inside : key.toNat < 16) :
    locate key = .ok ⟨key.toNat, inside⟩ := by
  simp [locate, inside]

theorem locate_of_le {key : UInt8} (outside : 16 ≤ key.toNat) :
    locate key = .error (.keyOutOfRange key) := by
  simp [locate, Nat.not_lt.mpr outside]

end Keypad

namespace CallStack

theorem push_of_room {stack : CallStack} (address : Address) (room : stack.depth < 16) :
    ∃ pushed, stack.push address = .ok pushed := by
  unfold push
  rw [dif_pos room]
  exact ⟨_, rfl⟩

theorem push_of_full {stack : CallStack} (address : Address) (full : ¬ stack.depth < 16) :
    stack.push address = .error (.stackOverflow 16) := by
  unfold push
  rw [dif_neg full]

theorem pop_of_nonempty {stack : CallStack} (nonempty : 0 < stack.depth) :
    ∃ popped, stack.pop = .ok popped := by
  unfold pop
  rw [dif_pos nonempty]
  exact ⟨_, rfl⟩

theorem pop_of_empty {stack : CallStack} (empty : ¬ 0 < stack.depth) :
    stack.pop = .error .stackUnderflow := by
  unfold pop
  rw [dif_neg empty]

end CallStack

namespace Machine

/-- The fault of an access to `count` bytes at `I`. An empty range counts as its first byte. -/
def rangeFault? (machine : Machine) (count : Nat) : Option Fault :=
  let last := machine.index.toNat + (count - 1)
  if last < 4096 then none else some (.memoryOutOfBounds last)

def keyFault? (machine : Machine) (x : UInt8) : Option Fault :=
  let key := machine.registers.get x
  if key.toNat < 16 then none else some (.keyOutOfRange key)

def fault? (machine : Machine) : Instruction → Option Fault
  | .ret => if 0 < machine.stack.depth then none else some .stackUnderflow
  | .call _ => if machine.stack.depth < 16 then none else some (.stackOverflow 16)
  | .skipIf (.keyDown x) => machine.keyFault? x
  | .skipIf (.keyUp x) => machine.keyFault? x
  | .draw _ _ height => machine.rangeFault? height.toNat
  | .storeDecimal _ => machine.rangeFault? 3
  | .storeRegisters last => machine.rangeFault? (last.toNat + 1)
  | .loadRegisters last => machine.rangeFault? (last.toNat + 1)
  | _ => none

section Ranges

variable {machine : Machine} {count : Nat} {fault : Fault}

theorem checkRange_of_rangeFault (found : machine.rangeFault? count = some fault) :
    Memory.checkRange machine.index count = .error fault := by
  simp only [rangeFault?] at found
  split at found
  next => cases found
  next outside =>
    cases found
    exact Memory.checkRange_of_outside (Nat.not_lt.mp outside)

theorem inside_of_no_rangeFault (clear : machine.rangeFault? count = none) :
    machine.index.toNat + (count - 1) < 4096 := by
  simp only [rangeFault?] at clear
  split at clear
  next inside => exact inside
  next => cases clear

theorem checkRange_of_no_rangeFault (clear : machine.rangeFault? count = none) :
    Memory.checkRange machine.index count = .ok () :=
  Memory.checkRange_of_inside (inside_of_no_rangeFault clear)

theorem slice_of_rangeFault (found : machine.rangeFault? count = some fault) :
    machine.memory.slice machine.index count = .error fault := by
  rw [Memory.slice, checkRange_of_rangeFault found]
  rfl

theorem slice_of_no_rangeFault (clear : machine.rangeFault? count = none) :
    ∃ bytes, machine.memory.slice machine.index count = .ok bytes := by
  rw [Memory.slice, checkRange_of_no_rangeFault clear]
  exact ⟨_, rfl⟩

theorem isDown_of_keyFault {x : UInt8} (found : machine.keyFault? x = some fault) :
    machine.keypad.isDown (machine.registers.get x) = .error fault := by
  simp only [keyFault?] at found
  split at found
  next => cases found
  next outside =>
    cases found
    rw [Keypad.isDown, Keypad.locate_of_le (Nat.not_lt.mp outside)]
    rfl

theorem isDown_of_no_keyFault {x : UInt8} (clear : machine.keyFault? x = none) :
    ∃ down, machine.keypad.isDown (machine.registers.get x) = .ok down := by
  simp only [keyFault?] at clear
  split at clear
  next inside =>
    rw [Keypad.isDown, Keypad.locate_of_lt inside]
    exact ⟨_, rfl⟩
  next => cases clear

end Ranges

/-- A store of at least one byte. An empty one would be judged by its start. -/
theorem storeAtIndex_of_no_rangeFault {machine : Machine} {bytes : List UInt8} {last : Nat}
    (size : bytes.length = last + 1) (clear : machine.rangeFault? (last + 1) = none) :
    machine.storeAtIndex bytes = .done { machine with
      memory := ⟨Memory.overlay machine.memory.bytes machine.index.toNat bytes⟩ } () := by
  have inside := inside_of_no_rangeFault clear
  have fits : machine.index.toNat + bytes.length ≤ 4096 := by omega
  rw [storeAtIndex, size, checkRange_of_no_rangeFault clear, Memory.store_of_fits _ _ _ fits]
  rfl

theorem storeAtIndex_of_rangeFault {machine : Machine} {bytes : List UInt8} {fault : Fault}
    (found : machine.rangeFault? bytes.length = some fault) :
    machine.storeAtIndex bytes = .failed machine fault := by
  rw [storeAtIndex, checkRange_of_rangeFault found]

theorem length_decimalDigits (value : UInt8) : (decimalDigits value).length = 3 := rfl

theorem length_upTo (registers : Registers) (last : UInt8) :
    (registers.upTo last).length = last.toNat + 1 := by
  simp [Registers.upTo]

theorem apply_of_fault {machine : Machine} {instruction : Instruction} {fault : Fault}
    (found : machine.fault? instruction = some fault) :
    machine.apply instruction = .failed machine fault := by
  cases instruction with
  | ret =>
      simp only [fault?] at found
      split at found
      next => cases found
      next empty =>
        cases found
        rw [apply, leave, CallStack.pop_of_empty empty]
  | call target =>
      simp only [fault?] at found
      split at found
      next => cases found
      next full =>
        cases found
        rw [apply, enter, CallStack.push_of_full _ full]
  | skipIf condition =>
      cases condition with
      | keyDown x =>
          have refused := isDown_of_keyFault found
          rw [apply, skipIf, Condition.holds, refused]
      | keyUp x =>
          have refused := isDown_of_keyFault found
          rw [apply, skipIf, Condition.holds, refused]
          rfl
      | _ => cases found
  | draw x y height =>
      rw [apply, drawAtIndex, slice_of_rangeFault found]
  | storeDecimal x => exact storeAtIndex_of_rangeFault found
  | storeRegisters last =>
      apply storeAtIndex_of_rangeFault
      rw [length_upTo]
      exact found
  | loadRegisters last =>
      rw [apply, loadAtIndex, slice_of_rangeFault found]
  | _ => cases found

theorem apply_of_no_fault {machine : Machine} {instruction : Instruction}
    (clear : machine.fault? instruction = none) :
    (machine.apply instruction).result = .ok () := by
  cases instruction with
  | ret =>
      have nonempty : 0 < machine.stack.depth := by
        simp only [fault?] at clear
        split at clear
        next nonempty => exact nonempty
        next => cases clear
      obtain ⟨popped, accepted⟩ := CallStack.pop_of_nonempty nonempty
      rw [apply, leave, accepted]
      rfl
  | call target =>
      have room : machine.stack.depth < 16 := by
        simp only [fault?] at clear
        split at clear
        next room => exact room
        next => cases clear
      obtain ⟨pushed, accepted⟩ := CallStack.push_of_room machine.pc room
      rw [apply, enter, accepted]
      rfl
  | skipIf condition =>
      cases condition with
      | keyDown x =>
          obtain ⟨down, read⟩ := isDown_of_no_keyFault clear
          rw [apply, skipIf, Condition.holds, read]
          rfl
      | keyUp x =>
          obtain ⟨down, read⟩ := isDown_of_no_keyFault clear
          rw [apply, skipIf, Condition.holds, read]
          rfl
      | _ => rfl
  | draw x y height =>
      obtain ⟨sprite, read⟩ := slice_of_no_rangeFault clear
      rw [apply, drawAtIndex, read]
      rfl
  | storeDecimal x =>
      rw [apply, storeAtIndex_of_no_rangeFault (length_decimalDigits _) clear]
      rfl
  | storeRegisters last =>
      rw [apply, storeAtIndex_of_no_rangeFault (length_upTo _ _) clear]
      rfl
  | loadRegisters last =>
      obtain ⟨values, read⟩ := slice_of_no_rangeFault clear
      rw [apply, loadAtIndex, read]
      rfl
  | _ => rfl

theorem rangeFault?_ne_halted (machine : Machine) (count : Nat) :
    machine.rangeFault? count ≠ some .halted := by
  simp only [rangeFault?]
  split <;> simp

theorem keyFault?_ne_halted (machine : Machine) (x : UInt8) :
    machine.keyFault? x ≠ some .halted := by
  simp only [keyFault?]
  split <;> simp

/-- Only a machine that has stopped answers that it is halted. -/
theorem fault?_ne_halted (machine : Machine) (instruction : Instruction) :
    machine.fault? instruction ≠ some .halted := by
  cases instruction with
  | ret =>
      simp only [fault?]
      split <;> simp
  | call target =>
      simp only [fault?]
      split <;> simp
  | skipIf condition =>
      cases condition with
      | keyDown x => exact keyFault?_ne_halted machine x
      | keyUp x => exact keyFault?_ne_halted machine x
      | _ => exact (Option.some_ne_none _).symm
  | draw x y height => exact rangeFault?_ne_halted machine _
  | storeDecimal x => exact rangeFault?_ne_halted machine _
  | storeRegisters last => exact rangeFault?_ne_halted machine _
  | loadRegisters last => exact rangeFault?_ne_halted machine _
  | _ => exact (Option.some_ne_none _).symm

end Machine

end Chip8
