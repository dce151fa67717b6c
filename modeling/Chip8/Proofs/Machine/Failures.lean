import Chip8.Proofs.Instruction.Operands
import Chip8.Proofs.Machine.StraightLine

/-!
Exactly when opcodes fail. Each fault belongs to a few instructions, and whether one of them meets
it is a comparison of two numbers that the machine holds. A step can fail besides because there is no
whole opcode at the program counter.
-/

namespace Chip8

def Instruction.span? : Instruction → Option Nat
  | .draw _ _ height => some height.toNat
  | .storeDecimal _ => some 3
  | .storeRegisters last => some (last.toNat + 1)
  | .loadRegisters last => some (last.toNat + 1)
  | _ => none

/-- How many bytes an opcode reads or writes from `I` on, by its pattern. -/
def Opcode.Spans (opcode : Opcode) (length : Nat) : Prop :=
  opcode.hasPattern "DXYN" = true ∧ length = opcode.toNat % 16 ∨
  opcode.hasPattern "FX33" = true ∧ length = 3 ∨
  (opcode.hasPattern "FX55" = true ∨ opcode.hasPattern "FX65" = true) ∧
    length = opcode.toNat / 256 % 16 + 1

/-- Only a draw can be of no bytes at all. -/
theorem Opcode.Spans.pos {opcode : Opcode} {length : Nat} (spans : opcode.Spans length)
    (paints : opcode.hasPattern "DXY0" = false) : 0 < length := by
  rcases spans with ⟨draws, rfl⟩ | ⟨_, rfl⟩ | ⟨_, rfl⟩
  · simp [hasPattern, numerals, digitOf?] at draws paints
    have positive := paints draws
    omega
  · exact Nat.zero_lt_succ _
  · exact Nat.zero_lt_succ _

namespace Instruction

section Decoded

variable (opcode : Opcode)

theorem decode_eq_ret_iff : decode opcode = .ret ↔ opcode = 0x00EE := by
  constructor
  · intro decoded
    have has : opcode.hasPattern "00EE" = true :=
      (hasPattern_iff opcode (by decide)).mpr (by rw [decoded]; rfl)
    simp [Opcode.hasPattern, Opcode.numerals, digitOf?] at has
    exact UInt16.toNat_inj.mp (by show opcode.toNat = 0x00EE; omega)
  · rintro rfl
    rfl

theorem decode_eq_call_iff :
    (∃ target, decode opcode = .call target) ↔ opcode.hasPattern "2NNN" = true := by
  rw [hasPattern_iff opcode (by decide)]
  cases decode opcode with
  | skipIf condition => cases condition <;> simp [pattern?, Condition.pattern]
  | combine op x y => cases op <;> simp [pattern?, AluOp.pattern]
  | _ => simp [pattern?]

theorem decode_eq_key_iff (x : UInt8) :
    decode opcode = .skipIf (.keyDown x) ∨ decode opcode = .skipIf (.keyUp x) ↔
      (opcode.hasPattern "EX9E" = true ∨ opcode.hasPattern "EXA1" = true) ∧ x = opcode.x := by
  have taken := decode_takenFrom opcode
  rw [hasPattern_iff opcode (by decide), hasPattern_iff opcode (by decide)]
  cases decoded : decode opcode with
  | skipIf condition =>
      rw [decoded] at taken
      cases condition with
      | keyDown number | keyUp number =>
          have number_eq : number = opcode.x := taken
          simp [pattern?, Condition.pattern, number_eq, eq_comm]
      | _ => simp [pattern?, Condition.pattern]
  | combine op x y => cases op <;> simp [pattern?, AluOp.pattern]
  | _ => simp [pattern?]

theorem span?_decode (length : Nat) :
    (decode opcode).span? = some length ↔ opcode.Spans length := by
  have taken := decode_takenFrom opcode
  simp (disch := decide) only [Opcode.Spans, hasPattern_iff, ← Opcode.nibble_toNat,
    ← Opcode.x_toNat]
  cases decoded : decode opcode with
  | skipIf condition => cases condition <;> simp [span?, pattern?, Condition.pattern]
  | combine op x y => cases op <;> simp [span?, pattern?, AluOp.pattern]
  | draw x y height =>
      rw [decoded] at taken
      obtain ⟨_, _, height_eq⟩ := taken
      simp [span?, pattern?, height_eq, eq_comm]
  | storeRegisters last | loadRegisters last =>
      rw [decoded] at taken
      have last_eq : last = opcode.x := taken
      simp [span?, pattern?, last_eq, eq_comm]
  | _ => simp [span?, pattern?, eq_comm]

end Decoded

end Instruction

namespace Machine

section Faults

variable {machine : Machine} {instruction : Instruction}

theorem rangeFault?_eq_some_iff (length : Nat) (fault : Fault) :
    machine.rangeFault? length = some fault ↔
      4096 ≤ machine.index.toNat + (length - 1) ∧
        .memoryOutOfBounds (machine.index.toNat + (length - 1)) = fault := by
  simp only [rangeFault?, Option.ite_none_left_eq_some, Option.some.injEq, Nat.not_lt]

theorem keyFault?_eq_some_iff (x : UInt8) (fault : Fault) :
    machine.keyFault? x = some fault ↔
      16 ≤ (machine.registers.get x).toNat ∧ .keyOutOfRange (machine.registers.get x) = fault := by
  simp only [keyFault?, Option.ite_none_left_eq_some, Option.some.injEq, Nat.not_lt]

theorem fault?_eq_underflow_iff : machine.fault? instruction = some .stackUnderflow ↔
    instruction = .ret ∧ machine.stack.depth = 0 := by
  cases instruction with
  | skipIf condition => cases condition <;> simp [fault?, keyFault?_eq_some_iff]
  | _ => simp [fault?, rangeFault?_eq_some_iff]

theorem fault?_eq_overflow_iff (depth : Nat) :
    machine.fault? instruction = some (.stackOverflow depth) ↔
      (∃ target, instruction = .call target) ∧ machine.stack.depth = 16 ∧ depth = 16 := by
  have full : 16 ≤ machine.stack.depth ↔ machine.stack.depth = 16 :=
    ⟨Nat.le_antisymm machine.stack.depth_le, fun same => Nat.le_of_eq same.symm⟩
  cases instruction with
  | skipIf condition => cases condition <;> simp [fault?, keyFault?_eq_some_iff]
  | call target => simp [fault?, full, eq_comm]
  | _ => simp [fault?, rangeFault?_eq_some_iff]

theorem fault?_eq_key_iff (key : UInt8) :
    machine.fault? instruction = some (.keyOutOfRange key) ↔
      ∃ x, (instruction = .skipIf (.keyDown x) ∨ instruction = .skipIf (.keyUp x)) ∧
        16 ≤ (machine.registers.get x).toNat ∧ machine.registers.get x = key := by
  cases instruction with
  | skipIf condition => cases condition <;> simp [fault?, keyFault?_eq_some_iff]
  | _ => simp [fault?, rangeFault?_eq_some_iff]

theorem fault?_eq_memory_iff (address : Nat) :
    machine.fault? instruction = some (.memoryOutOfBounds address) ↔
      ∃ length, instruction.span? = some length ∧
        4096 ≤ machine.index.toNat + (length - 1) ∧
        machine.index.toNat + (length - 1) = address := by
  cases instruction with
  | skipIf condition =>
      cases condition <;> simp [fault?, Instruction.span?, keyFault?_eq_some_iff]
  | _ => simp [fault?, Instruction.span?, rangeFault?_eq_some_iff]

theorem fault?_cases {fault : Fault} (found : machine.fault? instruction = some fault) :
    fault = .stackUnderflow ∨ (∃ depth, fault = .stackOverflow depth) ∨
      (∃ key, fault = .keyOutOfRange key) ∨ ∃ address, fault = .memoryOutOfBounds address := by
  cases fault with
  | programTooLarge size maxSize =>
      exfalso
      cases instruction with
      | skipIf condition => cases condition <;> simp [fault?, keyFault?_eq_some_iff] at found
      | _ => simp [fault?, rangeFault?_eq_some_iff] at found
  | halted => exact absurd found (fault?_ne_halted machine instruction)
  | _ => simp

theorem perform_result (running : machine.mode = .running) :
    (machine.perform instruction).result = (machine.fault? instruction).elim (.ok ()) .error := by
  cases verdict : machine.fault? instruction with
  | none =>
      rw [perform_of_no_fault running verdict, apply_of_no_fault verdict]
      rfl
  | some fault =>
      rw [perform_of_fault running verdict]
      rfl

theorem perform_eq_error_iff (running : machine.mode = .running) (fault : Fault) :
    (machine.perform instruction).result = .error fault ↔
      machine.fault? instruction = some fault := by
  rw [perform_result running]
  cases machine.fault? instruction <;> simp

end Faults

/-- The program counter has moved when the instruction is performed, and no fault depends on it. -/
theorem step_result_of_word {machine : Machine} {opcode : Opcode}
    (running : machine.mode = .running) (read : machine.memory.word machine.pc = .ok opcode) :
    machine.step.result = (machine.execute opcode).result := by
  have ready : (machine.poised .step).mode = .running := running
  have same : (machine.poised .step).fault? (.decode opcode) = machine.fault? (.decode opcode) :=
    fault?_movedTo machine (.decode opcode) machine.pc.next
  calc machine.step.result
      = ((machine.poised .step).perform (.decode opcode)).result := by
        rw [step_of_word running read]
    _ = (machine.perform (.decode opcode)).result := by
        rw [perform_result ready, perform_result running, same]

/-- What an opcode fails with is settled by its pattern and by numbers that the machine holds, and a
step adds only that its opcode has to lie inside memory. -/
theorem failures_are_exact (machine : Machine) (running : machine.mode = .running) :
    (∀ opcode : Opcode, opcode.hasPattern "DXY0" = false →
      let result := (machine.execute opcode).result
      let start := machine.index.toNat
      let named := machine.registers.get (opcode.toNat / 256 % 16).toUInt8
      (result = .error .stackUnderflow ↔ opcode = 0x00EE ∧ machine.stack.depth = 0) ∧
      (∀ depth, result = .error (.stackOverflow depth) ↔
        opcode.hasPattern "2NNN" = true ∧ machine.stack.depth = 16 ∧ depth = 16) ∧
      (∀ key, result = .error (.keyOutOfRange key) ↔
        (opcode.hasPattern "EX9E" = true ∨ opcode.hasPattern "EXA1" = true) ∧
          15 < named.toNat ∧ named = key) ∧
      (∀ address, result = .error (.memoryOutOfBounds address) ↔
        ∃ length, opcode.Spans length ∧ 4096 < start + length ∧ start + length - 1 = address) ∧
      (∀ address, result = .error (.memoryOutOfBounds address) → 4096 ≤ address ∧
        ∃ length, opcode.Spans length ∧ start ≤ address ∧ address < start + length) ∧
      (result ≠ .ok () → result = .error .stackUnderflow ∨
        (∃ depth, result = .error (.stackOverflow depth)) ∨
        (∃ key, result = .error (.keyOutOfRange key)) ∨
        ∃ address, result = .error (.memoryOutOfBounds address))) ∧
    (0xFFF ≤ machine.pc.toNat →
      machine.step.result = .error (.memoryOutOfBounds (max machine.pc.toNat 0x1000))) ∧
    (machine.pc.toNat < 0xFFF → ∃ opcode, machine.memory.word machine.pc = .ok opcode ∧
      machine.step.result = (machine.execute opcode).result) := by
  refine ⟨?executed, ?unreadable, ?fetched⟩
  case executed =>
    intro opcode paints result start named
    have failed : ∀ fault, result = .error fault ↔
        machine.fault? (.decode opcode) = some fault := perform_eq_error_iff running
    have memory : ∀ address, result = .error (.memoryOutOfBounds address) ↔
        ∃ length, opcode.Spans length ∧ 4096 < start + length ∧ start + length - 1 = address := by
      intro address
      rw [failed, fault?_eq_memory_iff]
      refine exists_congr fun length => ?_
      rw [Instruction.span?_decode]
      refine and_congr_right fun spans => ?_
      have nonempty := spans.pos paints
      omega
    refine ⟨?_, ?_, ?_, memory, ?_, ?_⟩
    · rw [failed, fault?_eq_underflow_iff, Instruction.decode_eq_ret_iff]
    · intro depth
      rw [failed, fault?_eq_overflow_iff, Instruction.decode_eq_call_iff]
    · intro key
      simp only [failed, fault?_eq_key_iff, Instruction.decode_eq_key_iff, and_assoc,
        exists_and_left, exists_eq_left, named, opcode.register_of_x]
      rfl
    · intro address refused
      obtain ⟨length, spans, outside, reported⟩ := (memory address).mp refused
      have nonempty := spans.pos paints
      exact ⟨by omega, length, spans, by omega, by omega⟩
    · intro unsuccessful
      cases verdict : result with
      | ok value => exact absurd verdict unsuccessful
      | error fault => simpa using fault?_cases ((failed fault).mp verdict)
  case unreadable =>
    intro outside
    rw [step_of_unreadable running (machine.memory.word_of_outside outside)]
    rfl
  case fetched =>
    intro inside
    have read := @Memory.word_of_inside machine.memory machine.pc (by omega)
    exact ⟨_, read, step_result_of_word running read⟩

/-- The three digits would need the first address outside memory, and so would the opcode of a step.
A full stack takes no call, and no key has the number in `V3`. -/
theorem digits_overrun_by_one_byte :
    let machine := { powerOn {} (.cycle #[]) with
      registers := ⟨Vector.replicate 16 0x99⟩
      pc := 0xFFF
      index := 0xFFE
      stack := ⟨Vector.replicate 16 0x202, 16, by decide⟩ }
    (machine.execute 0xF133).result = .error (.memoryOutOfBounds 0x1000) ∧
      (machine.execute 0x2ABC).result = .error (.stackOverflow 16) ∧
      (machine.execute 0xE39E).result = .error (.keyOutOfRange 0x99) ∧
      machine.step.result = .error (.memoryOutOfBounds 0x1000) := by
  intro machine
  obtain ⟨executed, unreadable, _⟩ := failures_are_exact machine rfl
  obtain ⟨_, _, _, memory, _⟩ := executed 0xF133 (by decide)
  obtain ⟨_, overflow, _⟩ := executed 0x2ABC (by decide)
  obtain ⟨_, _, key, _⟩ := executed 0xE39E (by decide)
  have spans : Opcode.Spans 0xF133 3 := .inr (.inl ⟨by decide, rfl⟩)
  refine ⟨(memory 0x1000).mpr ⟨3, spans, by decide, rfl⟩, ?_, ?_, unreadable (by decide)⟩
  · exact (overflow 16).mpr ⟨by decide, rfl, rfl⟩
  · exact (key 0x99).mpr ⟨.inl (by decide), by decide, rfl⟩

end Machine

end Chip8
