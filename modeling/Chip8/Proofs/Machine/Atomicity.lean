import Chip8.Machine.Host
import Chip8.Proofs.Machine.Execution

/-!
Failing calls. An instruction that fails halts the machine and changes nothing else, a step also
keeps the program counter it has fetched with, and what the host asks for in vain has no effect.
-/

namespace Chip8.Machine

variable {machine : Machine}

theorem perform_machine_of_error {instruction : Instruction} {fault : Fault}
    (running : machine.mode = .running)
    (failed : (machine.perform instruction).result = .error fault) :
    (machine.perform instruction).machine = { machine with mode := .halted } := by
  cases verdict : machine.fault? instruction with
  | none =>
      rw [perform_of_no_fault running verdict, apply_of_no_fault verdict] at failed
      cases failed
  | some found =>
      rw [perform_of_fault running verdict]
      rfl

theorem step_machine_of_error {fault : Fault} (running : machine.mode = .running)
    (failed : machine.step.result = .error fault) :
    machine.step.machine = { machine with
      mode := .halted
      pc := match machine.memory.word machine.pc with
        | .ok _ => machine.pc + 2
        | .error _ => machine.pc } := by
  cases read : machine.memory.word machine.pc with
  | error unread =>
      rw [step_of_unreadable running read]
      rfl
  | ok opcode =>
      have ready : (machine.poised .step).mode = .running := running
      have performed := step_of_word running read
      rw [performed] at failed ⊢
      exact perform_machine_of_error ready failed

theorem load_machine_of_error {program : List UInt8} {fault : Fault}
    (failed : (machine.load program).result = .error fault) :
    (machine.load program).machine = machine := by
  unfold load at failed ⊢
  split at failed
  next => cases failed
  next => rfl

theorem keyDown_machine_of_error {key : UInt8} {fault : Fault}
    (failed : (machine.keyDown key).result = .error fault) :
    (machine.keyDown key).machine = machine := by
  unfold keyDown at failed ⊢
  split at failed
  next => rfl
  next => split at failed <;> cases failed

theorem keyUp_machine_of_error {key : UInt8} {fault : Fault}
    (failed : (machine.keyUp key).result = .error fault) :
    (machine.keyUp key).machine = machine := by
  unfold keyUp at failed ⊢
  split at failed
  next => rfl
  next => cases failed

theorem failing_calls_keep_the_state (machine : Machine) :
    (machine.mode = .running →
      ∀ instruction fault, (machine.perform instruction).result = .error fault →
        (machine.perform instruction).machine = { machine with mode := .halted }) ∧
    (machine.mode = .running →
      ∀ fault, machine.step.result = .error fault →
        machine.step.machine = { machine with
          mode := .halted
          pc := match machine.memory.word machine.pc with
            | .ok _ => machine.pc + 2
            | .error _ => machine.pc }) ∧
    (machine.mode = .halted →
      (machine.step.result = .error .halted ∧ machine.step.machine = machine) ∧
      (∀ opcode, (machine.execute opcode).result = .error .halted ∧
        (machine.execute opcode).machine = machine) ∧
      ∀ instruction, (machine.perform instruction).result = .error .halted ∧
        (machine.perform instruction).machine = machine) ∧
    (∀ program fault, (machine.load program).result = .error fault →
      (machine.load program).machine = machine) ∧
    (∀ key fault, (machine.keyDown key).result = .error fault →
      (machine.keyDown key).machine = machine) ∧
    (∀ key fault, (machine.keyUp key).result = .error fault →
      (machine.keyUp key).machine = machine) := by
  refine ⟨?_, ?_, ?_, ?_, ?_, ?_⟩
  · intro running instruction fault failed
    exact perform_machine_of_error running failed
  · intro running fault failed
    exact step_machine_of_error running failed
  · intro halted
    have refused : ∀ instruction, machine.perform instruction = .failed machine .halted :=
      fun instruction => perform_of_halted halted
    refine ⟨?_, ?_, ?_⟩
    · rw [step_of_halted halted]
      exact ⟨rfl, rfl⟩
    · intro opcode
      rw [execute, refused]
      exact ⟨rfl, rfl⟩
    · intro instruction
      rw [refused]
      exact ⟨rfl, rfl⟩
  · intro program fault failed
    exact load_machine_of_error failed
  · intro key fault failed
    exact keyDown_machine_of_error failed
  · intro key fault failed
    exact keyUp_machine_of_error failed

/-- Three of the four bytes would still fit, and none of them is written. The two bytes of the font at
5 are a call, for which the stack has no room, and the step stays behind them. -/
theorem overrunning_store_writes_nothing :
    let machine := { powerOn {} (.cycle #[]) with
      registers := ⟨Vector.replicate 16 0x99⟩
      pc := 5
      index := 0xFFD
      stack := ⟨Vector.replicate 16 0x202, 16, by decide⟩ }
    (machine.perform (.storeRegisters 3)).result = .error (.memoryOutOfBounds 0x1000) ∧
      (machine.perform (.storeRegisters 3)).machine = { machine with mode := .halted } ∧
      machine.step.result = .error (.stackOverflow 16) ∧
      machine.step.machine = { machine with mode := .halted, pc := 7 } := by
  intro machine
  have read : machine.memory.word machine.pc = .ok 0x2060 :=
    (Memory.word_of_font 5 (by decide)).trans rfl
  have refused : machine.step.result = .error (.stackOverflow 16) := by
    rw [step_of_word rfl read]
    rfl
  obtain ⟨performed, stepped, _⟩ := failing_calls_keep_the_state machine
  have left := stepped rfl _ refused
  rw [read] at left
  exact ⟨rfl, performed rfl _ _ rfl, refused, left⟩

end Chip8.Machine
