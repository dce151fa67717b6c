import Chip8.Machine.Call
import Chip8.Proofs.Machine.Faults

/-!
What a call that sets out to carry an instruction out can do. The cases are listed once, each with
all that decides it, and a property of every such call is then proved case by case.
-/

namespace Chip8.Machine

def issue? (machine : Machine) : Call → Option Instruction
  | .step => match machine.memory.word machine.pc with
      | .ok opcode => some (.decode opcode)
      | .error _ => none
  | .execute opcode => some (.decode opcode)
  | .perform instruction => some instruction
  | _ => none

/-- The instruction that a call begins: it has been issued, and the machine is running. -/
def begun? (machine : Machine) (call : Call) : Option Instruction :=
  match machine.mode with
  | .running => machine.issue? call
  | _ => none

theorem issue?_of_word {machine : Machine} {opcode : Opcode}
    (read : machine.memory.word machine.pc = .ok opcode) :
    machine.issue? .step = some (.decode opcode) := by
  rw [issue?, read]

/-- The machine at the start of the instruction that a call carries out. -/
def poised (machine : Machine) : Call → Machine
  | .step => { machine with pc := machine.pc.next }
  | _ => machine

def lengthened (waited : UInt32) : UInt32 :=
  if waited = 0xFFFFFFFF then waited else waited + 1

def Expires (machine : Machine) (waited : UInt32) : Prop :=
  ∃ limit, machine.config.keyWaitTimeout = some limit ∧ limit ≤ lengthened waited

inductive Executed (machine : Machine) : Call → Except Fault Reply → Machine → Prop where
  | refused {call : Call} (halted : machine.mode = .halted) :
      Executed machine call (.error .halted) machine
  | dropped {call : Call} {register : UInt8} {waited : UInt32}
      (awaiting : machine.mode = .awaitingKey register waited) (direct : call ≠ .step) :
      Executed machine call (.ok .nothing) machine
  | waited {register : UInt8} {waited : UInt32}
      (awaiting : machine.mode = .awaitingKey register waited)
      (lasting : ¬ machine.Expires waited) :
      Executed machine .step (.ok .nothing)
        { machine with mode := .awaitingKey register (lengthened waited) }
  | expired {register : UInt8} {waited : UInt32}
      (awaiting : machine.mode = .awaitingKey register waited) (ended : machine.Expires waited) :
      Executed machine .step (.ok .nothing) { machine with mode := .running }
  | unreadable {fault : Fault} (running : machine.mode = .running)
      (unread : machine.memory.word machine.pc = .error fault) :
      Executed machine .step (.error fault) { machine with mode := .halted }
  | faulted {call : Call} {instruction : Instruction} {fault : Fault}
      (running : machine.mode = .running) (issued : machine.issue? call = some instruction)
      (found : (machine.poised call).fault? instruction = some fault) :
      Executed machine call (.error fault) { machine.poised call with mode := .halted }
  | carriedOut {call : Call} {instruction : Instruction}
      (running : machine.mode = .running) (issued : machine.issue? call = some instruction)
      (clear : (machine.poised call).fault? instruction = none) :
      Executed machine call (.ok .nothing) ((machine.poised call).apply instruction).machine

theorem next_toNat_of_word {memory : Memory} {address : Address} {opcode : Opcode}
    (read : memory.word address = .ok opcode) : address.next.toNat = address.toNat + 2 := by
  have inside := Memory.inside_of_word read
  exact Address.next_toNat (by omega)

theorem begun?_eq_some {machine : Machine} {call : Call} {instruction : Instruction} :
    machine.begun? call = some instruction ↔
      machine.mode = .running ∧ machine.issue? call = some instruction := by
  unfold begun?
  cases machine.mode <;> simp

theorem begun?_of_plain (machine : Machine) {call : Call} (plain : call.executes = false) :
    machine.begun? call = none := by
  have issued : machine.issue? call = none := by
    cases call with
    | step => cases plain
    | execute opcode => cases plain
    | perform instruction => cases plain
    | _ => rfl
  unfold begun?
  cases machine.mode with
  | running => exact issued
  | _ => rfl

section Perform

variable {machine : Machine} {instruction : Instruction}

theorem perform_of_halted (halted : machine.mode = .halted) :
    machine.perform instruction = .failed machine .halted := by
  rw [perform, halted]

theorem perform_of_awaiting {register : UInt8} {waited : UInt32}
    (awaiting : machine.mode = .awaitingKey register waited) :
    machine.perform instruction =
      (Outcome.done machine ()).report (.dropped instruction register) := by
  rw [perform, awaiting]

theorem perform_of_fault {fault : Fault} (running : machine.mode = .running)
    (found : machine.fault? instruction = some fault) :
    machine.perform instruction = machine.halt fault := by
  rw [perform, running]
  simp only [apply_of_fault found, Outcome.failed_result, Outcome.failed_machine]
  rfl

theorem perform_of_no_fault (running : machine.mode = .running)
    (clear : machine.fault? instruction = none) :
    machine.perform instruction = machine.apply instruction := by
  rw [perform, running]
  simp only [apply_of_no_fault clear]

end Perform

section Step

variable {machine : Machine}

theorem fetch_of_unreadable {fault : Fault}
    (unread : machine.memory.word machine.pc = .error fault) :
    machine.fetch = .failed machine fault := by
  rw [fetch, unread]

theorem fetch_of_word {opcode : Opcode} (read : machine.memory.word machine.pc = .ok opcode) :
    machine.fetch = .done (machine.poised .step) (.decode opcode) := by
  rw [fetch, read]
  rfl

theorem step_of_halted (halted : machine.mode = .halted) :
    machine.step = .failed machine .halted := by
  rw [step, halted]

theorem step_of_awaiting {register : UInt8} {waited : UInt32}
    (awaiting : machine.mode = .awaitingKey register waited) :
    machine.step = machine.waitOn register waited := by
  rw [step, awaiting]

theorem step_of_unreadable {fault : Fault} (running : machine.mode = .running)
    (unread : machine.memory.word machine.pc = .error fault) :
    machine.step = machine.halt fault := by
  rw [step, running]
  simp only [fetch_of_unreadable unread, Outcome.failed_result, Outcome.failed_machine]

theorem step_of_word {opcode : Opcode} (running : machine.mode = .running)
    (read : machine.memory.word machine.pc = .ok opcode) :
    let performed := (machine.poised .step).perform (.decode opcode)
    machine.step =
      { performed with events := .fetched machine.pc (.decode opcode) :: performed.events } := by
  rw [step, running]
  simp only [fetch_of_word read, Outcome.done_result, Outcome.done_machine]

theorem step_fetches {machine : Machine} {opcode : Opcode} (running : machine.mode = .running)
    (read : machine.memory.word machine.pc = .ok opcode) :
    machine.issue? .step = some (.decode opcode) ∧
      machine.step.events.head? = some (.fetched machine.pc (.decode opcode)) := by
  refine ⟨issue?_of_word read, ?_⟩
  rw [step_of_word running read]
  rfl

theorem waitOn_eq_of_expired (register : UInt8) {waited : UInt32} (ended : machine.Expires waited) :
    machine.waitOn register waited =
      (Outcome.done { machine with mode := .running } ()).report
        (.waitExpired register (lengthened waited)) := by
  obtain ⟨limit, limited, reached⟩ := ended
  unfold lengthened at reached
  rw [waitOn, limited]
  simp only [if_pos reached]
  rfl

theorem waitOn_of_expired (register : UInt8) {waited : UInt32} (ended : machine.Expires waited) :
    (machine.waitOn register waited).result = .ok () ∧
      (machine.waitOn register waited).machine = { machine with mode := .running } := by
  rw [waitOn_eq_of_expired register ended]
  exact ⟨rfl, rfl⟩

theorem waitOn_of_lasting (register : UInt8) {waited : UInt32}
    (lasting : ¬ machine.Expires waited) :
    (machine.waitOn register waited).result = .ok () ∧
      (machine.waitOn register waited).machine =
        { machine with mode := .awaitingKey register (lengthened waited) } := by
  rw [waitOn]
  split
  next => exact ⟨rfl, rfl⟩
  next limit limited =>
    have short : ¬ limit ≤ lengthened waited := fun reached => lasting ⟨limit, limited, reached⟩
    unfold lengthened at short
    simp only [if_neg short]
    exact ⟨rfl, rfl⟩

end Step

theorem call_of_lasting {machine : Machine} {register : UInt8} {waited : UInt32}
    (awaiting : machine.mode = .awaitingKey register waited)
    (lasting : ¬ machine.Expires waited) :
    (machine.call .step).result = .ok .nothing ∧
      (machine.call .step).machine =
        { machine with mode := .awaitingKey register (lengthened waited) } := by
  obtain ⟨result, left⟩ := waitOn_of_lasting register lasting
  rw [Machine.call, step_of_awaiting awaiting, Outcome.map_result, Outcome.map_machine, result, left]
  exact ⟨rfl, rfl⟩

theorem call_of_issued {machine : Machine} {call : Call} {instruction : Instruction}
    (running : machine.mode = .running) (issued : machine.issue? call = some instruction) :
    (machine.call call).result =
        ((machine.poised call).perform instruction).result.map (fun () => .nothing) ∧
      (machine.call call).machine = ((machine.poised call).perform instruction).machine := by
  cases call with
  | step =>
      simp only [issue?] at issued
      split at issued
      next opcode read =>
        cases issued
        rw [Machine.call, step_of_word running read]
        exact ⟨rfl, rfl⟩
      next => cases issued
  | execute opcode =>
      cases issued
      exact ⟨rfl, rfl⟩
  | perform instruction =>
      cases issued
      exact ⟨rfl, rfl⟩
  | _ => cases issued

section Poised

variable (machine : Machine) (call : Call)

theorem poised_registers : (machine.poised call).registers = machine.registers := by
  cases call <;> rfl

theorem poised_index : (machine.poised call).index = machine.index := by
  cases call <;> rfl

theorem poised_memory : (machine.poised call).memory = machine.memory := by
  cases call <;> rfl

theorem poised_delay : (machine.poised call).delay = machine.delay := by
  cases call <;> rfl

theorem poised_mode : (machine.poised call).mode = machine.mode := by
  cases call <;> rfl

theorem poised_random : (machine.poised call).random = machine.random := by
  cases call <;> rfl

theorem poised_unknownCount : (machine.poised call).unknownCount = machine.unknownCount := by
  cases call <;> rfl

theorem poised_frame : ∃ pc, machine.poised call = { machine with pc } := by
  cases call with
  | step => exact ⟨machine.pc.next, rfl⟩
  | _ => exact ⟨machine.pc, rfl⟩

theorem poised_pc_of_ne_step {call : Call} (direct : call ≠ .step) :
    (machine.poised call).pc = machine.pc := by
  cases call with
  | step => exact absurd rfl direct
  | _ => rfl

theorem poised_pc_toNat {instruction : Instruction}
    (issued : machine.issue? .step = some instruction) :
    (machine.poised .step).pc.toNat = machine.pc.toNat + 2 := by
  rw [issue?] at issued
  split at issued
  next opcode read => exact next_toNat_of_word read
  next => cases issued

end Poised

theorem call_of_begun {machine : Machine} {call : Call} {instruction : Instruction}
    (begun : machine.begun? call = some instruction)
    (clear : (machine.poised call).fault? instruction = none) :
    (machine.call call).result = .ok .nothing ∧
      (machine.call call).machine = ((machine.poised call).apply instruction).machine := by
  obtain ⟨running, issued⟩ := begun?_eq_some.mp begun
  have ready : (machine.poised call).mode = .running := (poised_mode machine call).trans running
  obtain ⟨result, left⟩ := call_of_issued running issued
  rw [perform_of_no_fault ready clear] at result left
  rw [apply_of_no_fault clear] at result
  exact ⟨result, left⟩

theorem call_of_faulted {machine : Machine} {call : Call} {instruction : Instruction} {fault : Fault}
    (begun : machine.begun? call = some instruction)
    (found : (machine.poised call).fault? instruction = some fault) :
    (machine.call call).result = .error fault ∧
      (machine.call call).machine = { machine.poised call with mode := .halted } := by
  obtain ⟨running, issued⟩ := begun?_eq_some.mp begun
  have ready : (machine.poised call).mode = .running := (poised_mode machine call).trans running
  obtain ⟨result, left⟩ := call_of_issued running issued
  rw [perform_of_fault ready found] at result left
  exact ⟨result, left⟩

theorem no_fault_of_begun {machine : Machine} {call : Call} {instruction : Instruction}
    {reply : Reply} (begun : machine.begun? call = some instruction)
    (done : (machine.call call).result = .ok reply) :
    (machine.poised call).fault? instruction = none := by
  cases verdict : (machine.poised call).fault? instruction with
  | none => rfl
  | some fault => cases (call_of_faulted begun verdict).1.symm.trans done

theorem executed_of_issued {machine : Machine} {call : Call} {instruction : Instruction}
    (running : machine.mode = .running) (issued : machine.issue? call = some instruction) :
    Executed machine call (machine.call call).result (machine.call call).machine := by
  have begun := begun?_eq_some.mpr ⟨running, issued⟩
  cases verdict : (machine.poised call).fault? instruction with
  | some fault =>
      obtain ⟨result, left⟩ := call_of_faulted begun verdict
      rw [result, left]
      exact .faulted running issued verdict
  | none =>
      obtain ⟨result, left⟩ := call_of_begun begun verdict
      rw [result, left]
      exact .carriedOut running issued verdict

theorem executed_step (machine : Machine) :
    Executed machine .step (machine.call .step).result (machine.call .step).machine := by
  cases mode : machine.mode with
  | halted =>
      rw [Machine.call, step_of_halted mode]
      exact .refused mode
  | awaitingKey register waited =>
      by_cases ended : machine.Expires waited
      · obtain ⟨result, left⟩ := waitOn_of_expired register ended
        rw [Machine.call, step_of_awaiting mode, Outcome.map_result, Outcome.map_machine, result,
          left]
        exact .expired mode ended
      · obtain ⟨result, left⟩ := call_of_lasting mode ended
        rw [result, left]
        exact .waited mode ended
  | running =>
      cases read : machine.memory.word machine.pc with
      | error fault =>
          rw [Machine.call, step_of_unreadable mode read]
          exact .unreadable mode read
      | ok opcode =>
          exact executed_of_issued mode (issue?_of_word read)

theorem executed_direct {machine : Machine} {call : Call} {instruction : Instruction}
    (direct : call ≠ .step) (issued : machine.issue? call = some instruction) :
    Executed machine call (machine.call call).result (machine.call call).machine := by
  have performed : machine.call call = (machine.perform instruction).map fun () => .nothing := by
    cases call with
    | step => exact absurd rfl direct
    | execute opcode =>
        cases issued
        rfl
    | perform instruction =>
        cases issued
        rfl
    | _ => cases issued
  cases mode : machine.mode with
  | halted =>
      rw [performed, perform_of_halted mode]
      exact .refused mode
  | awaitingKey register waited =>
      rw [performed, perform_of_awaiting mode]
      exact .dropped mode direct
  | running => exact executed_of_issued mode issued

theorem executed (machine : Machine) {call : Call} (executes : call.executes = true) :
    Executed machine call (machine.call call).result (machine.call call).machine := by
  cases call with
  | step => exact executed_step machine
  | execute opcode => exact executed_direct (by simp) rfl
  | perform instruction => exact executed_direct (by simp) rfl
  | _ => cases executes

end Chip8.Machine
