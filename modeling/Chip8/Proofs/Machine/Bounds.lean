import Chip8.Proofs.Machine.Execution
import Chip8.Proofs.Machine.Frames
import Chip8.Proofs.Memory.Program

/-!
How far the program counter can go when instructions are only carried out by steps. Every
instruction has then been fetched, so its operands fit their fields and the counter stands behind
two bytes of memory. The farthest target is an address of twelve bits plus a register, and the
addresses that calls leave on the stack are those behind a fetched word.
-/

namespace Chip8

/-- The address that an instruction names as a target, before `V0` is added to it. -/
def Instruction.target? : Instruction → Option Address
  | .jump target => some target
  | .call target => some target
  | .jumpOffset address => some address
  | _ => none

namespace Instruction

@[simp] theorem decodeSystem_target (opcode : Opcode) : (decodeSystem opcode).target? = none := by
  unfold decodeSystem
  split <;> rfl

@[simp] theorem decodeArithmetic_target (opcode : Opcode) :
    (decodeArithmetic opcode).target? = none := by
  unfold decodeArithmetic
  split <;> rfl

@[simp] theorem decodeKey_target (opcode : Opcode) : (decodeKey opcode).target? = none := by
  unfold decodeKey
  split <;> rfl

@[simp] theorem decodeDevice_target (opcode : Opcode) : (decodeDevice opcode).target? = none := by
  unfold decodeDevice
  split <;> rfl

theorem decode_target (opcode : Opcode) :
    (decode opcode).target? = none ∨ (decode opcode).target? = some opcode.address := by
  unfold decode
  split
  all_goals first
    | exact .inl rfl
    | exact .inr rfl
    | simp

theorem decode_target_lt {opcode : Opcode} {target : Address}
    (aimed : (decode opcode).target? = some target) : target.toNat < 4096 := by
  rcases decode_target opcode with none | field
  · cases none.symm.trans aimed
  · cases field.symm.trans aimed
    rw [Opcode.address_toNat]
    exact Nat.mod_lt _ (by decide)

end Instruction

namespace Machine

/-- Where the program counter and the return addresses are between calls. -/
structure Bounded (machine : Machine) : Prop where
  pc : machine.pc.toNat ≤ 0x10FE
  returns : ∀ address ∈ machine.stack.toList, 2 ≤ address.toNat ∧ address.toNat ≤ 0x1000

/-- Where they are when an instruction has been fetched and not carried out yet. -/
structure Fetched (machine : Machine) : Prop where
  low : 2 ≤ machine.pc.toNat
  high : machine.pc.toNat ≤ 0x1000
  returns : ∀ address ∈ machine.stack.toList, 2 ≤ address.toNat ∧ address.toNat ≤ 0x1000

section Steps

variable {machine : Machine}

theorem Bounded.of_same {after : Machine} (bounded : Bounded machine) (pc : after.pc = machine.pc)
    (stack : after.stack = machine.stack) : Bounded after where
  pc := pc ▸ bounded.pc
  returns := stack ▸ bounded.returns

theorem Fetched.bounded (fetched : Fetched machine) : Bounded machine where
  pc := Nat.le_trans fetched.high (by decide)
  returns := fetched.returns

theorem Bounded.fetched {opcode : Opcode} (bounded : Bounded machine)
    (read : machine.memory.word machine.pc = .ok opcode) : Fetched (machine.poised .step) := by
  have inside := Memory.inside_of_word read
  have next : (machine.poised .step).pc.toNat = machine.pc.toNat + 2 := next_toNat_of_word read
  exact ⟨by omega, by omega, bounded.returns⟩

theorem Fetched.skipped_toNat (fetched : Fetched machine) :
    (machine.skipWhen true).pc.toNat = machine.pc.toNat + 2 := by
  have high := fetched.high
  exact Address.next_toNat (by omega)

theorem offset_toNat {address : Address} (short : address.toNat < 4096) (offset : UInt8) :
    (address + offset.toUInt16).toNat = address.toNat + offset.toNat := by
  have small := offset.toNat_lt
  rw [UInt16.toNat_add, UInt8.toNat_toUInt16]
  exact Nat.mod_eq_of_lt (by omega)

theorem stack_unwritten {instruction : Instruction} (unmoved : .pc ∉ instruction.writes) :
    .stack ∉ instruction.writes := by
  revert unmoved
  cases instruction <;> simp [Instruction.writes]

/-- One case for each instruction that sets the program counter. -/
theorem Fetched.apply {instruction : Instruction} (fetched : Fetched machine)
    (short : ∀ target, instruction.target? = some target → target.toNat < 4096) :
    Bounded (machine.apply instruction).machine := by
  by_cases moved : .pc ∈ instruction.writes
  · cases instruction with
    | ret =>
        rw [Machine.apply, leave]
        split
        next popped accepted =>
          have live := fetched.returns
          rw [CallStack.toList_pop accepted] at live
          have top := (live _ List.mem_cons_self).2
          exact ⟨Nat.le_trans top (by decide),
            fun address member => live address (List.mem_cons_of_mem _ member)⟩
        next => exact fetched.bounded
    | jump target =>
        have aimed := short target rfl
        exact ⟨Nat.le_trans (Nat.le_of_lt aimed) (by decide), fetched.returns⟩
    | call target =>
        rw [Machine.apply, enter]
        split
        next pushed accepted =>
          have aimed := short target rfl
          refine ⟨Nat.le_trans (Nat.le_of_lt aimed) (by decide), ?_⟩
          intro address member
          rw [Outcome.done_machine, CallStack.toList_push accepted] at member
          rcases List.mem_cons.mp member with rfl | below
          · exact ⟨fetched.low, fetched.high⟩
          · exact fetched.returns address below
        next => exact fetched.bounded
    | skipIf condition =>
        rw [Machine.apply, skipIf]
        split
        next taken _ =>
          have high := fetched.high
          cases taken with
          | false => exact fetched.bounded
          | true =>
              have skipped := fetched.skipped_toNat
              exact ⟨by rw [Outcome.done_machine, skipped]; omega, fetched.returns⟩
        next => exact fetched.bounded
    | jumpOffset address =>
        have sum := offset_toNat (short address rfl) (machine.registers.get 0)
        have aimed := short address rfl
        have small := (machine.registers.get 0).toNat_lt
        exact ⟨by rw [Machine.apply, Outcome.done_machine, sum]; omega, fetched.returns⟩
    | _ => simp [Instruction.writes] at moved
  · exact fetched.bounded.of_same (apply_agree machine moved)
      (apply_agree machine (stack_unwritten moved))

theorem word_of_issued {instruction : Instruction}
    (issued : machine.issue? .step = some instruction) :
    ∃ opcode, machine.memory.word machine.pc = .ok opcode ∧
      Instruction.decode opcode = instruction := by
  simp only [issue?] at issued
  split at issued
  next opcode read => exact ⟨opcode, read, Option.some.inj issued⟩
  next => cases issued

theorem Bounded.step (bounded : Bounded machine) : Bounded (machine.call .step).machine := by
  have record := executed_step machine
  generalize (machine.call .step).result = result, (machine.call .step).machine = left
    at record ⊢
  cases record with
  | refused => exact bounded
  | dropped awaiting direct => exact absurd rfl direct
  | waited => exact ⟨bounded.pc, bounded.returns⟩
  | expired => exact ⟨bounded.pc, bounded.returns⟩
  | unreadable => exact ⟨bounded.pc, bounded.returns⟩
  | faulted running issued =>
      obtain ⟨opcode, read, _⟩ := word_of_issued issued
      have halted := (bounded.fetched read).bounded
      exact ⟨halted.pc, halted.returns⟩
  | carriedOut running issued =>
      obtain ⟨opcode, read, rfl⟩ := word_of_issued issued
      exact (bounded.fetched read).apply fun target aimed => Instruction.decode_target_lt aimed

theorem powerOn_bounded (config : Config) (random : WordSource) :
    Bounded (powerOn config random) where
  pc := Nat.zero_le _
  returns := nofun

theorem Bounded.load (bounded : Bounded machine) (program : List UInt8) :
    Bounded (machine.load program).machine := by
  unfold Machine.load Memory.load
  split
  next entry memory accepted =>
    split at accepted
    · cases accepted
      have entry : Memory.programStart.toNat ≤ 0x10FE := by decide
      exact ⟨entry, bounded.returns⟩
    · cases accepted
  next => exact bounded

theorem Bounded.fetch (bounded : Bounded machine) : Bounded machine.fetch.machine := by
  cases read : machine.memory.word machine.pc with
  | ok opcode =>
      rw [fetch_of_word read]
      exact (bounded.fetched read).bounded
  | error fault =>
      rw [fetch_of_unreadable read]
      exact bounded

theorem Bounded.call {call : Call} (bounded : Bounded machine)
    (stepped : call.executes = true → call = .step) : Bounded (machine.call call).machine := by
  cases call with
  | load program => exact bounded.load program
  | step => exact bounded.step
  | execute opcode => cases stepped rfl
  | perform instruction => cases stepped rfl
  | fetch => exact bounded.fetch
  | reset => exact powerOn_bounded machine.config machine.random
  | _ =>
      apply bounded.of_same
      · exact @call_agree machine _ .pc (by simp [Call.writes])
      · exact @call_agree machine _ .stack (by simp [Call.writes])

end Steps

theorem Bounded.after {machine : Machine} {calls : List Call} (bounded : Bounded machine)
    (stepped : ∀ call ∈ calls, call.executes = true → call = .step) :
    Bounded (machine.after calls) := by
  induction calls generalizing machine with
  | nil => exact bounded
  | cons call rest induction =>
      exact induction (bounded.call (stepped call List.mem_cons_self))
        (fun later member => stepped later (List.mem_cons_of_mem _ member))

theorem program_counter_stays_bounded (config : Config) (random : WordSource) (calls : List Call)
    (stepped : ∀ call ∈ calls, call.executes = true → call = .step) :
    let machine := (powerOn config random).after calls
    machine.pc.toNat ≤ 0x10FE ∧
    (∀ address ∈ machine.stack.toList, 2 ≤ address.toNat ∧ address.toNat ≤ 0x1000) ∧
    (∀ instruction, machine.fetch.result = .ok instruction →
      let fetched := machine.fetch.machine
      fetched.pc.toNat = machine.pc.toNat + 2 ∧
      (fetched.skipWhen true).pc.toNat = machine.pc.toNat + 4 ∧
      ∀ address, instruction = .jumpOffset address →
        (fetched.apply instruction).machine.pc.toNat =
          address.toNat + (fetched.registers.get 0).toNat) ∧
    (machine.mode = .running → 0xFFE < machine.pc.toNat →
      machine.step.result = .error (.memoryOutOfBounds (max machine.pc.toNat 0x1000)) ∧
      machine.step.machine = { machine with mode := .halted }) := by
  intro machine
  have bounded := (powerOn_bounded config random).after stepped
  refine ⟨bounded.pc, bounded.returns, ?_, ?_⟩
  · intro instruction accepted fetched
    cases read : machine.memory.word machine.pc with
    | error fault =>
        rw [fetch_of_unreadable read] at accepted
        cases accepted
    | ok opcode =>
        have left : fetched = machine.poised .step :=
          congrArg Outcome.machine (fetch_of_word read)
        rw [fetch_of_word read] at accepted
        cases accepted
        have ready := bounded.fetched read
        have next : (machine.poised .step).pc.toNat = machine.pc.toNat + 2 :=
          next_toNat_of_word read
        rw [left]
        refine ⟨next, ?_, ?_⟩
        · rw [ready.skipped_toNat, next]
        · intro address decoded
          have aimed : (Instruction.decode opcode).target? = some address := by rw [decoded]; rfl
          rw [decoded]
          exact offset_toNat (Instruction.decode_target_lt aimed) _
  · intro running above
    have unread := Memory.word_of_outside machine.memory above
    rw [step_of_unreadable running unread]
    exact ⟨rfl, rfl⟩

/-- The first opcode puts 255 into `V0`, and the second jumps to that many bytes behind `0xFFF`. -/
theorem farthest_jump_reaches_the_bound :
    let machine := (powerOn {} (.cycle #[])).after
      [.load (assembled [0x60FF, 0xBFFF]), .step, .step]
    machine.pc.toNat = 0x10FE ∧ machine.step.result = .error (.memoryOutOfBounds 0x10FE) ∧
      machine.step.machine = { machine with mode := .halted } := by
  intro machine
  have fits : ([0x60FF, 0xBFFF] : List Opcode).length ≤ 1792 := by decide
  obtain ⟨memory, accepted, first, second, _⟩ := Memory.initial.load_assembled fits
  let loaded : Machine := { powerOn {} (.cycle #[]) with memory, pc := Memory.programStart }
  let filled : Machine := { loaded with
    registers := loaded.registers.set 0 0xFF
    pc := Memory.programStart.next }
  have loading : ((powerOn {} (.cycle #[])).call
      (.load (assembled [0x60FF, 0xBFFF]))).machine = loaded := by
    rw [Machine.call, Outcome.map_machine, Machine.load]
    simp only [powerOn, accepted]
    rfl
  have filling : (loaded.call .step).machine = filled := by
    have read : loaded.memory.word loaded.pc = .ok 0x60FF := first
    rw [Machine.call, Outcome.map_machine, step_of_word rfl read]
    rfl
  have jumping : (filled.call .step).machine = { filled with pc := 0x10FE } := by
    have read : filled.memory.word filled.pc = .ok 0xBFFF := second
    rw [Machine.call, Outcome.map_machine, step_of_word rfl read]
    rfl
  have reached : machine = { filled with pc := 0x10FE } := by
    change (powerOn {} (.cycle #[])).after _ = _
    rw [after_cons, loading, after_cons, filling, after_cons, jumping, after_nil]
  have pc : machine.pc.toNat = 0x10FE := by
    rw [reached]
    rfl
  have stops := (program_counter_stays_bounded {} (.cycle #[])
    [.load (assembled [0x60FF, 0xBFFF]), .step, .step] (by decide)).2.2.2
  have beyond : 0xFFE < machine.pc.toNat := by
    rw [pc]
    decide
  have address : max machine.pc.toNat 0x1000 = 0x10FE := by
    rw [pc]
    decide
  have running : machine.mode = .running := by
    rw [reached]
    rfl
  obtain ⟨result, left⟩ := stops running beyond
  rw [address] at result
  exact ⟨pc, result, left⟩

end Machine

end Chip8
