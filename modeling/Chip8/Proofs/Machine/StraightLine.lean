import Chip8.Proofs.Machine.Execution
import Chip8.Proofs.Machine.Frames
import Chip8.Proofs.Memory.Program

/-!
Straight-line programs. While no instruction sets the program counter, suspends the machine or
writes to memory, a machine that fetches the opcodes of a loaded program one by one and a machine
that is handed them do the same. The two only differ in the program counter, and this is why no
instruction of such a program can tell them apart.
-/

namespace Chip8

/-- The instructions that neither jump, call, return, skip or wait nor write to memory. -/
def Instruction.straight : Instruction → Bool
  | .ret => false
  | .jump _ => false
  | .call _ => false
  | .skipIf _ => false
  | .jumpOffset _ => false
  | .awaitKey _ => false
  | .storeDecimal _ => false
  | .storeRegisters _ => false
  | _ => true

/-- The number of calls up to the first that failed, itself included. -/
def attempts : List (Except Fault Reply) → Nat
  | [] => 0
  | .ok _ :: rest => attempts rest + 1
  | .error _ :: _ => 1

theorem attempts_of_fine {replies : List (Except Fault Reply)}
    (fine : ∀ reply ∈ replies, reply.isOk) : attempts replies = replies.length := by
  induction replies with
  | nil => rfl
  | cons reply rest induction =>
      cases reply with
      | ok value =>
          have behind := induction fun later member => fine later (List.mem_cons_of_mem _ member)
          rw [attempts, behind, List.length_cons]
      | error fault => cases fine _ List.mem_cons_self

theorem attempts_of_first_fault {replies : List (Except Fault Reply)} {index : Nat} {fault : Fault}
    (failed : replies[index]? = some (.error fault))
    (fine : ∀ reply ∈ replies.take index, reply.isOk) : attempts replies = index + 1 := by
  induction replies generalizing index with
  | nil => cases failed
  | cons reply rest induction =>
      cases index with
      | zero =>
          cases failed
          rfl
      | succ index =>
          rw [List.take_succ_cons] at fine
          cases reply with
          | ok value =>
              have behind := induction failed fun later member =>
                fine later (List.mem_cons_of_mem _ member)
              rw [attempts, behind]
          | error fault => cases fine _ List.mem_cons_self

namespace Machine

def movedTo (machine : Machine) (pc : Address) : Machine := { machine with pc }

section Instructions

variable {machine : Machine} {instruction : Instruction}

theorem fault?_movedTo (machine : Machine) (instruction : Instruction) (pc : Address) :
    (machine.movedTo pc).fault? instruction = machine.fault? instruction := by
  cases instruction with
  | skipIf condition => cases condition <;> rfl
  | _ => rfl

theorem apply_movedTo (straight : instruction.straight = true) (pc : Address) :
    ((machine.movedTo pc).apply instruction).machine =
      (machine.apply instruction).machine.movedTo pc := by
  cases instruction with
  | draw x y height =>
      simp only [apply, drawAtIndex, movedTo]
      split <;> rfl
  | loadRegisters last =>
      simp only [apply, loadAtIndex, movedTo]
      split <;> rfl
  | ret => cases straight
  | jump target => cases straight
  | call target => cases straight
  | skipIf condition => cases straight
  | jumpOffset address => cases straight
  | awaitKey x => cases straight
  | storeDecimal x => cases straight
  | storeRegisters last => cases straight
  | _ => rfl

theorem perform_movedTo (running : machine.mode = .running)
    (straight : instruction.straight = true) (pc : Address) :
    ((machine.movedTo pc).perform instruction).result = (machine.perform instruction).result ∧
      ((machine.movedTo pc).perform instruction).machine =
        (machine.perform instruction).machine.movedTo pc := by
  have ready : (machine.movedTo pc).mode = .running := running
  have same := fault?_movedTo machine instruction pc
  cases verdict : machine.fault? instruction with
  | some fault =>
      rw [perform_of_fault running verdict, perform_of_fault ready (same.trans verdict)]
      exact ⟨rfl, rfl⟩
  | none =>
      rw [perform_of_no_fault running verdict, perform_of_no_fault ready (same.trans verdict),
        apply_of_no_fault verdict, apply_of_no_fault (same.trans verdict)]
      exact ⟨rfl, apply_movedTo straight pc⟩

theorem perform_straight (running : machine.mode = .running)
    (straight : instruction.straight = true) :
    let performed := machine.perform instruction
    performed.machine.pc = machine.pc ∧ performed.machine.memory = machine.memory ∧
      (performed.result = .ok () ∧ performed.machine.mode = .running ∨
        ∃ fault, performed.result = .error fault ∧ performed.machine.mode = .halted) := by
  intro performed
  cases verdict : machine.fault? instruction with
  | some fault =>
      have halted : performed = machine.halt fault := perform_of_fault running verdict
      rw [halted]
      exact ⟨rfl, rfl, .inr ⟨fault, rfl, rfl⟩⟩
  | none =>
      have applied : performed = machine.apply instruction := perform_of_no_fault running verdict
      have unwritten : .pc ∉ instruction.writes ∧ .memory ∉ instruction.writes ∧
          .mode ∉ instruction.writes := by
        revert straight
        cases instruction <;> simp [Instruction.straight, Instruction.writes]
      rw [applied]
      refine ⟨apply_agree machine unwritten.1, apply_agree machine unwritten.2.1, .inl ⟨?_, ?_⟩⟩
      · exact apply_of_no_fault verdict
      · exact Eq.trans (apply_agree machine unwritten.2.2) running

end Instructions

theorem length_replies (machine : Machine) (calls : List Call) :
    (machine.replies calls).length = calls.length := by
  induction calls generalizing machine with
  | nil => rfl
  | cons call rest induction => rw [replies, List.length_cons, List.length_cons, induction]

theorem call_of_halted {machine : Machine} {call : Call} (halted : machine.mode = .halted)
    (executes : call.executes = true) :
    (machine.call call).result = .error .halted ∧ (machine.call call).machine = machine := by
  cases call with
  | step =>
      rw [Machine.call, step_of_halted halted]
      exact ⟨rfl, rfl⟩
  | execute opcode =>
      rw [Machine.call, execute, perform_of_halted halted]
      exact ⟨rfl, rfl⟩
  | perform instruction =>
      rw [Machine.call, perform_of_halted halted]
      exact ⟨rfl, rfl⟩
  | _ => cases executes

theorem run_of_halted {machine : Machine} (halted : machine.mode = .halted) {calls : List Call}
    (executes : ∀ call ∈ calls, call.executes = true) :
    machine.replies calls = List.replicate calls.length (.error .halted) ∧
      machine.after calls = machine := by
  induction calls with
  | nil => exact ⟨rfl, rfl⟩
  | cons call rest induction =>
      obtain ⟨result, left⟩ := call_of_halted halted (executes call List.mem_cons_self)
      obtain ⟨results, last⟩ := induction fun later member =>
        executes later (List.mem_cons_of_mem _ member)
      rw [replies, after_cons, result, left, results, last]
      exact ⟨rfl, rfl⟩

section Runs

variable {machine : Machine} {place : Address}

theorem step_movedTo {opcode : Opcode} (running : machine.mode = .running)
    (read : machine.memory.word place = .ok opcode)
    (straight : (Instruction.decode opcode).straight = true) :
    ((machine.movedTo place).call .step).result = (machine.call (.execute opcode)).result ∧
      ((machine.movedTo place).call .step).machine =
        (machine.call (.execute opcode)).machine.movedTo place.next := by
  have ready : (machine.movedTo place).mode = .running := running
  have readThere : (machine.movedTo place).memory.word (machine.movedTo place).pc = .ok opcode :=
    read
  obtain ⟨result, left⟩ := perform_movedTo running straight place.next
  rw [Machine.call, Machine.call, step_of_word ready readThere]
  exact ⟨congrArg (Except.map fun _ => Reply.nothing) result, left⟩

/-- Fetching the opcodes that stand at a place and being handed them come to the same. -/
theorem steps_match {opcodes : List Opcode} (running : machine.mode = .running)
    (straight : ∀ opcode ∈ opcodes, (Instruction.decode opcode).straight = true)
    (held : machine.memory.Holds place opcodes) :
    let start := machine.movedTo place
    let steps := List.replicate opcodes.length Call.step
    let directs := opcodes.map Call.execute
    start.replies steps = machine.replies directs ∧
      (∃ reached, start.after steps = (machine.after directs).movedTo reached ∧
        reached.toNat = place.toNat + 2 * attempts (machine.replies directs)) ∧
      (machine.after directs).pc = machine.pc := by
  induction opcodes generalizing machine place with
  | nil => exact ⟨rfl, ⟨place, rfl, rfl⟩, rfl⟩
  | cons opcode rest induction =>
      intro start steps directs
      obtain ⟨result, left⟩ := step_movedTo running held.1 (straight opcode List.mem_cons_self)
      obtain ⟨pc, memory, outcome⟩ := perform_straight running (straight opcode List.mem_cons_self)
      have next := next_toNat_of_word held.1
      let handed := (machine.call (.execute opcode)).machine
      have stepReplies : start.replies steps = (machine.call (.execute opcode)).result ::
          (handed.movedTo place.next).replies (List.replicate rest.length .step) := by
        rw [← result, ← left]
        rfl
      have stepAfter : start.after steps =
          (handed.movedTo place.next).after (List.replicate rest.length .step) := by
        rw [← left]
        rfl
      have directReplies : machine.replies directs = (machine.call (.execute opcode)).result ::
          handed.replies (rest.map .execute) := rfl
      have directAfter : machine.after directs = handed.after (rest.map .execute) := rfl
      rw [stepReplies, stepAfter, directReplies, directAfter]
      rcases outcome with ⟨fine, alive⟩ | ⟨fault, failed, halted⟩
      · have answered : (machine.call (.execute opcode)).result = .ok .nothing :=
          congrArg (Except.map fun _ => Reply.nothing) fine
        have behind : handed.memory.Holds place.next rest := memory ▸ held.2
        obtain ⟨results, ⟨reached, state, far⟩, kept⟩ := @induction handed place.next alive
          (fun later member => straight later (List.mem_cons_of_mem _ member)) behind
        refine ⟨congrArg _ results, ⟨reached, state, ?_⟩, kept.trans pc⟩
        rw [far, answered, attempts, next]
        omega
      · -- both machines only refuse from here on
        have answered : (machine.call (.execute opcode)).result = .error fault :=
          congrArg (Except.map fun _ => Reply.nothing) failed
        have stopped : handed.mode = .halted := halted
        have stoppedThere : (handed.movedTo place.next).mode = .halted := halted
        obtain ⟨stepResults, stepLeft⟩ := @run_of_halted _ stoppedThere
          (List.replicate rest.length .step) (by simp [Call.executes])
        obtain ⟨directResults, directLeft⟩ := @run_of_halted _ stopped (rest.map .execute)
          (by simp [Call.executes])
        rw [stepResults, stepLeft, directResults, directLeft, answered, attempts]
        refine ⟨?_, ⟨place.next, rfl, next⟩, pc⟩
        rw [List.length_replicate, List.length_map]

end Runs

theorem stepping_agrees_with_execution (machine : Machine) (opcodes : List Opcode)
    (running : machine.mode = .running) (fits : opcodes.length ≤ 1792)
    (straight : ∀ opcode ∈ opcodes, (Instruction.decode opcode).straight = true) :
    let loaded := (machine.load (assembled opcodes)).machine
    (machine.load (assembled opcodes)).result = .ok () ∧
    ∀ count ≤ opcodes.length,
      let steps := List.replicate count Call.step
      let directs := (opcodes.take count).map Call.execute
      let stepped := loaded.after steps
      let executed := loaded.after directs
      let replies := loaded.replies directs
      loaded.replies steps = replies ∧
      stepped = { executed with pc := stepped.pc } ∧
      executed.pc.toNat = 0x200 ∧
      ((∀ reply ∈ replies, reply.isOk) → stepped.pc.toNat = 0x200 + 2 * count) ∧
      ∀ index fault, replies[index]? = some (.error fault) →
        (∀ reply ∈ replies.take index, reply.isOk) →
          stepped.pc.toNat = 0x200 + 2 * (index + 1) := by
  intro loaded
  obtain ⟨memory, accepted, held⟩ := machine.memory.load_assembled fits
  have laid : machine.load (assembled opcodes) =
      (Outcome.done { machine with memory, pc := Memory.programStart } ()).report
        (.programLoaded (assembled opcodes).length Memory.programStart) := by
    rw [load, accepted]
  have state : loaded = { machine with memory, pc := Memory.programStart } :=
    congrArg Outcome.machine laid
  refine ⟨congrArg Outcome.result laid, ?_⟩
  intro count within steps directs stepped executed replies
  have ready : loaded.mode = .running := by
    rw [state]
    exact running
  have heldThere : loaded.memory.Holds Memory.programStart (opcodes.take count) := by
    rw [state]
    exact held.take count
  have length : (opcodes.take count).length = count := List.length_take_of_le within
  have run := steps_match ready
    (fun opcode member => straight opcode (List.mem_of_mem_take member)) heldThere
  have home : loaded.movedTo Memory.programStart = loaded := by
    rw [state]
    rfl
  have entry : loaded.pc = Memory.programStart := by rw [state]
  simp only [home, length] at run
  obtain ⟨results, ⟨reached, moved, far⟩, kept⟩ := run
  have pc : stepped.pc = reached := congrArg Machine.pc moved
  refine ⟨results, ?_, ?_, ?_, ?_⟩
  · rw [pc]
    exact moved
  · have still : executed.pc = Memory.programStart := kept.trans entry
    rw [still]
    rfl
  · intro fine
    have total : attempts replies = count := by
      rw [attempts_of_fine fine, length_replies, List.length_map, length]
    rw [pc, far, total]
    rfl
  · intro index fault failed fine
    rw [pc, far, attempts_of_first_fault failed fine]
    rfl

/-- The program takes a random byte, draws its own first bytes and then reads past the end of
memory. The last opcode is not fetched any more. -/
theorem fifth_opcode_stops_the_program :
    let loaded := ((powerOn {} (.cycle #[0x37])).load
      (assembled [0xC0FF, 0xA200, 0xD015, 0xAFFE, 0xF365, 0x6001])).machine
    let steps := List.replicate 6 Call.step
    loaded.replies steps = [.ok .nothing, .ok .nothing, .ok .nothing, .ok .nothing,
        .error (.memoryOutOfBounds 0x1001), .error .halted] ∧
      (loaded.after steps).pc.toNat = 0x20A := by
  intro loaded steps
  have straight := List.all_eq_true.1 (rfl : [0xC0FF, 0xA200, 0xD015, 0xAFFE, 0xF365, 0x6001].all
    (fun opcode => (Instruction.decode opcode).straight) = true)
  have agrees := (stepping_agrees_with_execution (powerOn {} (.cycle #[0x37]))
    [0xC0FF, 0xA200, 0xD015, 0xAFFE, 0xF365, 0x6001] rfl (by decide) straight).2 6 (by decide)
  obtain ⟨results, _, _, _, stops⟩ := agrees
  have answers : loaded.replies
      ([0xC0FF, 0xA200, 0xD015, 0xAFFE, 0xF365, 0x6001].map Call.execute) =
      [.ok .nothing, .ok .nothing, .ok .nothing, .ok .nothing,
        .error (.memoryOutOfBounds 0x1001), .error .halted] := rfl
  refine ⟨results.trans answers, stops 4 (.memoryOutOfBounds 0x1001) rfl ?_⟩
  change ∀ reply ∈ List.replicate 4 (.ok .nothing : Except Fault Reply), reply.isOk = true
  decide

end Machine

end Chip8
