import Chip8.Proofs.Machine.Execution
import Chip8.Proofs.Machine.Frames
import Mathlib.Data.List.Basic

/-!
What the operations on the machine depend on. A footprint lists the parts that an operation looks
at and the parts that it writes. Machines that agree on the first are answered alike and go on to
agree wherever they did, and two operations with footprints apart can change places.
-/

namespace Chip8

def Condition.reads : Condition → List Part
  | .keyDown _ => [.registers, .keypad]
  | .keyUp _ => [.registers, .keypad]
  | _ => [.registers]

/-- The parts that decide about the answer of an instruction, or about what it does to another
part. What it does to a part may always depend on that part itself. -/
def Instruction.reads : Instruction → List Part
  | .ret => [.stack]
  | .call _ => [.stack, .pc]
  | .skipIf condition => condition.reads
  | .jumpOffset _ => [.registers]
  | .random _ _ => [.random]
  | .draw _ _ _ => [.registers, .index, .memory, .screen]
  | .readDelay _ => [.delay]
  | .setDelay _ => [.registers]
  | .setSound _ => [.registers]
  | .addToIndex _ => [.registers]
  | .pointAtGlyph _ => [.registers]
  | .storeDecimal _ => [.registers, .index]
  | .storeRegisters _ => [.registers, .index]
  | .loadRegisters _ => [.index, .memory]
  | _ => []

/-- What an instruction does depends neither on the mode nor on what only the host looks at. -/
theorem Instruction.unread {part : Part} (hidden : part ∈ [.mode, .sound, .config, .unknownCount])
    (instruction : Instruction) : part ∉ instruction.reads := by
  revert hidden
  cases instruction with
  | skipIf condition => cases condition <;> cases part <;> simp [reads, Condition.reads]
  | _ => cases part <;> simp [reads]

namespace Machine

theorem Agree.symm {first second : Machine} {part : Part} (same : first.Agree second part) :
    second.Agree first part := by
  cases part <;> exact Eq.symm same

theorem Agree.trans {first second third : Machine} {part : Part}
    (earlier : first.Agree second part) (later : second.Agree third part) :
    first.Agree third part := by
  cases part <;> exact Eq.trans later earlier

theorem eq_of_agree {first second : Machine} (same : ∀ part, first.Agree second part) :
    second = first := by
  cases first
  cases second
  rw [Machine.mk.injEq]
  exact ⟨same .registers, same .pc, same .index, same .memory, same .stack, same .screen,
    same .keypad, same .delay, same .sound, same .mode, same .random, same .config,
    same .unknownCount⟩

def AgreeOn (parts : List Part) (first second : Machine) : Prop :=
  ∀ part ∈ parts, first.Agree second part

theorem agreeOn_cons {part : Part} {parts : List Part} {first second : Machine} :
    AgreeOn (part :: parts) first second ↔ first.Agree second part ∧ AgreeOn parts first second :=
  List.forall_mem_cons

theorem AgreeOn.refl (parts : List Part) (machine : Machine) : AgreeOn parts machine machine := by
  intro part _
  cases part <;> exact rfl

/-- An operation that starts where some parts are as in `machine` depends on no other parts, and it
leaves alone all parts that it is not said to write. -/
structure Footprint {Result : Type} (operation : Machine → Outcome Result) (machine : Machine)
    (reads writes : List Part) : Prop where
  frame : ∀ other, AgreeOn reads machine other → ∀ part, part ∉ writes →
    other.Agree (operation other).machine part
  answer : ∀ other, AgreeOn reads machine other →
    (operation other).result = (operation machine).result
  effect : ∀ other, AgreeOn reads machine other → ∀ part, machine.Agree other part →
    (operation machine).machine.Agree (operation other).machine part

section Instructions

variable {machine other : Machine} {instruction : Instruction}

theorem holds_of_same {condition : Condition} (same : AgreeOn condition.reads machine other) :
    condition.holds other = condition.holds machine := by
  cases condition with
  | keyDown x =>
      have registers : other.registers = machine.registers :=
        same .registers (by simp [Condition.reads])
      have keypad : other.keypad = machine.keypad := same .keypad (by simp [Condition.reads])
      simp only [Condition.holds, registers, keypad]
  | keyUp x =>
      have registers : other.registers = machine.registers :=
        same .registers (by simp [Condition.reads])
      have keypad : other.keypad = machine.keypad := same .keypad (by simp [Condition.reads])
      simp only [Condition.holds, registers, keypad]
  | _ =>
      have registers : other.registers = machine.registers :=
        same .registers (by simp [Condition.reads])
      simp only [Condition.holds, registers]

theorem fault?_of_same (same : AgreeOn instruction.reads machine other) :
    other.fault? instruction = machine.fault? instruction := by
  cases instruction with
  | ret =>
      have stack : other.stack = machine.stack := same .stack (by simp [Instruction.reads])
      simp only [fault?, stack]
  | call target =>
      have stack : other.stack = machine.stack := same .stack (by simp [Instruction.reads])
      simp only [fault?, stack]
  | skipIf condition =>
      cases condition with
      | keyDown x =>
          have registers : other.registers = machine.registers :=
            same .registers (by simp [Instruction.reads, Condition.reads])
          simp only [fault?, keyFault?, registers]
      | keyUp x =>
          have registers : other.registers = machine.registers :=
            same .registers (by simp [Instruction.reads, Condition.reads])
          simp only [fault?, keyFault?, registers]
      | _ => rfl
  | draw x y height =>
      have index : other.index = machine.index := same .index (by simp [Instruction.reads])
      simp only [fault?, rangeFault?, index]
  | storeDecimal x =>
      have index : other.index = machine.index := same .index (by simp [Instruction.reads])
      simp only [fault?, rangeFault?, index]
  | storeRegisters last =>
      have index : other.index = machine.index := same .index (by simp [Instruction.reads])
      simp only [fault?, rangeFault?, index]
  | loadRegisters last =>
      have index : other.index = machine.index := same .index (by simp [Instruction.reads])
      simp only [fault?, rangeFault?, index]
  | _ => rfl

theorem storeAtIndex_effect {bytes : List UInt8} (index : other.index = machine.index)
    (memory : other.memory = machine.memory) :
    (other.storeAtIndex bytes).machine.memory = (machine.storeAtIndex bytes).machine.memory := by
  simp only [storeAtIndex, index, memory]
  cases Memory.checkRange machine.index bytes.length with
  | error fault => exact memory
  | ok _ => rfl

/-- What an instruction writes to a part, instruction by instruction. -/
theorem apply_effect {part : Part} (same : AgreeOn instruction.reads machine other)
    (agree : machine.Agree other part) (written : part ∈ instruction.writes) :
    (machine.apply instruction).machine.Agree (other.apply instruction).machine part := by
  cases instruction with
  | clearScreen =>
      rw [List.mem_singleton.mp written]
      exact rfl
  | ret =>
      have stack : other.stack = machine.stack := same .stack (by simp [Instruction.reads])
      simp only [apply, leave, stack]
      cases machine.stack.pop with
      | error fault => exact agree
      | ok popped =>
          rcases List.mem_pair.mp written with rfl | rfl
          · exact rfl
          · exact rfl
  | jump target =>
      rw [List.mem_singleton.mp written]
      exact rfl
  | call target =>
      have stack : other.stack = machine.stack := same .stack (by simp [Instruction.reads])
      have pc : other.pc = machine.pc := same .pc (by simp [Instruction.reads])
      simp only [apply, enter, stack, pc]
      cases machine.stack.push machine.pc with
      | error fault => exact agree
      | ok pushed =>
          rcases List.mem_pair.mp written with rfl | rfl
          · exact rfl
          · exact rfl
  | skipIf condition =>
      rw [List.mem_singleton.mp written] at agree ⊢
      have pc : other.pc = machine.pc := agree
      simp only [apply, skipIf, holds_of_same same]
      cases condition.holds machine with
      | error fault => exact pc
      | ok taken =>
          cases taken with
          | false => exact pc
          | true => exact congrArg Address.next pc
  | setByte x byte =>
      rw [List.mem_singleton.mp written] at agree ⊢
      exact congrArg (fun registers : Registers => registers.set x byte) agree
  | addByte x byte =>
      rw [List.mem_singleton.mp written] at agree ⊢
      exact congrArg (fun registers : Registers => registers.add x byte) agree
  | combine op x y =>
      rw [List.mem_singleton.mp written] at agree ⊢
      exact congrArg (fun registers : Registers => registers.combine op x y) agree
  | setIndex address =>
      rw [List.mem_singleton.mp written]
      exact rfl
  | jumpOffset address =>
      have registers : other.registers = machine.registers :=
        same .registers (by simp [Instruction.reads])
      rw [List.mem_singleton.mp written]
      exact congrArg (fun registers : Registers => address + (registers.get 0).toUInt16) registers
  | random x mask =>
      have random : other.random = machine.random := same .random (by simp [Instruction.reads])
      rcases List.mem_pair.mp written with rfl | rfl
      · exact congrArg (fun random : WordSource => random.nextByte.2) random
      · have registers : other.registers = machine.registers := agree
        simp only [Agree, apply, randomize, Outcome.done_machine, random, registers]
  | draw x y height =>
      have registers : other.registers = machine.registers :=
        same .registers (by simp [Instruction.reads])
      have index : other.index = machine.index := same .index (by simp [Instruction.reads])
      have memory : other.memory = machine.memory := same .memory (by simp [Instruction.reads])
      have screen : other.screen = machine.screen := same .screen (by simp [Instruction.reads])
      simp only [apply, drawAtIndex, registers, index, memory, screen]
      cases machine.memory.slice machine.index height.toNat with
      | error fault => exact agree
      | ok sprite => rcases List.mem_pair.mp written with rfl | rfl <;> exact rfl
  | readDelay x =>
      have delay : other.delay = machine.delay := same .delay (by simp [Instruction.reads])
      rw [List.mem_singleton.mp written] at agree ⊢
      have registers : other.registers = machine.registers := agree
      simp only [Agree, apply, setRegister, Outcome.done_machine, delay, registers]
  | awaitKey x =>
      rw [List.mem_singleton.mp written]
      exact rfl
  | setDelay x =>
      have registers : other.registers = machine.registers :=
        same .registers (by simp [Instruction.reads])
      rw [List.mem_singleton.mp written]
      exact congrArg (fun registers : Registers => Timer.mk (registers.get x)) registers
  | setSound x =>
      have registers : other.registers = machine.registers :=
        same .registers (by simp [Instruction.reads])
      rw [List.mem_singleton.mp written]
      exact congrArg (fun registers : Registers => Timer.mk (registers.get x)) registers
  | addToIndex x =>
      have registers : other.registers = machine.registers :=
        same .registers (by simp [Instruction.reads])
      rw [List.mem_singleton.mp written] at agree ⊢
      have index : other.index = machine.index := agree
      simp only [Agree, apply, Outcome.done_machine, index, registers]
  | pointAtGlyph x =>
      have registers : other.registers = machine.registers :=
        same .registers (by simp [Instruction.reads])
      rw [List.mem_singleton.mp written]
      simp only [Agree, apply, Outcome.done_machine, registers]
  | storeDecimal x =>
      have registers : other.registers = machine.registers :=
        same .registers (by simp [Instruction.reads])
      rw [List.mem_singleton.mp written] at agree ⊢
      rw [apply, apply, registers]
      exact storeAtIndex_effect (same .index (by simp [Instruction.reads])) agree
  | storeRegisters last =>
      have registers : other.registers = machine.registers :=
        same .registers (by simp [Instruction.reads])
      rw [List.mem_singleton.mp written] at agree ⊢
      rw [apply, apply, registers]
      exact storeAtIndex_effect (same .index (by simp [Instruction.reads])) agree
  | loadRegisters last =>
      have index : other.index = machine.index := same .index (by simp [Instruction.reads])
      have memory : other.memory = machine.memory := same .memory (by simp [Instruction.reads])
      rw [List.mem_singleton.mp written] at agree ⊢
      simp only [apply, loadAtIndex, index, memory]
      cases machine.memory.slice machine.index (last.toNat + 1) with
      | error fault => exact agree
      | ok values =>
          exact congrArg (fun registers : Registers => registers.setFrom 0 values) agree
  | unknown opcode =>
      rw [List.mem_singleton.mp written] at agree ⊢
      exact congrArg (fun count : UInt64 => count + 1) agree

end Instructions

theorem Agree.withMode {first second : Machine} {part : Part} (same : first.Agree second part)
    (mode : Mode) : Agree { first with mode } { second with mode } part := by
  cases part with
  | mode => exact rfl
  | _ => exact same

theorem agree_withMode {part : Part} (machine : Machine) (mode : Mode)
    (other : part ∉ [.mode]) : machine.Agree { machine with mode } part := by
  cases part with
  | mode => exact absurd List.mem_cons_self other
  | _ => exact rfl

theorem Agree.poised {first second : Machine} {part : Part} (same : first.Agree second part)
    (call : Call) : (first.poised call).Agree (second.poised call) part := by
  cases call with
  | step =>
      cases part with
      | pc => exact congrArg Address.next same
      | _ => exact same
  | _ => exact same

theorem agree_poised {part : Part} (machine : Machine) (call : Call) (other : part ≠ .pc) :
    machine.Agree (machine.poised call) part := by
  cases call with
  | step =>
      cases part with
      | pc => exact absurd rfl other
      | _ => exact rfl
  | _ => exact AgreeOn.refl [part] machine part List.mem_cons_self

section Operations

variable {Result : Type} {machine : Machine} {operation : Machine → Outcome Result}
  {reads writes : List Part}

/-- Where nothing is written the effect follows from the frame. -/
theorem Footprint.of_written
    (frame : ∀ other, AgreeOn reads machine other → ∀ part, part ∉ writes →
      other.Agree (operation other).machine part)
    (answer : ∀ other, AgreeOn reads machine other →
      (operation other).result = (operation machine).result)
    (effect : ∀ other, AgreeOn reads machine other → ∀ part ∈ writes, machine.Agree other part →
      (operation machine).machine.Agree (operation other).machine part) :
    Footprint operation machine reads writes where
  frame := frame
  answer := answer
  effect := by
    intro other same part agree
    by_cases written : part ∈ writes
    · exact effect other same part written agree
    · have here := frame machine (.refl reads machine) part written
      have there := frame other same part written
      exact (here.symm.trans agree).trans there

theorem Footprint.of_local {answer : Except Fault Result}
    (answered : ∀ start, (operation start).result = answer)
    (frame : ∀ (start : Machine) part, part ∉ writes → start.Agree (operation start).machine part)
    (effect : ∀ first second part, first.Agree second part →
      (operation first).machine.Agree (operation second).machine part) :
    Footprint operation machine [] writes where
  frame := fun other _ part unwritten => frame other part unwritten
  answer := fun other _ => (answered other).trans (answered machine).symm
  effect := fun other _ part agree => effect machine other part agree

theorem Footprint.congr {actual : Machine → Outcome Result} {moreReads moreWrites : List Part}
    (footprint : Footprint operation machine reads writes) (readsToo : reads ⊆ moreReads)
    (writesToo : writes ⊆ moreWrites)
    (acts : ∀ other, AgreeOn moreReads machine other →
      (actual other).result = (operation other).result ∧
        (actual other).machine = (operation other).machine) :
    Footprint actual machine moreReads moreWrites := by
  have here := acts machine (.refl moreReads machine)
  have narrow : ∀ other, AgreeOn moreReads machine other → AgreeOn reads machine other :=
    fun other same part member => same part (readsToo member)
  refine ⟨?_, ?_, ?_⟩
  · intro other same part unwritten
    rw [(acts other same).2]
    exact footprint.frame other (narrow other same) part
      (fun member => unwritten (writesToo member))
  · intro other same
    rw [(acts other same).1, here.1]
    exact footprint.answer other (narrow other same)
  · intro other same part agree
    rw [(acts other same).2, here.2]
    exact footprint.effect other (narrow other same) part agree

theorem Footprint.map {Other : Type} (footprint : Footprint operation machine reads writes)
    (change : Result → Other) :
    Footprint (fun start => (operation start).map change) machine reads writes where
  frame := footprint.frame
  answer := fun other same => congrArg (Except.map change) (footprint.answer other same)
  effect := footprint.effect

theorem Footprint.of_poised {call : Call}
    (footprint : Footprint operation (machine.poised call) reads writes) :
    Footprint (fun start => operation (start.poised call)) machine reads (.pc :: writes) := by
  have ready : ∀ other, AgreeOn reads machine other →
      AgreeOn reads (machine.poised call) (other.poised call) :=
    fun other same part member => (same part member).poised call
  refine ⟨?_, ?_, ?_⟩
  · intro other same part unwritten
    have moved := agree_poised other call (List.ne_of_not_mem_cons unwritten)
    have kept := footprint.frame (other.poised call) (ready other same) part
      (List.not_mem_of_not_mem_cons unwritten)
    exact moved.trans kept
  · intro other same
    exact footprint.answer (other.poised call) (ready other same)
  · intro other same part agree
    exact footprint.effect (other.poised call) (ready other same) part (agree.poised call)

end Operations

section Steps

variable (machine : Machine) (instruction : Instruction)

theorem failed_footprint {Result : Type} (fault : Fault) :
    Footprint (fun start => (.failed start fault : Outcome Result)) machine [] [] :=
  .of_local (fun _ => rfl) (fun start part _ => AgreeOn.refl [part] start part (by simp))
    (fun _ _ _ agree => agree)

theorem done_footprint {Result : Type} (value : Result) :
    Footprint (fun start => .done start value) machine [] [] :=
  .of_local (fun _ => rfl) (fun start part _ => AgreeOn.refl [part] start part (by simp))
    (fun _ _ _ agree => agree)

theorem mode_footprint {Result : Type} (answer : Except Fault Result) (mode : Mode) :
    Footprint (fun start => ⟨answer, { start with mode }, []⟩) machine [] [.mode] :=
  .of_local (fun _ => rfl) (fun start _ other => agree_withMode start mode other)
    (fun _ _ _ agree => agree.withMode mode)

theorem apply_footprint :
    Footprint (fun start => start.apply instruction) machine instruction.reads
      instruction.writes := by
  apply Footprint.of_written
  · intro other _ part unwritten
    exact apply_agree other unwritten
  · intro other same
    have verdict := fault?_of_same same
    cases found : machine.fault? instruction with
    | none => rw [apply_of_no_fault found, apply_of_no_fault (verdict.trans found)]
    | some fault =>
        rw [apply_of_fault found, apply_of_fault (verdict.trans found)]
        exact rfl
  · intro other same part written agree
    exact apply_effect same agree written

def performReads : List Part :=
  match machine.mode with
  | .running => .mode :: instruction.reads
  | _ => [.mode]

/-- A fault writes the mode. -/
def performWrites : List Part :=
  match machine.mode with
  | .running => .mode :: instruction.writes
  | _ => []

theorem perform_footprint :
    Footprint (fun start => start.perform instruction) machine
      (machine.performReads instruction) (machine.performWrites instruction) := by
  unfold performReads performWrites
  cases current : machine.mode with
  | halted =>
      apply (failed_footprint machine .halted).congr (by simp) (by simp)
      intro other same
      have mode : other.mode = machine.mode := same .mode List.mem_cons_self
      rw [perform_of_halted (mode.trans current)]
      exact ⟨rfl, rfl⟩
  | awaitingKey register waited =>
      apply (done_footprint machine ()).congr (by simp) (by simp)
      intro other same
      have mode : other.mode = machine.mode := same .mode List.mem_cons_self
      rw [perform_of_awaiting (mode.trans current)]
      exact ⟨rfl, rfl⟩
  | running =>
      cases verdict : machine.fault? instruction with
      | none =>
          apply (apply_footprint machine instruction).congr (by simp) (by simp)
          intro other same
          have mode : other.mode = machine.mode := same .mode List.mem_cons_self
          have fault := fault?_of_same (agreeOn_cons.mp same).2
          rw [perform_of_no_fault (mode.trans current) (fault.trans verdict)]
          exact ⟨rfl, rfl⟩
      | some found =>
          apply (mode_footprint machine (.error found) .halted).congr (by simp) (by simp)
          intro other same
          have mode : other.mode = machine.mode := same .mode List.mem_cons_self
          have fault := fault?_of_same (agreeOn_cons.mp same).2
          rw [perform_of_fault (mode.trans current) (fault.trans verdict)]
          exact ⟨rfl, rfl⟩

/-- What a step looks at. The instruction that it fetches comes from memory at the counter. -/
def stepReads : List Part :=
  match machine.mode with
  | .running => .mode :: .memory :: .pc :: (machine.issue? .step).elim [] Instruction.reads
  | .awaitingKey _ _ => [.mode, .config]
  | .halted => [.mode]

def stepWrites : List Part :=
  match machine.mode with
  | .running => .pc :: .mode :: (machine.issue? .step).elim [] Instruction.writes
  | .awaitingKey _ _ => [.mode]
  | .halted => []

theorem step_footprint :
    Footprint Machine.step machine machine.stepReads machine.stepWrites := by
  unfold stepReads stepWrites
  cases current : machine.mode with
  | halted =>
      apply (failed_footprint machine .halted).congr (by simp) (by simp)
      intro other same
      have mode : other.mode = machine.mode := same .mode List.mem_cons_self
      rw [step_of_halted (mode.trans current)]
      exact ⟨rfl, rfl⟩
  | awaitingKey register waited =>
      have acts : ∀ other, AgreeOn [.mode, .config] machine other →
          other.step = other.waitOn register waited ∧
            (other.Expires waited ↔ machine.Expires waited) := by
        intro other same
        have mode : other.mode = machine.mode := same .mode (by simp)
        have config : other.config = machine.config := same .config (by simp)
        rw [step_of_awaiting (mode.trans current), Expires, Expires, config]
        exact ⟨rfl, Iff.rfl⟩
      by_cases ended : machine.Expires waited
      · apply (mode_footprint machine (.ok ()) .running).congr (by simp) (by simp)
        intro other same
        obtain ⟨waits, alike⟩ := acts other same
        rw [waits]
        exact waitOn_of_expired register (alike.mpr ended)
      · apply (mode_footprint machine (.ok ())
          (.awaitingKey register (lengthened waited))).congr (by simp) (by simp)
        intro other same
        obtain ⟨waits, alike⟩ := acts other same
        rw [waits]
        exact waitOn_of_lasting register (fun there => ended (alike.mp there))
  | running =>
      cases read : machine.memory.word machine.pc with
      | error fault =>
          apply (mode_footprint machine (.error fault) .halted).congr (by simp) (by simp)
          intro other same
          have mode : other.mode = machine.mode := same .mode (by simp)
          have memory : other.memory = machine.memory := same .memory (by simp)
          have pc : other.pc = machine.pc := same .pc (by simp)
          have unread : other.memory.word other.pc = .error fault := by rw [memory, pc, read]
          rw [step_of_unreadable (mode.trans current) unread]
          exact ⟨rfl, rfl⟩
      | ok opcode =>
          have issued := issue?_of_word read
          have ready : (machine.poised .step).mode = .running :=
            (poised_mode machine .step).trans current
          have performed := perform_footprint (machine.poised .step) (.decode opcode)
          rw [performReads, performWrites, ready] at performed
          rw [issued]
          apply performed.of_poised.congr
          · intro part member
            rcases List.mem_cons.mp member with rfl | looked
            · exact List.mem_cons_self
            · simp [looked]
          · simp
          · intro other same
            have mode : other.mode = machine.mode := same .mode (by simp)
            have memory : other.memory = machine.memory := same .memory (by simp)
            have pc : other.pc = machine.pc := same .pc (by simp)
            have readThere : other.memory.word other.pc = .ok opcode := by rw [memory, pc, read]
            rw [step_of_word (mode.trans current) readThere]
            exact ⟨rfl, rfl⟩

theorem mem_elim {issued : Option Instruction} {table : Instruction → List Part} {part : Part}
    (member : part ∈ issued.elim [] table) :
    ∃ instruction, issued = some instruction ∧ part ∈ table instruction := by
  cases issued with
  | none => cases member
  | some instruction => exact ⟨instruction, rfl, member⟩

theorem mem_performReads {part : Part} (looked : part ∈ machine.performReads instruction) :
    part = .mode ∨ machine.mode = .running ∧ part ∈ instruction.reads := by
  unfold performReads at looked
  split at looked
  next running => exact (List.mem_cons.mp looked).imp_right fun own => ⟨running, own⟩
  next => exact .inl (List.mem_singleton.mp looked)

theorem mem_performWrites {part : Part} (written : part ∈ machine.performWrites instruction) :
    part = .mode ∨ machine.mode = .running ∧ part ∈ instruction.writes := by
  unfold performWrites at written
  split at written
  next running => exact (List.mem_cons.mp written).imp_right fun own => ⟨running, own⟩
  next => cases written

theorem mem_stepReads {part : Part} (looked : part ∈ machine.stepReads) :
    part ∈ [.config, .mode, .memory, .pc] ∨
      ∃ instruction, machine.begun? .step = some instruction ∧ part ∈ instruction.reads := by
  unfold stepReads at looked
  split at looked
  next running =>
    rcases List.mem_append.mp (show part ∈ [.mode, .memory, .pc] ++ _ from looked) with own | own
    · exact .inl (List.mem_cons_of_mem .config own)
    · obtain ⟨instruction, issued, inside⟩ := mem_elim own
      exact .inr ⟨instruction, begun?_eq_some.mpr ⟨running, issued⟩, inside⟩
  next =>
    rcases List.mem_pair.mp looked with rfl | rfl
    · exact .inl (by simp)
    · exact .inl (by simp)
  next =>
    rw [List.mem_singleton.mp looked]
    exact .inl (by simp)

theorem mem_stepWrites {part : Part} (written : part ∈ machine.stepWrites) :
    part ∈ [.pc, .mode] ∨
      ∃ instruction, machine.begun? .step = some instruction ∧ part ∈ instruction.writes := by
  unfold stepWrites at written
  split at written
  next running =>
    rcases List.mem_append.mp (show part ∈ [.pc, .mode] ++ _ from written) with own | own
    · exact .inl own
    · obtain ⟨instruction, issued, inside⟩ := mem_elim own
      exact .inr ⟨instruction, begun?_eq_some.mpr ⟨running, issued⟩, inside⟩
  next =>
    rw [List.mem_singleton.mp written]
    exact .inl (by simp)
  next => cases written

end Steps

end Machine

end Chip8
