import Chip8.Proofs.Machine.Bounds
import Chip8.Proofs.Machine.Failures

/-!
Where one step leads. The program counter moves twice: past the opcode when it is fetched, and then
by what the instruction does. A call saves the counter and a skip adds to it when it has moved once
already, and every condition is read from the machine as it was before the step.
-/

namespace Chip8

def Opcode.Redirects (opcode : Opcode) : Prop :=
  ∃ pattern ∈ ["00EE", "1NNN", "2NNN", "BNNN"], opcode.hasPattern pattern = true

/-- Two skips with the same operands and contrary conditions. -/
def Opcode.Opposes (first second : Opcode) : Prop :=
  first.toNat / 256 % 16 = second.toNat / 256 % 16 ∧
    (first.hasPattern "3XKK" = true ∧ second.hasPattern "4XKK" = true ∧
        first.toNat % 256 = second.toNat % 256 ∨
      first.hasPattern "5XY_" = true ∧ second.hasPattern "9XY_" = true ∧
        first.toNat / 16 % 16 = second.toNat / 16 % 16 ∨
      first.hasPattern "EX9E" = true ∧ second.hasPattern "EXA1" = true)

namespace Machine

def Skips (machine : Machine) (opcode : Opcode) : Prop :=
  let first := machine.registers.get (opcode.toNat / 256 % 16).toUInt8
  let second := machine.registers.get (opcode.toNat / 16 % 16).toUInt8
  opcode.hasPattern "3XKK" = true ∧ first.toNat = opcode.toNat % 256 ∨
  opcode.hasPattern "4XKK" = true ∧ first.toNat ≠ opcode.toNat % 256 ∨
  opcode.hasPattern "5XY_" = true ∧ first = second ∨
  opcode.hasPattern "9XY_" = true ∧ first ≠ second ∨
  opcode.hasPattern "EX9E" = true ∧ machine.keypad.isDown first = .ok true ∨
  opcode.hasPattern "EXA1" = true ∧ machine.keypad.isDown first = .ok false

structure Leads (before after : Machine) (opcode : Opcode) : Prop where
  jump : opcode.hasPattern "1NNN" = true → after.pc.toNat = opcode.toNat % 0x1000
  call : opcode.hasPattern "2NNN" = true → after.pc.toNat = opcode.toNat % 0x1000 ∧
    ∃ saved : Address, saved.toNat = before.pc.toNat + 2 ∧
      after.stack.toList = saved :: before.stack.toList
  ret : opcode.hasPattern "00EE" = true → before.stack.toList = after.pc :: after.stack.toList
  offset : opcode.hasPattern "BNNN" = true →
    after.pc.toNat = opcode.toNat % 0x1000 + (before.registers.get 0).toNat
  skip : before.Skips opcode → after.pc.toNat = before.pc.toNat + 4
  next : ¬ opcode.Redirects → ¬ before.Skips opcode → after.pc.toNat = before.pc.toNat + 2

/-- What an instruction that is carried out does to the program counter. -/
def Moved (before after : Machine) : Instruction → Prop
  | .jump target => after.pc = target
  | .call target => after.pc = target ∧ after.stack.toList = before.pc :: before.stack.toList
  | .ret => before.stack.toList = after.pc :: after.stack.toList
  | .jumpOffset address => after.pc = address + (before.registers.get 0).toUInt16
  | .skipIf condition =>
      ∃ taken, condition.holds before = .ok taken ∧ after.pc = (before.skipWhen taken).pc
  | _ => after.pc = before.pc

section Applied

variable {machine : Machine} {instruction : Instruction}

/-- The instructions that write the program counter, one by one, and all others together. -/
theorem apply_moved (applied : (machine.apply instruction).result = .ok ()) :
    Moved machine (machine.apply instruction).machine instruction := by
  cases instruction with
  | jump target => rfl
  | jumpOffset address => rfl
  | ret =>
      rw [apply, leave] at applied ⊢
      split at applied
      next popped accepted => exact CallStack.toList_pop accepted
      next => cases applied
  | call target =>
      rw [apply, enter] at applied ⊢
      split at applied
      next pushed accepted => exact ⟨rfl, CallStack.toList_push accepted⟩
      next => cases applied
  | skipIf condition =>
      rw [apply, skipIf] at applied ⊢
      split at applied
      next taken holds => exact ⟨taken, holds, rfl⟩
      next => cases applied
  | _ => exact @apply_agree machine _ .pc (by simp [Instruction.writes])

end Applied

section Skipping

variable {machine : Machine} {opcode : Opcode}

theorem holds_congr {other : Machine} (condition : Condition)
    (registers : other.registers = machine.registers) (keypad : other.keypad = machine.keypad) :
    condition.holds other = condition.holds machine := by
  cases condition <;> simp only [Condition.holds, registers, keypad]

theorem keyUp_holds_iff (x : UInt8) : (Condition.keyUp x).holds machine = .ok true ↔
    machine.keypad.isDown (machine.registers.get x) = .ok false := by
  rw [Condition.holds]
  cases machine.keypad.isDown (machine.registers.get x) <;> simp [Except.map]

theorem skips_iff : machine.Skips opcode ↔ ∃ condition,
    Instruction.decode opcode = .skipIf condition ∧ condition.holds machine = .ok true := by
  simp only [Skips, Opcode.register_of_x, Opcode.register_of_y, ← Opcode.byte_toNat,
    UInt8.toNat_inj, ne_eq]
  constructor
  · rintro (⟨has, met⟩ | ⟨has, met⟩ | ⟨has, met⟩ | ⟨has, met⟩ | ⟨has, met⟩ | ⟨has, met⟩)
    · refine ⟨.byteIs opcode.x opcode.byte, Instruction.decode_of_pattern rfl ⟨rfl, rfl⟩ has, ?_⟩
      rw [Condition.holds, beq_iff_eq.mpr met]
    · refine ⟨.byteIsNot opcode.x opcode.byte, Instruction.decode_of_pattern rfl ⟨rfl, rfl⟩ has, ?_⟩
      rw [Condition.holds, bne_iff_ne.mpr met]
    · refine ⟨.same opcode.x opcode.y, Instruction.decode_of_pattern rfl ⟨rfl, rfl⟩ has, ?_⟩
      rw [Condition.holds, beq_iff_eq.mpr met]
    · refine ⟨.differ opcode.x opcode.y, Instruction.decode_of_pattern rfl ⟨rfl, rfl⟩ has, ?_⟩
      rw [Condition.holds, bne_iff_ne.mpr met]
    · exact ⟨.keyDown opcode.x, Instruction.decode_of_pattern rfl rfl has, met⟩
    · exact ⟨.keyUp opcode.x, Instruction.decode_of_pattern rfl rfl has,
        (keyUp_holds_iff opcode.x).mpr met⟩
  · rintro ⟨condition, decoded, holds⟩
    have has : opcode.hasPattern condition.pattern = true :=
      (Instruction.decode_standsFor opcode).pattern _ (by rw [decoded]; rfl)
    have taken := Instruction.decode_takenFrom opcode
    rw [decoded] at taken
    cases condition with
    | byteIs x byte =>
        obtain ⟨rfl, rfl⟩ := taken
        exact .inl ⟨has, by simpa [Condition.holds] using holds⟩
    | byteIsNot x byte =>
        obtain ⟨rfl, rfl⟩ := taken
        exact .inr (.inl ⟨has, by simpa [Condition.holds] using holds⟩)
    | same x y =>
        obtain ⟨rfl, rfl⟩ := taken
        exact .inr (.inr (.inl ⟨has, by simpa [Condition.holds] using holds⟩))
    | differ x y =>
        obtain ⟨rfl, rfl⟩ := taken
        exact .inr (.inr (.inr (.inl ⟨has, by simpa [Condition.holds] using holds⟩)))
    | keyDown x =>
        obtain rfl : x = opcode.x := taken
        exact .inr (.inr (.inr (.inr (.inl ⟨has, holds⟩))))
    | keyUp x =>
        obtain rfl : x = opcode.x := taken
        exact .inr (.inr (.inr (.inr (.inr ⟨has, (keyUp_holds_iff opcode.x).mp holds⟩))))

end Skipping

section Steps

variable {machine : Machine} {opcode : Opcode}

/-- A step moves the program counter past its opcode, and only then carries the instruction out. -/
theorem step_moved (running : machine.mode = .running)
    (read : machine.memory.word machine.pc = .ok opcode) (done : machine.step.result = .ok ()) :
    Moved (machine.movedTo machine.pc.next) machine.step.machine (.decode opcode) := by
  have ready : (machine.poised .step).mode = .running := running
  rw [step_of_word running read] at done ⊢
  cases verdict : (machine.poised .step).fault? (.decode opcode) with
  | some fault =>
      rw [perform_of_fault ready verdict] at done
      cases done
  | none =>
      rw [perform_of_no_fault ready verdict] at done ⊢
      exact apply_moved done

theorem skipWhen_toNat (read : machine.memory.word machine.pc = .ok opcode) (taken : Bool) :
    ((machine.movedTo machine.pc.next).skipWhen taken).pc.toNat =
      machine.pc.toNat + if taken then 4 else 2 := by
  have inside := Memory.inside_of_word read
  have next : machine.pc.next.toNat = machine.pc.toNat + 2 := next_toNat_of_word read
  cases taken with
  | false => exact next
  | true =>
      have twice : machine.pc.next.next.toNat = machine.pc.next.toNat + 2 :=
        Address.next_toNat (by omega)
      change machine.pc.next.next.toNat = machine.pc.toNat + 4
      rw [twice, next]

/-- Each pattern settles the instruction, and the instruction the way the counter has gone. -/
theorem Moved.leads {after : Machine} (read : machine.memory.word machine.pc = .ok opcode)
    (moved : Moved (machine.movedTo machine.pc.next) after (.decode opcode)) :
    machine.Leads after opcode := by
  have next : machine.pc.next.toNat = machine.pc.toNat + 2 := next_toNat_of_word read
  have unmoved : ∀ condition : Condition,
      condition.holds (machine.movedTo machine.pc.next) = condition.holds machine :=
    fun condition => holds_congr condition rfl rfl
  constructor
  case jump =>
    intro has
    have decoded : Instruction.decode opcode = .jump opcode.address :=
      Instruction.decode_of_pattern rfl rfl has
    rw [decoded] at moved
    have pc : after.pc = opcode.address := moved
    rw [pc, Opcode.address_toNat]
  case call =>
    intro has
    have decoded : Instruction.decode opcode = .call opcode.address :=
      Instruction.decode_of_pattern rfl rfl has
    rw [decoded] at moved
    obtain ⟨pc, saved⟩ := moved
    exact ⟨by rw [pc, Opcode.address_toNat], machine.pc.next, next, saved⟩
  case ret =>
    intro has
    have decoded : Instruction.decode opcode = .ret :=
      Instruction.decode_of_pattern rfl trivial has
    rw [decoded] at moved
    exact moved
  case offset =>
    intro has
    have decoded : Instruction.decode opcode = .jumpOffset opcode.address :=
      Instruction.decode_of_pattern rfl rfl has
    rw [decoded] at moved
    have pc : after.pc = opcode.address + (machine.registers.get 0).toUInt16 := moved
    rw [pc, offset_toNat opcode.address_lt, Opcode.address_toNat]
  case skip =>
    intro skips
    obtain ⟨condition, decoded, holds⟩ := skips_iff.mp skips
    rw [decoded] at moved
    obtain ⟨taken, met, pc⟩ := moved
    rw [unmoved, holds] at met
    cases met
    rw [pc, skipWhen_toNat read]
    rfl
  case next =>
    intro plain unmet
    have named : ∀ pattern ∈ ["00EE", "1NNN", "2NNN", "BNNN"],
        (Instruction.decode opcode).pattern? ≠ some pattern := by
      intro pattern listed same
      exact plain ⟨pattern, listed, (Instruction.decode_standsFor opcode).pattern pattern same⟩
    cases decoded : Instruction.decode opcode with
    | ret | jump | call | jumpOffset =>
        rw [decoded] at named
        exact absurd rfl (named _ (by decide))
    | skipIf condition =>
        rw [decoded] at moved
        obtain ⟨taken, met, pc⟩ := moved
        rw [unmoved] at met
        have passed : taken = false := by
          cases taken with
          | false => rfl
          | true => exact absurd (skips_iff.mpr ⟨condition, decoded, met⟩) unmet
        rw [pc, skipWhen_toNat read, passed]
        rfl
    | _ =>
        rw [decoded] at moved
        have pc : after.pc = machine.pc.next := moved
        rw [pc, next]

theorem step_of_holds {condition : Condition} {taken : Bool} (running : machine.mode = .running)
    (read : machine.memory.word machine.pc = .ok opcode)
    (decoded : Instruction.decode opcode = .skipIf condition)
    (holds : condition.holds machine = .ok taken) :
    machine.step.result = .ok () ∧
      machine.step.machine.pc.toNat = machine.pc.toNat + if taken then 4 else 2 := by
  have ready : (machine.poised .step).mode = .running := running
  have met : condition.holds (machine.poised .step) = .ok taken :=
    (holds_congr condition rfl rfl).trans holds
  have applied : (machine.poised .step).apply (.skipIf condition) =
      .done ((machine.poised .step).skipWhen taken) () := by
    rw [apply, skipIf, met]
  have clear : (machine.poised .step).fault? (.skipIf condition) = none := by
    cases verdict : (machine.poised .step).fault? (.skipIf condition) with
    | none => rfl
    | some fault => cases (apply_of_fault verdict).symm.trans applied
  rw [step_of_word running read, decoded, perform_of_no_fault ready clear, applied]
  exact ⟨rfl, skipWhen_toNat read taken⟩

/-- Contrary skips read the same operands and ask for the opposite of each other. -/
theorem holds_of_opposes {first second : Opcode} (machine : Machine)
    (opposes : first.Opposes second)
    (readable : first.hasPattern "EX9E" = true →
      (machine.registers.get (first.toNat / 256 % 16).toUInt8).toNat ≤ 15) :
    ∃ condition contrary taken, Instruction.decode first = .skipIf condition ∧
      Instruction.decode second = .skipIf contrary ∧ condition.holds machine = .ok taken ∧
      contrary.holds machine = .ok (!taken) := by
  rw [Opcode.register_of_x] at readable
  simp only [Opcode.Opposes, ← Opcode.x_toNat, ← Opcode.y_toNat, ← Opcode.byte_toNat,
    UInt8.toNat_inj] at opposes
  obtain ⟨sameX, ⟨has, hasToo, sameByte⟩ | ⟨has, hasToo, sameY⟩ | ⟨has, hasToo⟩⟩ := opposes
  · refine ⟨.byteIs first.x first.byte, .byteIsNot first.x first.byte, _,
      Instruction.decode_of_pattern rfl ⟨rfl, rfl⟩ has,
      Instruction.decode_of_pattern rfl ⟨sameX, sameByte⟩ hasToo, rfl, rfl⟩
  · refine ⟨.same first.x first.y, .differ first.x first.y, _,
      Instruction.decode_of_pattern rfl ⟨rfl, rfl⟩ has,
      Instruction.decode_of_pattern rfl ⟨sameX, sameY⟩ hasToo, rfl, rfl⟩
  · have clear : machine.keyFault? first.x = none :=
      if_pos (Nat.lt_succ_of_le (readable has))
    obtain ⟨down, read⟩ := isDown_of_no_keyFault clear
    refine ⟨.keyDown first.x, .keyUp first.x, down, Instruction.decode_of_pattern rfl rfl has,
      Instruction.decode_of_pattern rfl sameX hasToo, read, ?_⟩
    rw [Condition.holds, read]
    rfl

end Steps

/-- The program counter after a step is settled by the opcode and by the machine before it. Of two
contrary skips with the same operands exactly one is taken. -/
theorem program_counter_follows_opcode (machine : Machine) (running : machine.mode = .running)
    (inside : machine.pc.toNat ≤ 0xFFE) :
    (∃ opcode, machine.memory.word machine.pc = .ok opcode ∧
      (machine.step.result = .ok () → machine.Leads machine.step.machine opcode)) ∧
    ∀ first second : Opcode, first.Opposes second →
      (first.hasPattern "EX9E" = true →
        (machine.registers.get (first.toNat / 256 % 16).toUInt8).toNat ≤ 15) →
      ∀ memory other : Memory, memory.word machine.pc = .ok first →
        other.word machine.pc = .ok second →
        let one := { machine with memory }.step
        let two := { machine with memory := other }.step
        let place := machine.pc.toNat
        one.result = .ok () ∧ two.result = .ok () ∧
          (one.machine.pc.toNat = place + 4 ∧ two.machine.pc.toNat = place + 2 ∨
            one.machine.pc.toNat = place + 2 ∧ two.machine.pc.toNat = place + 4) := by
  constructor
  · have read := @Memory.word_of_inside machine.memory machine.pc (by omega)
    exact ⟨_, read, fun done => (step_moved running read done).leads read⟩
  · intro first second opposes readable memory other read readToo one two place
    obtain ⟨condition, contrary, taken, decoded, decodedToo, holds, fails⟩ :=
      holds_of_opposes machine opposes readable
    obtain ⟨done, pc⟩ := @step_of_holds { machine with memory } first condition taken running read
      decoded ((holds_congr condition rfl rfl).trans holds)
    obtain ⟨doneToo, pcToo⟩ := @step_of_holds { machine with memory := other } second contrary
      (!taken) running readToo decodedToo ((holds_congr contrary rfl rfl).trans fails)
    refine ⟨done, doneToo, ?_⟩
    cases taken with
    | true => exact .inl ⟨pc, pcToo⟩
    | false => exact .inr ⟨pc, pcToo⟩

/-- The word at 1 is two bytes of the font and skips if `V0` and `V9` differ, as they do. With its
first byte changed it skips if they are equal, and the machine goes on with the next word. -/
theorem changed_byte_inverts_a_skip :
    let machine := { powerOn {} (.cycle #[]) with
      pc := 1
      registers := Registers.zero.set 9 1 }
    let changed := { machine with memory := ⟨Memory.initial.bytes.set 1 0x50⟩ }
    machine.step.result = .ok () ∧ machine.step.machine.pc.toNat = 5 ∧
      changed.step.result = .ok () ∧ changed.step.machine.pc.toNat = 3 := by
  intro machine
  have inside : (1 : UInt16).toNat + 1 < 4096 := by decide
  have read : Memory.initial.word 1 = .ok 0x9090 :=
    (Memory.word_of_font 1 (by decide)).trans rfl
  have readToo : (⟨Memory.initial.bytes.set 1 0x50⟩ : Memory).word 1 = .ok 0x5090 := by
    rw [Memory.word_of_inside _ inside]
    simp only [Vector.getElem_set, Memory.initial_getElem]
    rfl
  have opposes : Opcode.Opposes 0x5090 0x9090 :=
    ⟨rfl, .inr (.inl ⟨by decide, by decide, rfl⟩)⟩
  have skips : machine.Skips 0x9090 := .inr (.inr (.inr (.inl ⟨by decide, by decide⟩)))
  obtain ⟨⟨opcode, found, leads⟩, contrary⟩ :=
    program_counter_follows_opcode machine rfl (by decide)
  obtain rfl : 0x9090 = opcode := Except.ok.inj (read.symm.trans found)
  obtain ⟨done, doneToo, pcs⟩ :=
    contrary 0x5090 0x9090 opposes (by decide) _ _ readToo read
  have pc := (leads doneToo).skip skips
  rcases pcs with ⟨_, pcToo⟩ | ⟨pcChanged, _⟩
  · exact absurd (pcToo.symm.trans pc) (by decide)
  · exact ⟨doneToo, pc, done, pcChanged⟩

end Machine

end Chip8
