import Chip8.Proofs.Machine.UnknownOpcodes
import Chip8.Proofs.Memory.Program

/-!
The addresses that the warnings of a step name. A word that cannot be read and an opcode that is
passed over are named by the place where they are. An instruction that fails is named by the place
behind it, since the program counter has moved by then.
-/

namespace Chip8

namespace Event

def warnedAt? : Event → Option Address
  | .unknownSkipped _ address => some address
  | .halting address _ => some address
  | _ => none

/-- The two forms of a warning about an instruction, with the address as it is written in them. -/
theorem message_of_warnedAt? {event : Event} {address : Address}
    (warned : event.warnedAt? = some address) :
    (∃ opcode : Opcode, event.message = "skipping unknown opcode " ++
      Hex.numeral 4 opcode.toNat ++ " at " ++ addressText address) ∨
    ∃ fault : Fault, event.message =
      "halting at " ++ addressText address ++ ": " ++ fault.message := by
  cases event with
  | unknownSkipped opcode _ =>
      cases warned
      exact .inl ⟨opcode, rfl⟩
  | halting _ fault =>
      cases warned
      exact .inr ⟨fault, rfl⟩
  | _ => cases warned

def tracedAt? : Event → Option Address
  | .fetched address _ => some address
  | _ => none

/-- What instructions report that have a meaning and do not fail. -/
inductive Plain : Event → Prop where
  | spriteDrawn (x y : UInt8) (sprite : List UInt8) : Plain (.spriteDrawn x y sprite)
  | waitStarted (register : UInt8) : Plain (.waitStarted register)

section Plain

variable {event : Event} {events : List Event}

theorem Plain.severity_ne (plain : event.Plain) : event.severity ≠ .warn := by
  cases plain <;> nofun

theorem warnedAt?_of_plain (plain : ∀ event ∈ events, event.Plain) :
    events.filterMap warnedAt? = [] := by
  rw [List.filterMap_eq_nil_iff]
  intro event member
  cases plain event member <;> rfl

theorem tracedAt?_of_plain (plain : ∀ event ∈ events, event.Plain) :
    events.filterMap tracedAt? = [] := by
  rw [List.filterMap_eq_nil_iff]
  intro event member
  cases plain event member <;> rfl

end Plain

end Event

namespace Machine

theorem apply_plain (machine : Machine) {instruction : Instruction}
    (known : instruction.isUnknown = false) :
    ∀ event ∈ (machine.apply instruction).events, event.Plain := by
  have silent : ∀ event ∈ ([] : List Event), event.Plain := List.forall_mem_nil _
  cases instruction with
  | unknown opcode => cases known
  | ret =>
      rw [apply, leave]
      split <;> exact silent
  | call target =>
      rw [apply, enter]
      split <;> exact silent
  | skipIf condition =>
      rw [apply, skipIf]
      split <;> exact silent
  | draw x y height =>
      rw [apply, drawAtIndex]
      split
      next => exact silent
      next sprite read => exact List.forall_mem_singleton.mpr (.spriteDrawn _ _ sprite)
  | awaitKey x => exact List.forall_mem_singleton.mpr (.waitStarted x)
  | storeDecimal x =>
      rw [apply, storeAtIndex]
      split <;> exact silent
  | storeRegisters last =>
      rw [apply, storeAtIndex]
      split <;> exact silent
  | loadRegisters last =>
      rw [apply, loadAtIndex]
      split <;> exact silent
  | _ => exact silent

inductive Reported (machine : Machine) : Except Fault Unit → List Event → Prop where
  | unreadable {fault : Fault} (unread : machine.memory.word machine.pc = .error fault) :
      Reported machine (.error fault) [.halting machine.pc fault]
  | failed {opcode : Opcode} {fault : Fault} (read : machine.memory.word machine.pc = .ok opcode) :
      Reported machine (.error fault)
        [.fetched machine.pc (.decode opcode), .halting machine.pc.next fault]
  | unknown {opcode raw : Opcode} (read : machine.memory.word machine.pc = .ok opcode)
      (meaningless : .decode opcode = Instruction.unknown raw) :
      Reported machine (.ok ())
        [.fetched machine.pc (.unknown raw), .unknownSkipped raw machine.pc]
  | carriedOut {opcode : Opcode} {events : List Event}
      (read : machine.memory.word machine.pc = .ok opcode)
      (known : (Instruction.decode opcode).isUnknown = false)
      (plain : ∀ event ∈ events, event.Plain) :
      Reported machine (.ok ()) (.fetched machine.pc (.decode opcode) :: events)

/-- An instruction that is carried out is reported without a warning, unless it has no meaning. -/
theorem reported_of_word {machine : Machine} {opcode : Opcode}
    (read : machine.memory.word machine.pc = .ok opcode) :
    machine.Reported (.ok ()) (.fetched machine.pc (.decode opcode) ::
      ((machine.poised .step).apply (.decode opcode)).events) := by
  cases meaning : (Instruction.decode opcode).isUnknown with
  | false => exact .carriedOut read meaning (apply_plain _ meaning)
  | true =>
      cases decoded : Instruction.decode opcode with
      | unknown raw =>
          -- the counter has moved, and the report takes its way back again
          have back : machine.pc.next - 2 = machine.pc := UInt16.add_sub_cancel _ _
          change machine.Reported (.ok ()) [.fetched machine.pc (.unknown raw),
            .unknownSkipped raw (machine.pc.next - 2)]
          rw [back]
          exact .unknown read decoded
      | _ => rw [decoded] at meaning; cases meaning

theorem step_reported {machine : Machine} (running : machine.mode = .running) :
    machine.Reported machine.step.result machine.step.events := by
  cases read : machine.memory.word machine.pc with
  | error fault =>
      rw [step_of_unreadable running read]
      exact .unreadable read
  | ok opcode =>
      have ready : (machine.poised .step).mode = .running := running
      rw [step_of_word running read]
      cases verdict : (machine.poised .step).fault? (.decode opcode) with
      | some fault =>
          rw [perform_of_fault ready verdict]
          exact .failed read
      | none =>
          rw [perform_of_no_fault ready verdict, apply_of_no_fault verdict]
          exact reported_of_word read

section Addresses

variable {machine : Machine} {result : Except Fault Unit} {events : List Event}

theorem Reported.warned (reported : machine.Reported result events) :
    ∀ event ∈ events, event.severity = .warn →
      ∃ address, event.warnedAt? = some address := by
  cases reported with
  | carriedOut read known plain =>
      intro event member severe
      rcases List.mem_cons.mp member with rfl | later
      · cases severe
      · exact absurd severe (plain event later).severity_ne
  | _ => simp [Event.severity, Event.warnedAt?]

theorem Reported.of_unreadable {fault : Fault} (reported : machine.Reported result events)
    (unread : machine.memory.word machine.pc = .error fault) :
    events.filterMap Event.tracedAt? = [] ∧ events.filterMap Event.warnedAt? = [machine.pc] := by
  cases reported with
  | unreadable _ => exact ⟨rfl, rfl⟩
  | failed read | unknown read _ | carriedOut read _ _ => cases unread.symm.trans read

theorem Reported.of_word {opcode : Opcode} (reported : machine.Reported result events)
    (read : machine.memory.word machine.pc = .ok opcode) :
    events.filterMap Event.tracedAt? = [machine.pc] ∧
      (result = .ok () → events.filterMap Event.warnedAt? =
        if (Instruction.decode opcode).isUnknown then [machine.pc] else []) ∧
      (result ≠ .ok () → events.filterMap Event.warnedAt? = [machine.pc.next] ∧
        machine.pc.next.toNat = machine.pc.toNat + 2) := by
  cases reported with
  | unreadable unread => cases unread.symm.trans read
  | failed _ => exact ⟨rfl, nofun, fun _ => ⟨rfl, next_toNat_of_word read⟩⟩
  | unknown reread meaningless =>
      cases reread.symm.trans read
      rw [meaningless]
      exact ⟨rfl, fun _ => rfl, fun failed => absurd rfl failed⟩
  | @carriedOut _ later reread known plain =>
      cases reread.symm.trans read
      have untraced := Event.tracedAt?_of_plain plain
      have unwarned := Event.warnedAt?_of_plain plain
      rw [known]
      exact ⟨congrArg (machine.pc :: ·) untraced, fun _ => unwarned,
        fun failed => absurd rfl failed⟩

end Addresses

/-- All warnings of a step name the address that the instruction was read from, which is also the
one that the trace names, as long as no instruction fails that has been read. Then the only warning
names the address behind it. -/
theorem only_failing_instructions_are_misnamed (machine : Machine)
    (running : machine.mode = .running) :
    let stepped := machine.step
    let warned := stepped.events.filterMap Event.warnedAt?
    let traced := stepped.events.filterMap Event.tracedAt?
    (∀ event ∈ stepped.events, event.severity = .warn →
      ∃ address, event.warnedAt? = some address ∧
        ((∃ opcode : Opcode, event.message = "skipping unknown opcode " ++
          Hex.numeral 4 opcode.toNat ++ " at " ++ Event.addressText address) ∨
        ∃ fault : Fault, event.message =
          "halting at " ++ Event.addressText address ++ ": " ++ fault.message)) ∧
    (∀ fault, machine.memory.word machine.pc = .error fault →
      traced = [] ∧ warned = [machine.pc]) ∧
    ∀ opcode, machine.memory.word machine.pc = .ok opcode → traced = [machine.pc] ∧
      (stepped.result = .ok () →
        warned = if (Instruction.decode opcode).isUnknown then [machine.pc] else []) ∧
      (stepped.result ≠ .ok () →
        warned = [machine.pc.next] ∧ machine.pc.next.toNat = machine.pc.toNat + 2) := by
  intro stepped warned traced
  have reported : machine.Reported stepped.result stepped.events := step_reported running
  refine ⟨?_, fun _ unread => reported.of_unreadable unread,
    fun _ read => reported.of_word read⟩
  intro event member severe
  obtain ⟨address, warned⟩ := reported.warned event member severe
  exact ⟨address, warned, Event.message_of_warnedAt? warned⟩

/-- The first glyph begins with an opcode that has no meaning, and at the end of memory there is no
whole word. Both are named by their own address. -/
theorem unknown_opcode_is_named_by_its_place :
    let machine := powerOn {} (.cycle #[])
    let last := { machine with pc := 0xFFF }
    machine.mode = .running ∧ last.mode = .running ∧
      machine.memory.word machine.pc = .ok 0xF090 ∧
      machine.step.events.filterMap Event.tracedAt? = [0] ∧
      machine.step.events.filterMap Event.warnedAt? = [0] ∧
      last.memory.word last.pc = .error (.memoryOutOfBounds 0x1000) ∧
      last.step.events.filterMap Event.warnedAt? = [0xFFF] := by
  intro machine last
  have read : machine.memory.word machine.pc = .ok 0xF090 :=
    (Memory.word_of_font 0 (by decide)).trans rfl
  have unread : last.memory.word last.pc = .error (.memoryOutOfBounds 0x1000) :=
    Memory.word_of_outside _ (by decide)
  obtain ⟨_, _, fetched⟩ := only_failing_instructions_are_misnamed machine rfl
  obtain ⟨_, unreadable, _⟩ := only_failing_instructions_are_misnamed last rfl
  have done : machine.step.result = .ok () := by
    rw [step_of_word rfl read, perform_of_no_fault rfl rfl]
    rfl
  obtain ⟨traced, warned, _⟩ := fetched 0xF090 read
  exact ⟨rfl, rfl, read, traced, warned done, unread, (unreadable _ unread).2⟩

/-- A return without a call is read from the start of the program and fails there. It is traced at
that address, and the warning names the next one. -/
theorem failing_return_is_named_by_the_next_place :
    let machine := (powerOn {} (.cycle #[])).after [.load [0x00, 0xEE]]
    machine.mode = .running ∧ machine.pc = 0x200 ∧
      machine.memory.word machine.pc = .ok 0x00EE ∧
      machine.step.events = [.fetched 0x200 .ret, .halting 0x202 .stackUnderflow] ∧
      Event.linesUpTo .trace machine.step.events = ["TRACE 0x200: PopSubroutine",
        "WARN halting at 0x202: stack underflow: return with an empty call stack"] := by
  intro machine
  have read : machine.memory.word machine.pc = .ok 0x00EE :=
    (Memory.holds_overlay Memory.initial.bytes 0x200 [0x00EE] (by decide)).1
  have ready : (machine.poised .step).mode = .running := rfl
  have found : (machine.poised .step).fault? (.decode 0x00EE) = some .stackUnderflow := rfl
  have events : machine.step.events = [.fetched 0x200 .ret, .halting 0x202 .stackUnderflow] := by
    rw [step_of_word rfl read, perform_of_fault ready found]
    rfl
  refine ⟨rfl, rfl, read, events, ?_⟩
  rw [events]
  decide +kernel

end Machine

end Chip8
