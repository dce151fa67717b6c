import Chip8.Proofs.Machine.Execution
import Chip8.Proofs.Machine.Frames
import Mathlib.Algebra.Group.Nat.Defs

/-!
Waiting for a key. From the instruction that starts a wait until a key of the pad goes down, steps
are counted and everything else that would run is dropped, so the program's state stays as it was
when the wait began. The key then goes to the register named first, and the program goes on behind
the instruction. A wait with a limit ends with the step that reaches it, and one without never does.
-/

namespace Chip8

/-- The calls that bring no key, so that a wait outlasts them unless its time runs out. -/
def Call.idle : Call → Bool
  | .step => true
  | .execute _ => true
  | .perform _ => true
  | .keyUp _ => true
  | .release _ => true
  | .tick => true
  | .keyDown key => decide (16 ≤ key.toNat)
  | .press symbol => (Keypad.keyOfSymbol? symbol).isNone
  | _ => false

namespace Machine

/-- All that a program can tell two states of the machine apart by, the keys, the timers and the
mode left aside. -/
structure Undisturbed (before after : Machine) : Prop where
  registers : after.registers = before.registers
  pc : after.pc = before.pc
  index : after.index = before.index
  memory : after.memory = before.memory
  stack : after.stack = before.stack
  screen : after.screen = before.screen
  random : after.random = before.random
  config : after.config = before.config
  unknownCount : after.unknownCount = before.unknownCount

theorem Undisturbed.of_devices (machine : Machine) (keypad : Keypad) (delay sound : Timer)
    (mode : Mode) : Undisturbed machine { machine with keypad, delay, sound, mode } :=
  ⟨rfl, rfl, rfl, rfl, rfl, rfl, rfl, rfl, rfl⟩

theorem Undisturbed.refl (machine : Machine) : Undisturbed machine machine :=
  .of_devices machine machine.keypad machine.delay machine.sound machine.mode

theorem Undisturbed.trans {first second third : Machine} (earlier : Undisturbed first second)
    (later : Undisturbed second third) : Undisturbed first third where
  registers := later.registers.trans earlier.registers
  pc := later.pc.trans earlier.pc
  index := later.index.trans earlier.index
  memory := later.memory.trans earlier.memory
  stack := later.stack.trans earlier.stack
  screen := later.screen.trans earlier.screen
  random := later.random.trans earlier.random
  config := later.config.trans earlier.config
  unknownCount := later.unknownCount.trans earlier.unknownCount

/-- The machine has waited for a number of steps since it was in the state `origin`. -/
structure Waits (origin : Machine) (register : UInt8) (steps : Nat) (machine : Machine) :
    Prop where
  mode : ∃ waited : UInt32,
    machine.mode = .awaitingKey register waited ∧ waited.toNat = min steps 0xFFFFFFFF
  undisturbed : Undisturbed origin machine

theorem lengthened_toNat (waited : UInt32) :
    (lengthened waited).toNat = min (waited.toNat + 1) 0xFFFFFFFF := by
  have bound := waited.toNat_lt
  unfold lengthened
  split
  next full => simp [full]
  next short =>
    have apart : waited.toNat ≠ 0xFFFFFFFF := fun same => short (UInt32.toNat_inj.mp same)
    rw [UInt32.toNat_add]
    simp
    omega

theorem toNat_max_one (limit : UInt32) : (max 1 limit).toNat = max 1 limit.toNat := by
  have one : (1 : UInt32).toNat = 1 := rfl
  change (if 1 ≤ limit then limit else 1).toNat = _
  split
  next above =>
    have atLeast := UInt32.le_iff_toNat_le.mp above
    omega
  next below =>
    have short := mt UInt32.le_iff_toNat_le.mpr below
    omega

section Idle

variable {origin machine : Machine} {register : UInt8} {steps : Nat} {call : Call}

/-- A wait goes on as long as its steps stay below the limit. A limit of zero works as one. -/
theorem Waits.not_expires (waits : Waits origin register steps machine) {waited : UInt32}
    (awaiting : machine.mode = .awaitingKey register waited)
    (inTime : ∀ limit, origin.config.keyWaitTimeout = some limit → steps + 1 < max 1 limit.toNat) :
    ¬ machine.Expires waited := by
  rintro ⟨limit, limited, reached⟩
  obtain ⟨counted, mode, count⟩ := waits.mode
  rw [awaiting] at mode
  cases mode
  rw [waits.undisturbed.config] at limited
  have short := inTime limit limited
  have passed : limit.toNat ≤ (lengthened waited).toNat := UInt32.le_iff_toNat_le.mp reached
  rw [lengthened_toNat, count] at passed
  omega

theorem Waits.executed (waits : Waits origin register steps machine)
    (executes : call.executes = true)
    (inTime : call = .step → ∀ limit,
      origin.config.keyWaitTimeout = some limit → steps + 1 < max 1 limit.toNat) :
    (machine.call call).result = .ok .nothing ∧
      Waits origin register (steps + [call].count .step) (machine.call call).machine := by
  obtain ⟨counted, mode, count⟩ := waits.mode
  have record := Machine.executed machine executes
  generalize (machine.call call).result = result, (machine.call call).machine = left at record ⊢
  cases record with
  | refused halted => simp [mode] at halted
  | dropped awaiting direct =>
      refine ⟨rfl, ?_⟩
      have still : [call].count .step = 0 := List.count_eq_zero.mpr (by simpa using direct.symm)
      rw [still]
      exact waits
  | waited awaiting lasting =>
      rw [mode] at awaiting
      cases awaiting
      refine ⟨rfl, ⟨_, rfl, ?_⟩, waits.undisturbed.trans (.of_devices machine _ _ _ _)⟩
      rw [lengthened_toNat, count]
      simp
      omega
  | expired awaiting ended =>
      rw [mode] at awaiting
      cases awaiting
      exact absurd ended (waits.not_expires mode (inTime rfl))
  | unreadable running => simp [mode] at running
  | faulted running => simp [mode] at running
  | carriedOut running => simp [mode] at running

/-- Without an instruction, an idle call reaches the keys and the timers only. -/
theorem idle_frame (machine : Machine) (idle : call.idle = true) (plain : call.executes = false) :
    ∃ keypad delay sound, (machine.call call).machine = { machine with keypad, delay, sound } := by
  cases call with
  | keyUp key =>
      obtain ⟨keypad, left⟩ := keyUp_frame machine key
      exact ⟨keypad, machine.delay, machine.sound, left⟩
  | release symbol =>
      obtain ⟨keypad, left⟩ := release_frame machine symbol
      exact ⟨keypad, machine.delay, machine.sound, left⟩
  | tick => exact ⟨machine.keypad, machine.delay.tick, machine.sound.tick, rfl⟩
  | keyDown key =>
      have outside : 16 ≤ key.toNat := of_decide_eq_true idle
      rw [Machine.call, Outcome.map_machine, keyDown_of_outside outside]
      exact ⟨machine.keypad, machine.delay, machine.sound, rfl⟩
  | press symbol =>
      have unmapped : Keypad.keyOfSymbol? symbol = none := Option.isNone_iff_eq_none.mp idle
      rw [Machine.call, Outcome.map_machine, press_of_unmapped unmapped]
      exact ⟨machine.keypad, machine.delay, machine.sound, rfl⟩
  | step => cases plain
  | execute opcode => cases plain
  | perform instruction => cases plain
  | _ => cases idle

theorem Waits.idle (waits : Waits origin register steps machine) (idle : call.idle = true)
    (inTime : call = .step → ∀ limit,
      origin.config.keyWaitTimeout = some limit → steps + 1 < max 1 limit.toNat) :
    (call.executes = true → (machine.call call).result = .ok .nothing) ∧
      Waits origin register (steps + [call].count .step) (machine.call call).machine := by
  cases executes : call.executes with
  | true =>
      obtain ⟨result, next⟩ := waits.executed executes inTime
      exact ⟨fun _ => result, next⟩
  | false =>
      refine ⟨nofun, ?_⟩
      obtain ⟨keypad, delay, sound, left⟩ := idle_frame machine idle executes
      have still : [call].count .step = 0 := by
        apply List.count_eq_zero.mpr
        intro member
        rw [← List.mem_singleton.mp member] at executes
        cases executes
      rw [still, left]
      exact ⟨waits.mode, waits.undisturbed.trans (.of_devices machine _ _ _ _)⟩

end Idle

/-- The wait outlasts any row of idle calls with too few steps in it to end it. -/
theorem Waits.after {origin machine : Machine} {register : UInt8} {steps : Nat} {calls : List Call}
    (waits : Waits origin register steps machine) (idle : ∀ call ∈ calls, call.idle = true)
    (inTime : ∀ limit, origin.config.keyWaitTimeout = some limit →
      steps + calls.count .step < max 1 limit.toNat) :
    (∀ entry ∈ machine.transcript calls,
      entry.1.executes = true → entry.2 = .ok .nothing) ∧
      Waits origin register (steps + calls.count .step) (machine.after calls) := by
  induction calls generalizing machine steps with
  | nil => exact ⟨by simp, waits⟩
  | cons call rest induction =>
      have split : (call :: rest).count .step = [call].count .step + rest.count .step := by
        rw [← List.count_append, List.singleton_append]
      have here : call = .step → ∀ limit,
          origin.config.keyWaitTimeout = some limit → steps + 1 < max 1 limit.toNat := by
        intro same limit limited
        have total := inTime limit limited
        rw [same, List.count_cons_self] at total
        omega
      obtain ⟨result, next⟩ := waits.idle (idle call List.mem_cons_self) here
      obtain ⟨results, last⟩ := induction next
        (fun later member => idle later (List.mem_cons_of_mem _ member))
        (fun limit limited => by
          have total := inTime limit limited
          rw [split] at total
          omega)
      rw [Nat.add_assoc, ← split] at last
      refine ⟨?_, last⟩
      intro entry member
      rw [transcript_cons, List.mem_cons] at member
      rcases member with rfl | member
      · exact result
      · exact results entry member

theorem Waits.expires {origin machine : Machine} {register : UInt8} {steps : Nat} {limit : UInt32}
    (waits : Waits origin register steps machine)
    (limited : origin.config.keyWaitTimeout = some limit) (last : steps + 1 = max 1 limit.toNat) :
    machine.call .step = (Outcome.done { machine with mode := .running } .nothing).report
      (.waitExpired register (max 1 limit)) := by
  obtain ⟨waited, awaiting, count⟩ := waits.mode
  have bound := limit.toNat_lt
  have reached : lengthened waited = max 1 limit := by
    apply UInt32.toNat_inj.mp
    rw [lengthened_toNat, count, toNat_max_one]
    omega
  have ended : machine.Expires waited := by
    refine ⟨limit, waits.undisturbed.config ▸ limited, ?_⟩
    rw [UInt32.le_iff_toNat_le, reached, toNat_max_one]
    exact Nat.le_max_right _ _
  rw [call, step_of_awaiting awaiting, waitOn_eq_of_expired register ended, reached]
  rfl

theorem suspended_of_issued {machine : Machine} {start : Call} {register : UInt8}
    (running : machine.mode = .running)
    (issued : machine.issue? start = some (.awaitKey register)) :
    (machine.call start).result = .ok .nothing ∧
      (machine.call start).machine =
        { machine.poised start with mode := .awaitingKey register 0 } :=
  call_of_begun (begun?_eq_some.mpr ⟨running, issued⟩) rfl

theorem resumed_of_pressed {origin machine : Machine} {register key : UInt8} {steps : Nat}
    {arrival : Call} (waits : Waits origin register steps machine)
    (pressed : arrival.pressed? = some key) (inside : key.toNat < 16) :
    let resumed := (machine.call arrival).machine
    resumed.mode = .running ∧ resumed.registers.get register = key ∧
      resumed.keypad.isDown key = .ok true ∧
      Undisturbed { origin with registers := origin.registers.set register key } resumed := by
  obtain ⟨waited, awaiting, count⟩ := waits.mode
  obtain ⟨keypad, accepted, left⟩ := keyDown_of_awaiting inside awaiting
  have same := waits.undisturbed
  rw [call_machine_of_pressed pressed, left]
  refine ⟨rfl, ?_, ?_, ?_⟩
  · rw [Registers.get_set, if_pos rfl]
  · rw [Keypad.isDown_setDown accepted, if_pos rfl]
  · exact { same with registers := by rw [same.registers] }

theorem key_wait_keeps_the_program (machine : Machine) (start : Call) (register : UInt8)
    (calls : List Call) (running : machine.mode = .running)
    (issued : machine.issue? start = some (.awaitKey register))
    (idle : ∀ call ∈ calls, call.idle = true)
    (inTime : ∀ limit, machine.config.keyWaitTimeout = some limit →
      calls.count .step < max 1 limit.toNat) :
    let suspended := (machine.call start).machine
    let waiting := suspended.after calls
    (machine.call start).result = .ok .nothing ∧
    suspended = { machine.poised start with mode := .awaitingKey register 0 } ∧
    (∀ entry ∈ suspended.transcript calls, entry.1.executes = true → entry.2 = .ok .nothing) ∧
    (∃ waited, waiting.mode = .awaitingKey register waited) ∧
    Undisturbed suspended waiting ∧
    ∀ arrival key, arrival.pressed? = some key → key.toNat < 16 →
      let resumed := (waiting.call arrival).machine
      resumed.mode = .running ∧ resumed.registers.get register = key ∧
      resumed.keypad.isDown key = .ok true ∧
      (∀ number : UInt8, number.toNat % 16 ≠ register.toNat % 16 →
        resumed.registers.get number = machine.registers.get number) ∧
      Undisturbed { suspended with registers := suspended.registers.set register key } resumed ∧
      (start = .step → resumed.pc.toNat = machine.pc.toNat + 2) ∧
      (start ≠ .step → resumed.pc = machine.pc) ∧
      ∀ opcode, machine.memory.word resumed.pc = .ok opcode →
        resumed.issue? .step = some (.decode opcode) ∧
        resumed.step.events.head? = some (.fetched resumed.pc (.decode opcode)) := by
  intro suspended waiting
  obtain ⟨result, left⟩ := suspended_of_issued running issued
  have state : suspended = { machine.poised start with mode := .awaitingKey register 0 } := left
  have config : suspended.config = machine.config := by
    rw [state]
    cases start <;> rfl
  have begun : Waits suspended register 0 suspended :=
    ⟨⟨0, congrArg mode left, rfl⟩, .refl suspended⟩
  obtain ⟨results, waits⟩ := begun.after idle (by
    intro limit limited
    rw [Nat.zero_add]
    exact inTime limit (config ▸ limited))
  obtain ⟨waited, awaiting, _⟩ := waits.mode
  refine ⟨result, state, results, ⟨waited, awaiting⟩, waits.undisturbed, ?_⟩
  intro arrival key pressed inside resumed
  obtain ⟨mode, filled, down, undisturbed⟩ := resumed_of_pressed waits pressed inside
  have memory : resumed.memory = machine.memory := by
    rw [undisturbed.memory, state, poised_memory]
  have registers : resumed.registers = machine.registers.set register key := by
    rw [undisturbed.registers, state, poised_registers]
  have pc : resumed.pc = (machine.poised start).pc := by
    rw [undisturbed.pc, state]
  refine ⟨mode, filled, down, ?others, undisturbed, ?stepped, ?direct, ?next⟩
  case others =>
    intro number other
    have apart : Registers.slot register ≠ Registers.slot number :=
      fun same => other (Fin.mk.inj same).symm
    rw [registers, Registers.get_set, if_neg apart]
  case stepped =>
    rintro rfl
    rw [pc, poised_pc_toNat machine issued]
  case direct =>
    intro direct
    rw [pc, poised_pc_of_ne_step machine direct]
  case next =>
    intro opcode read
    exact step_fetches mode (memory ▸ read)

/-- The wait stands in place of two bytes of the font. Neither a second wait nor a key off the pad
takes the place of the key awaited, and the machine goes on with the word behind. -/
theorem first_wait_gets_the_key :
    let machine := { powerOn { keyWaitTimeout := some 2 } (.cycle #[]) with
      pc := 4
      memory := ⟨(Memory.initial.bytes.set 4 0xF3).set 5 0x0A⟩ }
    let waiting := (machine.call .step).machine.after [.step, .execute 0xF50A, .keyDown 0x10]
    let resumed := (waiting.call (.press 'Q')).machine
    resumed.mode = .running ∧ resumed.registers.get 3 = 4 ∧ resumed.registers.get 5 = 0 ∧
      resumed.pc = 6 ∧ resumed.step.events.head? = some (.fetched 6 (.setByte 0 0x20)) := by
  intro machine waiting resumed
  have read : machine.memory.word machine.pc = .ok 0xF30A := by
    rw [Memory.word_of_inside _ (by decide)]
    simp only [machine, Vector.getElem_set, Memory.initial_getElem]
    rfl
  have behind : machine.memory.word 6 = .ok 0x6020 := by
    rw [Memory.word_of_inside _ (by decide)]
    simp only [machine, Vector.getElem_set, Memory.initial_getElem]
    rfl
  have issued : machine.issue? .step = some (.awaitKey 3) := by
    rw [issue?_of_word read]
    rfl
  obtain ⟨_, _, _, _, _, arrives⟩ := key_wait_keeps_the_program machine .step 3
    [.step, .execute 0xF50A, .keyDown 0x10] rfl issued (by decide) (by
      intro limit limited
      cases limited
      decide)
  obtain ⟨mode, filled, _, others, _, stepped, _, next⟩ := arrives (.press 'Q') 4 rfl (by decide)
  have place : (6 : Address).toNat = machine.pc.toNat + 2 := rfl
  have pc := UInt16.toNat_inj.mp ((stepped rfl).trans place.symm)
  obtain ⟨_, traced⟩ := next 0x6020 (by rw [pc, behind])
  rw [pc] at traced
  -- Comparing the two machines field by field would mean running them.
  have same : resumed = (((machine.call .step).machine.after
      [.step, .execute 0xF50A, .keyDown 0x10]).call (.press 'Q')).machine := rfl
  rw [same]
  exact ⟨mode, filled, others 5 (by decide), pc, traced⟩

theorem key_wait_lasts_its_limit (machine : Machine) (register : UInt8) (calls : List Call)
    (awaiting : machine.mode = .awaitingKey register 0)
    (idle : ∀ call ∈ calls, call.idle = true) :
    let waiting := machine.after calls
    let steps := calls.count .step
    (∀ limit, machine.config.keyWaitTimeout = some limit →
      (steps < max 1 limit.toNat →
        ∃ waited, waiting.mode = .awaitingKey register waited ∧ waited.toNat = steps) ∧
      (steps + 1 = max 1 limit.toNat →
        waiting.call .step = (Outcome.done { waiting with mode := .running } .nothing).report
          (.waitExpired register (max 1 limit)))) ∧
    (machine.config.keyWaitTimeout = none →
      ∃ waited, waiting.mode = .awaitingKey register waited ∧
        waited.toNat = min steps (2 ^ 32 - 1)) := by
  intro waiting steps
  have begun : Waits machine register 0 machine := ⟨⟨0, awaiting, rfl⟩, .refl machine⟩
  have lasts : (∀ limit, machine.config.keyWaitTimeout = some limit → steps < max 1 limit.toNat) →
      Waits machine register steps waiting := by
    intro inTime
    have run := (begun.after idle (by simpa only [Nat.zero_add] using inTime)).2
    rwa [Nat.zero_add] at run
  refine ⟨?_, ?_⟩
  · intro limit limited
    have ofLimit : steps < max 1 limit.toNat → Waits machine register steps waiting := by
      intro short
      apply lasts
      intro other same
      cases limited.symm.trans same
      exact short
    refine ⟨?_, ?_⟩
    · intro short
      obtain ⟨waited, mode, count⟩ := (ofLimit short).mode
      have bound := limit.toNat_lt
      exact ⟨waited, mode, by omega⟩
    · intro last
      exact (ofLimit (by omega)).expires limited last
  · intro unlimited
    exact (lasts (by simp [unlimited])).mode

theorem second_step_ends_the_wait :
    let machine := { powerOn { keyWaitTimeout := some 2 } (.cycle #[]) with
      mode := .awaitingKey 3 0 }
    let waiting := machine.after [.step, .execute 0x00EE, .keyDown 0x10, .tick]
    waiting.mode = .awaitingKey 3 1 ∧ (waiting.call .step).result = .ok .nothing ∧
      (waiting.call .step).machine = { waiting with mode := .running } := by
  intro machine waiting
  obtain ⟨lasts, ends⟩ := (key_wait_lasts_its_limit machine 3
    [.step, .execute 0x00EE, .keyDown 0x10, .tick] rfl (by decide)).1 2 rfl
  obtain ⟨waited, mode, count⟩ := lasts (by decide)
  have ended := ends (by decide)
  have once : waited = 1 := UInt32.toNat_inj.mp count
  exact ⟨once ▸ mode, congrArg Outcome.result ended, congrArg Outcome.machine ended⟩

end Machine

end Chip8
