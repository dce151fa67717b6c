import Chip8.Proofs.Machine.HostFootprints
import Chip8.Proofs.Machine.Modes

/-!
Which calls can change places. Neither the clock nor the keys disturb an instruction that does not
look at them, whether it is carried out, fails, is refused or passes as a step of a wait. Two keys
never disturb each other, except that the first of them to go down ends a wait.
-/

namespace Chip8

theorem Keypad.put_comm (keypad : Keypad) {first second : UInt8} {down after : Bool}
    (apart : first ≠ second ∨ down = after) :
    (keypad.put first down).put second after = (keypad.put second after).put first down := by
  by_cases same : first = second
  · rcases apart with differ | equal
    · exact absurd same differ
    · rw [same, equal]
  · have places : first.toNat ≠ second.toNat := fun equal => same (UInt8.toNat_inj.mp equal)
    unfold put
    split
    next one =>
      split
      next two => rw [Vector.set_comm _ _ places]
      next => rfl
    next => rfl

namespace Machine

/-- Two operations commute on a machine: in either order they leave it in the same state, and each
of them is answered as in the other order. -/
structure Commute {First Second : Type} (machine : Machine) (first : Machine → Outcome First)
    (second : Machine → Outcome Second) : Prop where
  state : (second (first machine).machine).machine = (first (second machine).machine).machine
  firstAnswer : (first (second machine).machine).result = (first machine).result
  secondAnswer : (second (first machine).machine).result = (second machine).result

section Footprints

variable {First Second : Type} {machine : Machine} {first : Machine → Outcome First}
  {second : Machine → Outcome Second} {firstReads firstWrites secondReads secondWrites : List Part}

theorem Footprint.undisturbed (one : Footprint first machine firstReads firstWrites)
    (apart : ∀ part ∈ firstWrites, part ∉ secondReads) :
    AgreeOn secondReads machine (first machine).machine := by
  intro part looked
  exact one.frame machine (.refl firstReads machine) part
    (fun written => apart part written looked)

theorem Footprint.agree_of_unwritten (one : Footprint first machine firstReads firstWrites)
    (two : Footprint second machine secondReads secondWrites)
    (oneApart : ∀ part ∈ firstWrites, part ∉ secondReads)
    (twoApart : ∀ part ∈ secondWrites, part ∉ firstReads) {part : Part}
    (unwritten : part ∉ firstWrites) :
    (second (first machine).machine).machine.Agree (first (second machine).machine).machine
      part := by
  have kept := one.frame machine (.refl firstReads machine) part unwritten
  have later := one.frame (second machine).machine (two.undisturbed twoApart) part unwritten
  have done := two.effect (first machine).machine (one.undisturbed oneApart) part kept
  exact done.symm.trans later

/-- Operations commute if neither writes what the other looks at and if the parts that both of them
write are the same in either order. -/
theorem Commute.of_footprints (one : Footprint first machine firstReads firstWrites)
    (two : Footprint second machine secondReads secondWrites)
    (oneApart : ∀ part ∈ firstWrites, part ∉ secondReads)
    (twoApart : ∀ part ∈ secondWrites, part ∉ firstReads)
    (overlap : ∀ part ∈ firstWrites, part ∈ secondWrites →
      (second (first machine).machine).machine.Agree (first (second machine).machine).machine
        part) :
    Commute machine first second where
  state := by
    apply eq_of_agree
    intro part
    by_cases byFirst : part ∈ firstWrites
    · by_cases bySecond : part ∈ secondWrites
      · exact (overlap part byFirst bySecond).symm
      · exact two.agree_of_unwritten one twoApart oneApart bySecond
    · exact (one.agree_of_unwritten two oneApart twoApart byFirst).symm
  firstAnswer := one.answer (second machine).machine (two.undisturbed twoApart)
  secondAnswer := two.answer (first machine).machine (one.undisturbed oneApart)

theorem Commute.of_apart (one : Footprint first machine firstReads firstWrites)
    (two : Footprint second machine secondReads secondWrites)
    (oneApart : ∀ part ∈ firstWrites, part ∉ secondReads ∧ part ∉ secondWrites)
    (twoApart : ∀ part ∈ secondWrites, part ∉ firstReads) :
    Commute machine first second :=
  .of_footprints one two (fun part written => (oneApart part written).1) twoApart
    (fun part byFirst bySecond => absurd bySecond (oneApart part byFirst).2)

theorem Commute.symm (commute : Commute machine first second) : Commute machine second first where
  state := commute.state.symm
  firstAnswer := commute.secondAnswer
  secondAnswer := commute.firstAnswer

/-- An operation may be replaced by one that does the same here and behind the other operation. -/
theorem Commute.congr {actual : Machine → Outcome First} (commute : Commute machine first second)
    (here : actual machine = first machine)
    (behind : actual (second machine).machine = first (second machine).machine) :
    Commute machine actual second where
  state := by rw [here, behind, commute.state]
  firstAnswer := by rw [here, behind, commute.firstAnswer]
  secondAnswer := by rw [here, commute.secondAnswer]

theorem tick_commute {reads writes : List Part} (footprint : Footprint second machine reads writes)
    (apart : ∀ part ∈ [.delay, .sound], part ∉ reads ∧ part ∉ writes) :
    Commute machine tick second := by
  apply Commute.of_apart (tick_footprint machine) footprint apart
  intro part written looked
  rw [List.mem_singleton.mp looked] at written
  exact (apart .sound (by simp)).2 written

end Footprints

section Steps

variable {machine : Machine}

theorem timers_unused {instruction : Instruction} {part : Part} (timer : part ∈ [.delay, .sound])
    (free : ∀ x, instruction ≠ .readDelay x ∧ instruction ≠ .setDelay x ∧
      instruction ≠ .setSound x) :
    part ∉ instruction.reads ∧ part ∉ instruction.writes := by
  cases instruction with
  | readDelay x => exact absurd rfl (free x).1
  | setDelay x => exact absurd rfl (free x).2.1
  | setSound x => exact absurd rfl (free x).2.2
  | skipIf condition =>
      rcases List.mem_pair.mp timer with rfl | rfl <;>
        cases condition <;> simp [Instruction.reads, Condition.reads, Instruction.writes]
  | _ =>
      rcases List.mem_pair.mp timer with rfl | rfl <;>
        simp [Instruction.reads, Instruction.writes]

theorem keypad_unused {instruction : Instruction}
    (free : ∀ x, instruction ≠ .skipIf (.keyDown x) ∧ instruction ≠ .skipIf (.keyUp x)) :
    .keypad ∉ instruction.reads ∧ .keypad ∉ instruction.writes := by
  cases instruction with
  | skipIf condition =>
      cases condition with
      | keyDown x => exact absurd rfl (free x).1
      | keyUp x => exact absurd rfl (free x).2
      | _ => simp [Instruction.reads, Condition.reads, Instruction.writes]
  | _ => simp [Instruction.reads, Instruction.writes]

/-- A step uses a device only through the instruction that it fetches. -/
theorem step_spares {part : Part} (device : part ∈ [.delay, .sound, .keypad])
    (unused : ∀ instruction, machine.begun? .step = some instruction →
      part ∉ instruction.reads ∧ part ∉ instruction.writes) :
    part ∉ machine.stepReads ∧ part ∉ machine.stepWrites := by
  refine ⟨?_, ?_⟩
  · intro looked
    rcases mem_stepReads machine looked with own | ⟨instruction, begun, inside⟩
    · revert own
      cases part <;> simp at device ⊢
    · exact (unused instruction begun).1 inside
  · intro written
    rcases mem_stepWrites machine written with own | ⟨instruction, begun, inside⟩
    · revert own
      cases part <;> simp at device ⊢
    · exact (unused instruction begun).2 inside

theorem tick_step_commute
    (free : ∀ x, machine.begun? .step ≠ some (.readDelay x) ∧
      machine.begun? .step ≠ some (.setDelay x) ∧ machine.begun? .step ≠ some (.setSound x)) :
    machine.Commute tick step := by
  apply tick_commute (step_footprint machine)
  intro part timer
  apply step_spares
  · rcases List.mem_pair.mp timer with rfl | rfl <;> simp
  · intro instruction begun
    apply timers_unused timer
    intro x
    rw [begun] at free
    simpa using free x

theorem setKey_step_commute (key : UInt8) (down : Bool)
    (free : ∀ x, machine.begun? .step ≠ some (.skipIf (.keyDown x)) ∧
      machine.begun? .step ≠ some (.skipIf (.keyUp x))) :
    machine.Commute (·.setKey key down) step := by
  have spares : .keypad ∉ machine.stepReads ∧ .keypad ∉ machine.stepWrites := by
    apply step_spares (by simp)
    intro instruction begun
    apply keypad_unused
    intro x
    rw [begun] at free
    simpa using free x
  apply Commute.of_apart (setKey_footprint machine key down) (step_footprint machine)
  · intro part written
    rw [List.mem_singleton.mp written]
    exact spares
  · intro part _ looked
    cases looked

theorem keyUp_step_commute (key : UInt8)
    (free : ∀ x, machine.begun? .step ≠ some (.skipIf (.keyDown x)) ∧
      machine.begun? .step ≠ some (.skipIf (.keyUp x))) :
    machine.Commute (·.keyUp key) step :=
  (setKey_step_commute key false free).congr keyUp_eq_setKey keyUp_eq_setKey

theorem step_not_awaiting (free : machine.isAwaitingKey = false)
    (other : ∀ x, machine.begun? .step ≠ some (.awaitKey x)) :
    machine.step.machine.isAwaitingKey = false := by
  by_contra awaits
  obtain ⟨register, waited, awaiting⟩ :=
    awaiting_of_isAwaitingKey (by simpa using awaits)
  have started : (machine.call .step).machine.mode = .awaitingKey register waited := awaiting
  have changed : (machine.call .step).machine.mode ≠ machine.mode := by
    intro same
    rw [isAwaitingKey, ← same, started] at free
    cases free
  have change := change_of_mode_ne changed
  rw [started] at change
  cases mode : machine.mode with
  | running =>
      rw [mode] at change
      cases change with
      | waitStarted issued => exact other register (begun?_eq_some.mpr ⟨mode, issued⟩)
  | awaitingKey register waited =>
      rw [isAwaitingKey, mode] at free
      cases free
  | halted =>
      rw [mode] at change
      cases change

theorem keyDown_step_commute (key : UInt8) (free : machine.isAwaitingKey = false)
    (other : ∀ x, machine.begun? .step ≠ some (.skipIf (.keyDown x)) ∧
      machine.begun? .step ≠ some (.skipIf (.keyUp x)) ∧
      machine.begun? .step ≠ some (.awaitKey x)) :
    machine.Commute (·.keyDown key) step := by
  have still := step_not_awaiting free fun x => (other x).2.2
  have commute := setKey_step_commute key true fun x => ⟨(other x).1, (other x).2.1⟩
  exact commute.congr (keyDown_eq_setKey free) (keyDown_eq_setKey still)

end Steps

section Keys

variable {machine : Machine}

theorem setKey_keypad (machine : Machine) (key : UInt8) (down : Bool) :
    (machine.setKey key down).machine.keypad = machine.keypad.put key down := by
  unfold setKey
  split
  next => rfl
  next outside => exact (Keypad.put_of_le _ down (Nat.not_lt.mp outside)).symm

theorem setKey_isAwaitingKey (machine : Machine) (key : UInt8) (down : Bool) :
    (machine.setKey key down).machine.isAwaitingKey = machine.isAwaitingKey := by
  unfold setKey
  split <;> rfl

theorem keyDown_keypad (machine : Machine) (key : UInt8) :
    (machine.keyDown key).machine.keypad = machine.keypad.put key true := by
  by_cases inside : key.toNat < 16
  · rw [keyDown, Keypad.setDown_eq_put _ _ inside]
    cases machine.mode <;> rfl
  · rw [keyDown_of_outside (Nat.not_lt.mp inside), Outcome.failed_machine,
      Keypad.put_of_le _ true (Nat.not_lt.mp inside)]

/-- The order in which two keys are set does not matter if they are different keys or are set
alike. -/
theorem setKey_setKey_commute {first second : UInt8} {down after : Bool}
    (apart : first ≠ second ∨ down = after) :
    machine.Commute (·.setKey first down) (·.setKey second after) := by
  apply Commute.of_footprints (setKey_footprint machine first down)
    (setKey_footprint machine second after)
  · intro part _ looked
    cases looked
  · intro part _ looked
    cases looked
  · intro part written _
    rw [List.mem_singleton.mp written]
    have places := machine.keypad.put_comm apart
    simp only [Agree, setKey_keypad]
    exact places.symm

theorem keyDown_keyDown_commute (first second : UInt8) (free : machine.isAwaitingKey = false) :
    machine.Commute (·.keyDown first) (·.keyDown second) := by
  have still : ∀ key, (machine.keyDown key).machine.isAwaitingKey = false := by
    intro key
    rw [keyDown_eq_setKey free, setKey_isAwaitingKey, free]
  have plain : machine.Commute (·.setKey first true) (·.setKey second true) :=
    setKey_setKey_commute (.inr rfl)
  -- the presses are put in one at a time, since each needs the other to leave the mode alone
  have half : machine.Commute (·.keyDown first) (·.setKey second true) := by
    apply plain.congr (keyDown_eq_setKey free)
    rw [← keyDown_eq_setKey free]
    exact keyDown_eq_setKey (still second)
  exact (half.symm.congr (keyDown_eq_setKey free) (keyDown_eq_setKey (still first))).symm

theorem keyDown_keyUp_commute {pressed released : UInt8} (apart : pressed ≠ released) :
    machine.Commute (·.keyDown pressed) (·.keyUp released) := by
  apply Commute.of_footprints (keyDown_footprint machine pressed)
    (keyUp_footprint machine released)
  · intro part _ looked
    cases looked
  · intro part written looked
    rw [List.mem_singleton.mp written] at looked
    simp at looked
  · intro part _ written
    rw [List.mem_singleton.mp written]
    have places : (machine.keypad.put pressed true).put released false =
        (machine.keypad.put released false).put pressed true :=
      machine.keypad.put_comm (.inl apart)
    simp only [Agree, keyUp_eq_setKey, setKey_keypad, keyDown_keypad]
    exact places.symm

end Keys

section Clock

variable (machine : Machine) (key : UInt8)

theorem tick_keyDown_commute : machine.Commute tick (·.keyDown key) :=
  tick_commute (keyDown_footprint machine key) (by simp)

theorem tick_keyUp_commute : machine.Commute tick (·.keyUp key) :=
  tick_commute (keyUp_footprint machine key) (by simp)

theorem tick_cancelWait_commute : machine.Commute tick cancelWait :=
  tick_commute (cancelWait_footprint machine) (by simp)

end Clock

/-- Host events commute with each other and with the steps that they do not concern. -/
theorem host_events_commute (machine : Machine) (a b : UInt8) :
    let fetched := machine.begun? .step
    ((∀ x, fetched ≠ some (.readDelay x) ∧ fetched ≠ some (.setDelay x) ∧
        fetched ≠ some (.setSound x)) →
      machine.Commute tick step) ∧
    ((∀ x, fetched ≠ some (.skipIf (.keyDown x)) ∧ fetched ≠ some (.skipIf (.keyUp x))) →
      machine.Commute (·.keyUp a) step) ∧
    (machine.isAwaitingKey = false →
      (∀ x, fetched ≠ some (.skipIf (.keyDown x)) ∧ fetched ≠ some (.skipIf (.keyUp x)) ∧
        fetched ≠ some (.awaitKey x)) →
      machine.Commute (·.keyDown a) step) ∧
    (machine.Commute tick (·.keyDown a) ∧ machine.Commute tick (·.keyUp a) ∧
      machine.Commute tick cancelWait) ∧
    (a ≠ b → machine.Commute (·.keyDown a) (·.keyUp b)) ∧
    (machine.isAwaitingKey = false → machine.Commute (·.keyDown a) (·.keyDown b)) := by
  refine ⟨?clock, ?release, ?press, ?clockKeys, ?keys, ?presses⟩
  case clock => exact tick_step_commute
  case release => exact keyUp_step_commute a
  case press => exact keyDown_step_commute a
  case clockKeys =>
    exact ⟨tick_keyDown_commute machine a, tick_keyUp_commute machine a,
      tick_cancelWait_commute machine⟩
  case keys => exact keyDown_keyUp_commute
  case presses => exact keyDown_keyDown_commute a b

/-- A key off the pad is refused in either order. -/
theorem drawing_commutes_with_the_host :
    let machine := { powerOn {} (.cycle #[]) with memory := ⟨Vector.replicate 4096 0xD1⟩ }
    machine.begun? .step = some (.draw 1 0xD 1) ∧ machine.isAwaitingKey = false ∧
      (3 : UInt8) ≠ 0x10 ∧ machine.Commute tick step ∧ machine.Commute (·.keyUp 3) step ∧
      machine.Commute (·.keyDown 3) step ∧ machine.Commute (·.keyDown 3) (·.keyUp 0x10) ∧
      machine.Commute (·.keyDown 3) (·.keyDown 0x10) := by
  intro machine
  have read : machine.memory.word machine.pc = .ok 0xD1D1 := by
    rw [Memory.word_of_inside _ (show machine.pc.toNat + 1 < 4096 by decide)]
    simp only [machine, Vector.getElem_replicate]
    rfl
  have fetched : machine.begun? .step = some (.draw 1 0xD 1) := by
    rw [begun?_eq_some, issue?_of_word read]
    exact ⟨rfl, rfl⟩
  have free : machine.isAwaitingKey = false := rfl
  have apart : (3 : UInt8) ≠ 0x10 := by decide
  obtain ⟨clock, release, press, _, keys, presses⟩ := host_events_commute machine 3 0x10
  refine ⟨fetched, free, apart, clock ?_, release ?_, press free ?_, keys apart, presses free⟩
  · simp [fetched]
  · simp [fetched]
  · simp [fetched]

end Machine

end Chip8
