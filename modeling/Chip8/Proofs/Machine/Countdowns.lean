import Chip8.Proofs.Machine.Journal

/-!
What the two countdowns show. A countdown has the value it was last set to less the ticks since then,
and stays at zero once it is there. It is set by an instruction that is carried out and by nothing
else, while the ticks count whether the machine is running or not.
-/

namespace Chip8

inductive Countdown where
  | delay
  | sound
  deriving DecidableEq, Repr

namespace Countdown

def timer (machine : Machine) : Countdown → Timer
  | .delay => machine.delay
  | .sound => machine.sound

def source? (countdown : Countdown) (instruction : Instruction) : Option UInt8 :=
  match countdown, instruction with
  | .delay, .setDelay x => some x
  | .sound, .setSound x => some x
  | _, _ => none

/-- The value that the countdown is set to at a moment, if the instruction that is carried out then
sets it. -/
def setting? (countdown : Countdown) (moment : Moment) : Option UInt8 :=
  (moment.begun?.bind countdown.source?).map moment.found.registers.get

/-- The value that the countdown was set to last, and zero if it never was. -/
def lastSetting (countdown : Countdown) (moments : List Moment) : UInt8 :=
  (moments.filterMap countdown.setting?).getLast?.getD 0

def ticksSince (countdown : Countdown) (moments : List Moment) : Nat :=
  (moments.rtakeWhile fun moment => (countdown.setting? moment).isNone).countP
    fun moment => moment.call == .tick

def remaining (countdown : Countdown) (moments : List Moment) : Nat :=
  (countdown.lastSetting moments).toNat - countdown.ticksSince moments

section Formula

variable {countdown : Countdown} {moments : List Moment} {moment : Moment}

theorem remaining_of_set {value : UInt8} (set : countdown.setting? moment = some value) :
    countdown.remaining (moments ++ [moment]) = value.toNat := by
  have last : countdown.lastSetting (moments ++ [moment]) = value := by
    simp [lastSetting, set]
  have none : countdown.ticksSince (moments ++ [moment]) = 0 := by
    rw [ticksSince, List.rtakeWhile_concat_neg _ _ _ (by simp [set])]
    rfl
  rw [remaining, last, none, Nat.sub_zero]

theorem remaining_of_unset (unset : countdown.setting? moment = none) :
    countdown.remaining (moments ++ [moment]) =
      countdown.remaining moments - [moment.call].count .tick := by
  have same : countdown.lastSetting (moments ++ [moment]) = countdown.lastSetting moments := by
    simp [lastSetting, unset]
  have more : countdown.ticksSince (moments ++ [moment]) =
      countdown.ticksSince moments + [moment.call].count .tick := by
    rw [ticksSince, List.rtakeWhile_concat_pos _ _ _ (by simp [unset]), List.countP_append]
    rfl
  rw [remaining, same, more, Nat.sub_add_eq]
  rfl

end Formula

def part : Countdown → Part
  | .delay => .delay
  | .sound => .sound

section Instructions

variable {countdown : Countdown} {machine : Machine} {instruction : Instruction}

theorem timer_of_agree {later : Machine} (same : machine.Agree later countdown.part) :
    countdown.timer later = countdown.timer machine := by
  cases countdown with
  | delay => exact same
  | sound => exact same

theorem part_unwritten (plain : countdown.source? instruction = none) :
    countdown.part ∉ instruction.writes := by
  cases countdown with
  | delay => cases instruction <;> simp [source?, part, Instruction.writes] at plain ⊢
  | sound => cases instruction <;> simp [source?, part, Instruction.writes] at plain ⊢

theorem timer_of_source {x : UInt8} (sets : countdown.source? instruction = some x) :
    machine.fault? instruction = none ∧
      countdown.timer (machine.apply instruction).machine = ⟨machine.registers.get x⟩ := by
  cases countdown with
  | delay =>
      cases instruction with
      | setDelay y =>
          cases sets
          exact ⟨rfl, rfl⟩
      | _ => cases sets
  | sound =>
      cases instruction with
      | setSound y =>
          cases sets
          exact ⟨rfl, rfl⟩
      | _ => cases sets

end Instructions

section Calls

variable {countdown : Countdown} {machine : Machine} {call : Call}

theorem timer_of_set {value : UInt8} (set : countdown.setting? ⟨machine, call⟩ = some value) :
    countdown.timer (machine.call call).machine = ⟨value⟩ := by
  obtain ⟨x, sourced, rfl⟩ := Option.map_eq_some_iff.mp set
  obtain ⟨instruction, begun, sets⟩ := Option.bind_eq_some_iff.mp sourced
  obtain ⟨clear, timer⟩ := @timer_of_source countdown (machine.poised call) instruction x sets
  rw [(Machine.call_of_begun begun clear).2, timer, Machine.poised_registers]

theorem timer_of_unset (unset : countdown.setting? ⟨machine, call⟩ = none)
    (other : call ≠ .reset ∧ call ≠ .tick) :
    countdown.timer (machine.call call).machine = countdown.timer machine := by
  apply timer_of_agree
  apply Machine.call_keeps (by cases countdown <;> simp [part]) other.1
  · intro plain
    cases call with
    | step => cases plain
    | execute opcode => cases plain
    | perform instruction => cases plain
    | reset => exact absurd rfl other.1
    | tick => exact absurd rfl other.2
    | _ => cases countdown <;> simp [part, Call.writes]
  · intro instruction begun
    apply part_unwritten
    simpa [setting?, Moment.begun?, begun] using unset

theorem timer_of_tick : countdown.timer (machine.call .tick).machine =
    (countdown.timer machine).tick := by
  cases countdown <;> rfl

theorem setting?_of_idle (idle : machine.mode ≠ .running) :
    countdown.setting? ⟨machine, call⟩ = none := by
  have unbegun : machine.begun? call = none := by
    unfold Machine.begun?
    cases mode : machine.mode with
    | running => exact absurd mode idle
    | _ => rfl
  simp [setting?, Moment.begun?, unbegun]

end Calls

theorem count_after (countdown : Countdown) (config : Config) (random : WordSource)
    (calls : List Call) :
    (countdown.timer ((Machine.powerOn config random).after calls)).count.toNat =
      countdown.remaining ((Machine.powerOn config random).sinceReset calls) := by
  refine Machine.sinceReset_induction (motive := fun moments machine =>
    (countdown.timer machine).count.toNat = countdown.remaining moments)
    ?fresh ?next config random calls
  case fresh =>
    intro config random
    cases countdown <;> rfl
  case next =>
    intro moments machine call other induction
    cases setting : countdown.setting? ⟨machine, call⟩ with
    | some value => rw [timer_of_set setting, remaining_of_set setting]
    | none =>
        rw [remaining_of_unset setting, ← induction]
        by_cases tick : call = .tick
        · rw [tick, timer_of_tick, Timer.tick_count, List.count_singleton_self]
        · have still : [call].count .tick = 0 :=
            List.count_eq_zero.mpr (by simpa using Ne.symm tick)
          rw [timer_of_unset setting ⟨other, tick⟩, still, Nat.sub_zero]

end Countdown

namespace Machine

/-- Each countdown is the value it was last set to less the ticks since then, whatever the mode. The
clock tells whether the sound goes on, and an instruction reads the delay as it stands. -/
theorem countdowns_follow_their_history (config : Config) (random : WordSource)
    (calls : List Call) :
    let start := powerOn config random
    let machine := start.after calls
    let recent := start.sinceReset calls
    (∀ countdown : Countdown,
      (countdown.timer machine).count.toNat =
        (countdown.lastSetting recent).toNat - countdown.ticksSince recent) ∧
    (∀ countdown : Countdown,
      (countdown.timer machine.tick.machine).count.toNat = countdown.remaining recent - 1) ∧
    machine.tick.result = .ok (decide (0 < machine.tick.machine.sound.count.toNat)) ∧
    (∀ (countdown : Countdown) call, machine.mode ≠ .running → call.executes = true →
      countdown.timer (machine.call call).machine = countdown.timer machine) ∧
    ∀ call x, machine.begun? call = some (.readDelay x) →
      (machine.call call).result = .ok .nothing ∧
      ((machine.call call).machine.registers.get x).toNat = Countdown.delay.remaining recent := by
  intro start machine recent
  have counts : ∀ countdown : Countdown,
      (countdown.timer machine).count.toNat = countdown.remaining recent :=
    fun countdown => countdown.count_after config random calls
  refine ⟨counts, ?ticking, rfl, ?idle, ?reading⟩
  case ticking =>
    intro countdown
    have ticked : countdown.timer machine.tick.machine = (countdown.timer machine).tick :=
      Countdown.timer_of_tick
    rw [ticked, Timer.tick_count, counts]
  case idle =>
    intro countdown call idle executes
    have other : call ≠ .reset ∧ call ≠ .tick := by
      constructor <;> rintro rfl <;> cases executes
    exact Countdown.timer_of_unset (Countdown.setting?_of_idle idle) other
  case reading =>
    intro call x begun
    obtain ⟨result, carried⟩ := call_of_begun begun rfl
    refine ⟨result, ?_⟩
    rw [carried, ← counts .delay, apply, Outcome.done_machine, setRegister, Registers.get_set,
      if_pos rfl, poised_delay]
    rfl

/-- The delay is set to five and the sound to two. The wait drops the instruction that would set the
delay again, and the clock goes on during it. -/
theorem wait_does_not_stop_the_clock :
    let calls := [.execute 0x6305, .execute 0xF315, .execute 0x6302, .execute 0xF318, .tick,
      .execute 0xF40A, .execute 0xF315, .tick]
    let waiting := (powerOn {} (.cycle #[])).after calls
    let resumed := (powerOn {} (.cycle #[])).after (calls ++ [.tick, .cancelWait])
    waiting.mode ≠ .running ∧ (waiting.call (.execute 0xF315)).machine.delay = waiting.delay ∧
      waiting.delay.count.toNat = 3 ∧ waiting.sound.count.toNat = 0 ∧
      waiting.tick.result = .ok false ∧
      resumed.begun? (.execute 0xF707) = some (.readDelay 7) ∧
      ((resumed.call (.execute 0xF707)).machine.registers.get 7).toNat = 2 := by
  intro calls waiting resumed
  obtain ⟨counts, _, sounding, idle, _⟩ := countdowns_follow_their_history {} (.cycle #[]) calls
  obtain ⟨_, _, _, _, reading⟩ :=
    countdowns_follow_their_history {} (.cycle #[]) (calls ++ [.tick, .cancelWait])
  have waits : waiting.mode ≠ .running := by decide
  have begun : resumed.begun? (.execute 0xF707) = some (.readDelay 7) := rfl
  refine ⟨waits, idle .delay (.execute 0xF315) waits rfl, ?_, ?_, ?_, begun, ?_⟩
  · exact counts .delay
  · exact counts .sound
  · exact sounding
  · exact (reading (.execute 0xF707) 7 begun).2

end Machine

end Chip8
