import Chip8.Proofs.Machine.KeyWait
import Mathlib.Data.List.DropRight

/-!
The mode of the machine as a consequence of its history. `ModeChange` lists the changes of mode
there are, each with the calls that bring it about. The machine is halted exactly if a call that
sets out to carry an instruction out has failed since the last reset, and from the first such
failure on every one of them is refused.
-/

namespace Chip8.Machine

inductive ModeChange (machine : Machine) : Call → Mode → Mode → Prop where
  | waitStarted {call : Call} {register : UInt8}
      (issued : machine.issue? call = some (.awaitKey register)) :
      ModeChange machine call .running (.awaitingKey register 0)
  | faulted {call : Call} {fault : Fault} (executes : call.executes = true)
      (failed : (machine.call call).result = .error fault) :
      ModeChange machine call .running .halted
  | waitedOn {register : UInt8} {waited : UInt32} (lasting : ¬ machine.Expires waited) :
      ModeChange machine .step (.awaitingKey register waited)
        (.awaitingKey register (lengthened waited))
  | expired {register : UInt8} {waited : UInt32} (ended : machine.Expires waited) :
      ModeChange machine .step (.awaitingKey register waited) .running
  | keyArrived {call : Call} {key register : UInt8} {waited : UInt32}
      (pressed : call.pressed? = some key) (inside : key.toNat < 16) :
      ModeChange machine call (.awaitingKey register waited) .running
  | cancelled {register : UInt8} {waited : UInt32} :
      ModeChange machine .cancelWait (.awaitingKey register waited) .running
  | reset {mode : Mode} : ModeChange machine .reset mode .running

/-- What the calls that set out to carry an instruction out have answered since the last reset. -/
def answersSinceReset (machine : Machine) (calls : List Call) : List (Except Fault Reply) :=
  (((machine.transcript calls).rtakeWhile fun entry => entry.1 != .reset).filter
    fun entry => entry.1.executes).map Prod.snd

/-- The answers that go with a mode: all of them good, or good ones up to a fault and refusals
behind it. -/
inductive Accounts : Mode → List (Except Fault Reply) → Prop where
  | alive {mode : Mode} {answers : List (Except Fault Reply)} (alive : mode ≠ .halted)
      (fine : ∀ answer ∈ answers, answer = .ok .nothing) : Accounts mode answers
  | stopped {before : List (Except Fault Reply)} {fault : Fault} {refusals : Nat}
      (fine : ∀ answer ∈ before, answer = .ok .nothing) (fresh : fault ≠ .halted) :
      Accounts .halted (before ++ .error fault :: List.replicate refusals (.error .halted))

theorem executes_of_issued {machine : Machine} {call : Call} {instruction : Instruction}
    (issued : machine.issue? call = some instruction) : call.executes = true := by
  cases call with
  | step => rfl
  | execute opcode => rfl
  | perform instruction => rfl
  | _ => cases issued

section Changes

variable {machine : Machine} {call : Call}

theorem change_of_executed (executes : call.executes = true)
    (changed : (machine.call call).machine.mode ≠ machine.mode) :
    ModeChange machine call machine.mode (machine.call call).machine.mode := by
  have record := executed machine executes
  generalize answered : (machine.call call).result = result,
    (machine.call call).machine = left at record changed ⊢
  cases record with
  | refused halted => exact absurd rfl changed
  | dropped awaiting direct => exact absurd rfl changed
  | waited awaiting lasting =>
      rw [awaiting]
      exact .waitedOn lasting
  | expired awaiting ended =>
      rw [awaiting]
      exact .expired ended
  | unreadable running unread =>
      rw [running]
      exact .faulted executes answered
  | faulted running issued found =>
      rw [running]
      exact .faulted executes answered
  | @carriedOut _ instruction running issued clear =>
      rcases apply_mode (machine.poised call) instruction with same | ⟨register, rfl, started⟩
      · rw [same, poised_mode] at changed
        exact absurd rfl changed
      · rw [running, started]
        exact .waitStarted issued

theorem change_of_pressed {key : UInt8} (pressed : call.pressed? = some key)
    (changed : (machine.call call).machine.mode ≠ machine.mode) :
    ModeChange machine call machine.mode (machine.call call).machine.mode := by
  rw [call_machine_of_pressed pressed] at changed ⊢
  by_cases inside : key.toNat < 16
  · cases mode : machine.mode with
    | awaitingKey register waited =>
        obtain ⟨keypad, accepted, left⟩ := keyDown_of_awaiting inside mode
        rw [left]
        exact .keyArrived pressed inside
    | running =>
        exact absurd (keyDown_mode_of_not_awaiting key (by simp [mode])) changed
    | halted =>
        exact absurd (keyDown_mode_of_not_awaiting key (by simp [mode])) changed
  · rw [keyDown_of_outside (Nat.not_lt.mp inside)] at changed
    exact absurd rfl changed

theorem change_of_mode_ne (changed : (machine.call call).machine.mode ≠ machine.mode) :
    ModeChange machine call machine.mode (machine.call call).machine.mode := by
  have written : .mode ∈ call.writes := by
    by_contra unwritten
    exact changed (call_agree machine unwritten)
  cases call with
  | step => exact change_of_executed rfl changed
  | execute opcode => exact change_of_executed rfl changed
  | perform instruction => exact change_of_executed rfl changed
  | keyDown key => exact change_of_pressed rfl changed
  | press symbol =>
      cases found : Keypad.keyOfSymbol? symbol with
      | some key => exact change_of_pressed found changed
      | none =>
          rw [Machine.call, Outcome.map_machine, press_of_unmapped found] at changed
          exact absurd rfl changed
  | cancelWait =>
      rw [Machine.call, Outcome.map_machine] at changed ⊢
      unfold cancelWait at changed ⊢
      split at changed
      next register waited awaiting =>
        rw [awaiting]
        exact .cancelled
      next => exact absurd rfl changed
  | reset => exact .reset
  | _ => simp [Call.writes] at written

theorem mode_of_faulted {fault : Fault} (executes : call.executes = true)
    (failed : (machine.call call).result = .error fault) :
    (machine.call call).machine.mode = .halted := by
  have record := executed machine executes
  generalize (machine.call call).result = result, (machine.call call).machine = left
    at record failed ⊢
  cases record with
  | refused halted => exact halted
  | unreadable => rfl
  | faulted => rfl
  | _ => cases failed

theorem mode_of_change {next : Mode} (change : ModeChange machine call machine.mode next) :
    (machine.call call).machine.mode = next := by
  generalize current : machine.mode = before at change
  cases change with
  | waitStarted issued => rw [(suspended_of_issued current issued).2]
  | faulted executes failed => exact mode_of_faulted executes failed
  | @waitedOn register waited lasting =>
      have left := (waitOn_of_lasting register lasting).2
      rw [Machine.call, Outcome.map_machine, step_of_awaiting current, left]
  | @expired register waited ended =>
      have left := (waitOn_of_expired register ended).2
      rw [Machine.call, Outcome.map_machine, step_of_awaiting current, left]
  | keyArrived pressed inside =>
      obtain ⟨keypad, accepted, left⟩ := keyDown_of_awaiting inside current
      rw [call_machine_of_pressed pressed, left]
  | cancelled =>
      rw [Machine.call, Outcome.map_machine, cancelWait, current]
      rfl
  | reset => rfl

end Changes

theorem cancelWait_result (machine : Machine) :
    machine.cancelWait.result = .ok machine.isAwaitingKey := by
  unfold cancelWait isAwaitingKey
  cases machine.mode <;> rfl

section History

variable {machine : Machine} {calls : List Call} {call : Call}

theorem answersSinceReset_reset (machine : Machine) (calls : List Call) :
    machine.answersSinceReset (calls ++ [.reset]) = [] := by
  unfold answersSinceReset
  rw [transcript_concat, List.rtakeWhile_concat_neg _ _ _ (by simp)]
  rfl

theorem answersSinceReset_executed (executes : call.executes = true) :
    machine.answersSinceReset (calls ++ [call]) =
      machine.answersSinceReset calls ++ [((machine.after calls).call call).result] := by
  have other : call ≠ .reset := by
    rintro rfl
    cases executes
  unfold answersSinceReset
  rw [transcript_concat, List.rtakeWhile_concat_pos _ _ _ (by simpa using other)]
  simp [executes]

theorem answersSinceReset_plain (plain : call.executes = false) (other : call ≠ .reset) :
    machine.answersSinceReset (calls ++ [call]) = machine.answersSinceReset calls := by
  unfold answersSinceReset
  rw [transcript_concat, List.rtakeWhile_concat_pos _ _ _ (by simpa using other)]
  simp [plain]

theorem Accounts.halts {answers : List (Except Fault Reply)} {fault : Fault}
    (fine : ∀ answer ∈ answers, answer = .ok .nothing) (fresh : fault ≠ .halted) :
    Accounts .halted (answers ++ [.error fault]) :=
  @Accounts.stopped answers fault 0 fine fresh

/-- The step of the induction over a history, for the calls that carry instructions out. -/
theorem Accounts.executed {answers : List (Except Fault Reply)}
    (accounts : Accounts machine.mode answers) (executes : call.executes = true) :
    Accounts (machine.call call).machine.mode (answers ++ [(machine.call call).result]) := by
  have record := Machine.executed machine executes
  generalize (machine.call call).result = result, (machine.call call).machine = left at record ⊢
  generalize current : machine.mode = mode at accounts
  cases accounts with
  | stopped fine fresh =>
      cases record with
      | @refused _ halted =>
          rw [halted, List.append_assoc, List.cons_append, ← List.replicate_succ']
          exact .stopped fine fresh
      | dropped awaiting => simp [current] at awaiting
      | waited awaiting => simp [current] at awaiting
      | expired awaiting => simp [current] at awaiting
      | unreadable running => simp [current] at running
      | faulted running => simp [current] at running
      | carriedOut running => simp [current] at running
  | alive alive fine =>
      have extended : ∀ answer ∈ answers ++ [.ok .nothing], answer = .ok .nothing := by
        intro answer member
        rcases List.mem_append.mp member with earlier | last
        · exact fine answer earlier
        · exact List.mem_singleton.mp last
      cases record with
      | refused halted => exact absurd (current.symm.trans halted) alive
      | dropped awaiting => exact .alive (by simp [awaiting]) extended
      | waited => exact .alive (by simp) extended
      | expired => exact .alive (by simp) extended
      | unreadable running unread =>
          exact .halts fine (Memory.word_error_ne_halted unread)
      | faulted running issued found =>
          have fresh := fault?_ne_halted (machine.poised call)
          exact .halts fine (fun same => fresh _ (same ▸ found))
      | @carriedOut _ instruction running =>
          refine .alive ?_ extended
          rcases apply_mode (machine.poised call) instruction with same | ⟨register, _, started⟩
          · simp [same, poised_mode, running]
          · simp [started]

theorem halted_iff_of_plain (plain : call.executes = false) (other : call ≠ .reset) :
    (machine.call call).machine.mode = .halted ↔ machine.mode = .halted := by
  by_cases changed : (machine.call call).machine.mode = machine.mode
  · rw [changed]
  · have change := change_of_mode_ne changed
    generalize (machine.call call).machine.mode = later, machine.mode = earlier at change ⊢
    cases change with
    | waitStarted issued => simp [executes_of_issued issued] at plain
    | faulted executes => simp [executes] at plain
    | waitedOn => cases plain
    | expired => cases plain
    | reset => exact absurd rfl other
    | keyArrived => simp
    | cancelled => simp

theorem Accounts.plain {answers : List (Except Fault Reply)}
    (accounts : Accounts machine.mode answers) (plain : call.executes = false)
    (other : call ≠ .reset) : Accounts (machine.call call).machine.mode answers := by
  have same : (machine.call call).machine.mode = .halted ↔ machine.mode = .halted :=
    halted_iff_of_plain plain other
  generalize machine.mode = mode at accounts same
  cases accounts with
  | alive alive fine => exact .alive (fun halted => alive (same.mp halted)) fine
  | stopped fine fresh =>
      rw [same.mpr rfl]
      exact .stopped fine fresh

theorem accounts_after (machine : Machine) (calls : List Call) (alive : machine.mode ≠ .halted) :
    Accounts (machine.after calls).mode (machine.answersSinceReset calls) := by
  induction calls using List.reverseRecOn with
  | nil => exact .alive alive (by simp [answersSinceReset])
  | append_singleton calls call induction =>
      rw [after_concat]
      cases executes : call.executes with
      | true =>
          rw [answersSinceReset_executed executes]
          exact induction.executed executes
      | false =>
          by_cases other : call = .reset
          · subst other
            rw [answersSinceReset_reset]
            exact .alive (by simp [Machine.call, reset]) (by simp)
          · rw [answersSinceReset_plain executes other]
            exact induction.plain executes other

end History

theorem isOk_of_fine {answers : List (Except Fault Reply)}
    (fine : ∀ answer ∈ answers, answer = .ok .nothing) : ∀ answer ∈ answers, answer.isOk := by
  intro answer member
  rw [fine answer member]
  rfl

theorem Accounts.first_fault {mode : Mode} {answers later : List (Except Fault Reply)}
    {fault : Fault} (accounts : Accounts mode answers)
    (first : answers.dropWhile Except.isOk = .error fault :: later) :
    fault ≠ .halted ∧ ∀ answer ∈ later, answer = .error .halted := by
  cases accounts with
  | alive alive fine =>
      have none : answers.dropWhile Except.isOk = [] :=
        List.dropWhile_eq_nil_iff.mpr (isOk_of_fine fine)
      rw [none] at first
      cases first
  | stopped fine fresh =>
      rw [List.dropWhile_append_of_pos (isOk_of_fine fine)] at first
      cases first
      exact ⟨fresh, fun answer member => List.eq_of_mem_replicate member⟩

theorem Accounts.halted_iff {mode : Mode} {answers : List (Except Fault Reply)}
    (accounts : Accounts mode answers) :
    mode = .halted ↔ ∃ fault, .error fault ∈ answers := by
  cases accounts with
  | alive alive fine =>
      refine ⟨fun halted => absurd halted alive, ?_⟩
      rintro ⟨fault, member⟩
      cases fine _ member
  | @stopped before fault refusals fine fresh =>
      exact ⟨fun _ => ⟨fault, by simp⟩, fun _ => rfl⟩

theorem mode_follows_the_history (config : Config) (random : WordSource) (calls : List Call) :
    let machine := (powerOn config random).after calls
    let answers := (powerOn config random).answersSinceReset calls
    (machine.mode = .halted ↔ ∃ fault, .error fault ∈ answers) ∧
    (∀ fault later, answers.dropWhile Except.isOk = .error fault :: later →
      fault ≠ .halted ∧ ∀ answer ∈ later, answer = .error .halted) ∧
    (∀ call, (machine.call call).machine.mode ≠ machine.mode →
      ModeChange machine call machine.mode (machine.call call).machine.mode) ∧
    (∀ call next, ModeChange machine call machine.mode next →
      (machine.call call).machine.mode = next) ∧
    machine.cancelWait.result = .ok machine.isAwaitingKey := by
  intro machine answers
  have accounts := accounts_after (powerOn config random) calls (by simp [powerOn])
  refine ⟨accounts.halted_iff, ?_, ?_, ?_, cancelWait_result machine⟩
  · intro fault later first
    exact accounts.first_fault first
  · intro call changed
    exact change_of_mode_ne changed
  · intro call next change
    exact mode_of_change change

theorem underflow_then_refusal :
    let machine := powerOn {} (.cycle #[])
    let calls := [.execute 0x00EE, .cancelWait, .execute 0x00E0]
    machine.answersSinceReset calls = [.error .stackUnderflow, .error .halted] ∧
      (machine.after calls).mode = .halted := by
  intro machine calls
  have answers : machine.answersSinceReset calls = [.error .stackUnderflow, .error .halted] := rfl
  have halted := (mode_follows_the_history {} (.cycle #[]) calls).1.mpr
    ⟨.stackUnderflow, answers ▸ List.mem_cons_self⟩
  exact ⟨answers, halted⟩

end Chip8.Machine
