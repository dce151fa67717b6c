import Chip8.Proofs.Machine.Footprints

/-!
The footprints of the calls of a host. Beside those that carry instructions out, calls look at
little: a key that goes down asks for the mode only, and a key that goes up for nothing.
-/

namespace Chip8

namespace Keypad

/-- The keypad after a key has gone up or down. A number off the pad changes nothing. -/
def put (keypad : Keypad) (key : UInt8) (down : Bool) : Keypad :=
  if inside : key.toNat < 16 then ⟨keypad.down.set key.toNat down⟩ else keypad

theorem setDown_eq_put (keypad : Keypad) {key : UInt8} (down : Bool) (inside : key.toNat < 16) :
    keypad.setDown key down = .ok (keypad.put key down) := by
  rw [setDown, locate_of_lt inside, put, dif_pos inside]
  rfl

theorem put_of_le (keypad : Keypad) {key : UInt8} (down : Bool) (outside : 16 ≤ key.toNat) :
    keypad.put key down = keypad := by
  rw [put, dif_neg (Nat.not_lt.mpr outside)]

end Keypad

namespace Machine

/-- A key goes up or down, and nothing waits for it. -/
def setKey (machine : Machine) (key : UInt8) (down : Bool) : Outcome Unit :=
  if key.toNat < 16 then .done { machine with keypad := machine.keypad.put key down } ()
  else .failed machine (.keyOutOfRange key)

section Keys

variable {machine : Machine} {key : UInt8}

theorem keyUp_eq_setKey : machine.keyUp key = machine.setKey key false := by
  by_cases inside : key.toNat < 16
  · rw [keyUp, setKey, if_pos inside, Keypad.setDown_eq_put _ _ inside]
  · rw [keyUp, setKey, if_neg inside, Keypad.setDown_of_le _ _ (Nat.not_lt.mp inside)]

theorem keyDown_eq_setKey (free : machine.isAwaitingKey = false) :
    machine.keyDown key = machine.setKey key true := by
  unfold isAwaitingKey at free
  by_cases inside : key.toNat < 16
  · rw [keyDown, setKey, if_pos inside, Keypad.setDown_eq_put _ _ inside]
    cases mode : machine.mode with
    | awaitingKey register waited => simp [mode] at free
    | running => rfl
    | halted => rfl
  · rw [keyDown, setKey, if_neg inside, Keypad.setDown_of_le _ _ (Nat.not_lt.mp inside)]

theorem keyDown_of_arrival {register : UInt8} {waited : UInt32} (inside : key.toNat < 16)
    (awaiting : machine.mode = .awaitingKey register waited) :
    machine.keyDown key = (Outcome.done { machine with
      keypad := machine.keypad.put key true
      registers := machine.registers.set register key
      mode := .running } ()).report (.keyArrived key register) := by
  rw [keyDown, Keypad.setDown_eq_put _ _ inside]
  simp only [awaiting]

theorem keyDown_result (inside : key.toNat < 16) : (machine.keyDown key).result = .ok () := by
  rw [keyDown, Keypad.setDown_eq_put _ _ inside]
  cases machine.mode <;> rfl

theorem keyUp_result (inside : key.toNat < 16) : (machine.keyUp key).result = .ok () := by
  rw [keyUp_eq_setKey, setKey, if_pos inside]
  rfl

theorem awaiting_of_isAwaitingKey (awaits : machine.isAwaitingKey = true) :
    ∃ register waited, machine.mode = .awaitingKey register waited := by
  unfold isAwaitingKey at awaits
  split at awaits
  next register waited awaiting => exact ⟨register, waited, awaiting⟩
  next => cases awaits

theorem press_of_mapped {symbol : Char} (mapped : Keypad.keyOfSymbol? symbol = some key) :
    machine.press symbol = (machine.keyDown key).map fun () => some key := by
  have done := @keyDown_result machine key (Keypad.keyOfSymbol?_lt mapped)
  rw [press, onSymbol, mapped]
  simp only [Outcome.map, done, Except.map]

theorem release_of_mapped {symbol : Char} (mapped : Keypad.keyOfSymbol? symbol = some key) :
    machine.release symbol = (machine.keyUp key).map fun () => some key := by
  have done := @keyUp_result machine key (Keypad.keyOfSymbol?_lt mapped)
  rw [release, onSymbol, mapped]
  simp only [Outcome.map, done, Except.map]

end Keys

section Footprints

variable (machine : Machine)

theorem setKey_footprint (key : UInt8) (down : Bool) :
    Footprint (fun start => start.setKey key down) machine [] [.keypad] := by
  by_cases inside : key.toNat < 16
  · have acts : ∀ start : Machine, start.setKey key down =
        .done { start with keypad := start.keypad.put key down } () :=
      fun start => if_pos inside
    simp only [acts]
    refine Footprint.of_local (fun _ => rfl) ?_ ?_
    · intro start part unwritten
      cases part with
      | keypad => exact absurd List.mem_cons_self unwritten
      | _ => exact rfl
    · intro first second part agree
      cases part with
      | keypad => exact congrArg (fun keypad : Keypad => keypad.put key down) agree
      | _ => exact agree
  · have acts : ∀ start : Machine, start.setKey key down = .failed start (.keyOutOfRange key) :=
      fun start => if_neg inside
    simp only [acts]
    exact (failed_footprint machine _).congr (by simp) (by simp) fun _ _ => ⟨rfl, rfl⟩

theorem keyUp_footprint (key : UInt8) :
    Footprint (fun start => start.keyUp key) machine [] [.keypad] := by
  simp only [keyUp_eq_setKey]
  exact setKey_footprint machine key false

theorem arrival_footprint (key register : UInt8) :
    Footprint (fun start => .done { start with
      keypad := start.keypad.put key true
      registers := start.registers.set register key
      mode := .running } ()) machine [] [.keypad, .registers, .mode] := by
  refine Footprint.of_local (fun _ => rfl) ?_ ?_
  · intro start part unwritten
    cases part with
    | keypad => simp at unwritten
    | registers => simp at unwritten
    | mode => simp at unwritten
    | _ => exact rfl
  · intro first second part agree
    cases part with
    | keypad => exact congrArg (fun keypad : Keypad => keypad.put key true) agree
    | registers => exact congrArg (fun registers : Registers => registers.set register key) agree
    | mode => exact rfl
    | _ => exact agree

theorem keyDown_footprint (key : UInt8) :
    Footprint (fun start => start.keyDown key) machine [.mode] [.keypad, .registers, .mode] := by
  cases current : machine.isAwaitingKey with
  | false =>
      apply (setKey_footprint machine key true).congr (by simp) (by simp)
      intro other same
      have mode : other.mode = machine.mode := same .mode List.mem_cons_self
      have free : other.isAwaitingKey = false := by
        rw [← current, isAwaitingKey, isAwaitingKey, mode]
      rw [keyDown_eq_setKey free]
      exact ⟨rfl, rfl⟩
  | true =>
      obtain ⟨register, waited, awaiting⟩ := awaiting_of_isAwaitingKey current
      by_cases inside : key.toNat < 16
      · apply (arrival_footprint machine key register).congr (by simp) (by simp)
        intro other same
        have mode : other.mode = machine.mode := same .mode List.mem_cons_self
        rw [keyDown_of_arrival inside (mode.trans awaiting)]
        exact ⟨rfl, rfl⟩
      · apply (failed_footprint machine (.keyOutOfRange key)).congr (by simp) (by simp)
        intro other _
        rw [keyDown_of_outside (Nat.not_lt.mp inside)]
        exact ⟨rfl, rfl⟩

theorem press_footprint (symbol : Char) :
    Footprint (fun start => start.press symbol) machine [.mode] [.keypad, .registers, .mode] := by
  cases mapped : Keypad.keyOfSymbol? symbol with
  | none =>
      apply (done_footprint machine none).congr (by simp) (by simp)
      intro other _
      rw [press_of_unmapped mapped]
      exact ⟨rfl, rfl⟩
  | some key =>
      apply ((keyDown_footprint machine key).map fun () => some key).congr (by simp) (by simp)
      intro other _
      rw [press_of_mapped mapped]
      exact ⟨rfl, rfl⟩

theorem release_footprint (symbol : Char) :
    Footprint (fun start => start.release symbol) machine [] [.keypad] := by
  cases mapped : Keypad.keyOfSymbol? symbol with
  | none =>
      apply (done_footprint machine none).congr (by simp) (by simp)
      intro other _
      rw [release_of_unmapped mapped]
      exact ⟨rfl, rfl⟩
  | some key =>
      apply ((keyUp_footprint machine key).map fun () => some key).congr (by simp) (by simp)
      intro other _
      rw [release_of_mapped mapped]
      exact ⟨rfl, rfl⟩

theorem cancelWait_footprint : Footprint cancelWait machine [.mode] [.mode] := by
  cases current : machine.mode with
  | awaitingKey register waited =>
      apply (mode_footprint machine (.ok true) .running).congr (by simp) (by simp)
      intro other same
      have mode : other.mode = machine.mode := same .mode List.mem_cons_self
      rw [cancelWait, mode.trans current]
      exact ⟨rfl, rfl⟩
  | _ =>
      apply (done_footprint machine false).congr (by simp) (by simp)
      intro other same
      have mode : other.mode = machine.mode := same .mode List.mem_cons_self
      rw [cancelWait, mode.trans current]
      exact ⟨rfl, rfl⟩

theorem tick_footprint : Footprint tick machine [.sound] [.delay, .sound] := by
  apply Footprint.of_written
  · intro other _ part unwritten
    cases part with
    | delay => simp at unwritten
    | sound => simp at unwritten
    | _ => exact rfl
  · intro other same
    have sound : other.sound = machine.sound := same .sound List.mem_cons_self
    rw [tick, tick, sound]
    exact rfl
  · intro other _ part written agree
    rcases List.mem_pair.mp written with rfl | rfl
    · exact congrArg Timer.tick agree
    · exact congrArg Timer.tick agree

theorem load_footprint (program : List UInt8) :
    Footprint (fun start => start.load program) machine [] [.memory, .pc] := by
  by_cases fits : Memory.programStart.toNat + program.length ≤ 4096
  · have acts : ∀ start : Machine, start.load program = (Outcome.done { start with
        memory := ⟨Memory.overlay start.memory.bytes Memory.programStart.toNat program⟩
        pc := Memory.programStart } ()).report
          (.programLoaded program.length Memory.programStart) := by
      intro start
      rw [load, Memory.load, if_pos fits]
    simp only [acts]
    refine Footprint.of_local (fun _ => rfl) ?_ ?_
    · intro start part unwritten
      cases part with
      | memory => simp at unwritten
      | pc => simp at unwritten
      | _ => exact rfl
    · intro first second part agree
      cases part with
      | memory =>
          exact congrArg (fun memory : Memory =>
            Memory.mk (Memory.overlay memory.bytes Memory.programStart.toNat program)) agree
      | pc => exact rfl
      | _ => exact agree
  · apply (failed_footprint machine
      (.programTooLarge program.length Memory.programCapacity)).congr (by simp) (by simp)
    intro other _
    rw [load, Memory.load, if_neg fits]
    exact ⟨rfl, rfl⟩

theorem fetch_footprint : Footprint fetch machine [.memory, .pc] [.pc] := by
  cases read : machine.memory.word machine.pc with
  | error fault =>
      apply (failed_footprint machine fault).congr (by simp) (by simp)
      intro other same
      have memory : other.memory = machine.memory := same .memory (by simp)
      have pc : other.pc = machine.pc := same .pc (by simp)
      rw [fetch_of_unreadable (by rw [memory, pc, read])]
      exact ⟨rfl, rfl⟩
  | ok opcode =>
      have poised := done_footprint (machine.poised .step) (Instruction.decode opcode)
      apply poised.of_poised.congr (by simp) (by simp)
      intro other same
      have memory : other.memory = machine.memory := same .memory (by simp)
      have pc : other.pc = machine.pc := same .pc (by simp)
      rw [fetch_of_word (by rw [memory, pc, read])]
      exact ⟨rfl, rfl⟩

theorem screen_footprint {Result : Type} (change : Screen → Result × Screen) :
    Footprint (fun start => .done { start with screen := (change start.screen).2 }
      (change start.screen).1) machine [.screen] [.screen] := by
  apply Footprint.of_written
  · intro other _ part unwritten
    cases part with
    | screen => exact absurd List.mem_cons_self unwritten
    | _ => exact rfl
  · intro other same
    have screen : other.screen = machine.screen := same .screen List.mem_cons_self
    exact congrArg (fun screen => Except.ok (change screen).1) screen
  · intro other _ part written agree
    rw [List.mem_singleton.mp written] at agree ⊢
    exact congrArg (fun screen => (change screen).2) agree

theorem reset_footprint :
    Footprint (fun start => .done start.reset Reply.nothing) machine []
      [.registers, .pc, .index, .memory, .stack, .screen, .keypad, .delay, .sound, .mode,
        .unknownCount] := by
  refine Footprint.of_local (fun _ => rfl) ?_ ?_
  · intro start part unwritten
    cases part with
    | random => exact rfl
    | config => exact rfl
    | _ => simp at unwritten
  · intro first second part agree
    cases part with
    | random => exact agree
    | config => exact agree
    | _ => exact rfl

end Footprints

section Calls

variable (machine : Machine)

def reads : Call → List Part
  | .step => machine.stepReads
  | .execute opcode => machine.performReads (.decode opcode)
  | .perform instruction => machine.performReads instruction
  | .fetch => [.memory, .pc]
  | .keyDown _ => [.mode]
  | .press _ => [.mode]
  | .cancelWait => [.mode]
  | .tick => [.sound]
  | .draw _ _ _ => [.screen]
  | .clearScreen => [.screen]
  | .takeDirty => [.screen]
  | _ => []

def writes : Call → List Part
  | .step => machine.stepWrites
  | .execute opcode => machine.performWrites (.decode opcode)
  | .perform instruction => machine.performWrites instruction
  | .reset => [.registers, .pc, .index, .memory, .stack, .screen, .keypad, .delay, .sound, .mode,
      .unknownCount]
  | call => call.writes

theorem call_footprint (call : Call) :
    Footprint (fun start => start.call call) machine (machine.reads call)
      (machine.writes call) := by
  cases call with
  | load program => exact (load_footprint machine program).map _
  | step => exact (step_footprint machine).map _
  | execute opcode => exact (perform_footprint machine (.decode opcode)).map _
  | perform instruction => exact (perform_footprint machine instruction).map _
  | fetch => exact (fetch_footprint machine).map _
  | keyDown key => exact (keyDown_footprint machine key).map _
  | keyUp key => exact (keyUp_footprint machine key).map _
  | press symbol => exact (press_footprint machine symbol).map _
  | release symbol => exact (release_footprint machine symbol).map _
  | cancelWait => exact (cancelWait_footprint machine).map _
  | tick => exact (tick_footprint machine).map _
  | reset => exact reset_footprint machine
  | draw x y sprite =>
      have drawn := (screen_footprint machine fun screen => screen.draw x y sprite).map Reply.truth
      exact drawn.congr (List.Subset.refl _) (List.Subset.refl _) fun _ _ => ⟨rfl, rfl⟩
  | clearScreen =>
      exact screen_footprint machine fun screen => (Reply.nothing, screen.clear)
  | takeDirty => exact (screen_footprint machine Screen.takeDirty).map Reply.truth

variable {machine} {call : Call} {part : Part}

theorem mem_reads_of_plain (plain : call.executes = false) (looked : part ∈ machine.reads call) :
    part ∈ [.mode, .memory, .pc, .sound, .screen] := by
  cases call with
  | step => cases plain
  | execute opcode => cases plain
  | perform instruction => cases plain
  | _ =>
      unfold reads at looked
      revert looked
      cases part <;> simp

theorem writes_of_plain (plain : call.executes = false) (other : call ≠ .reset) :
    machine.writes call = call.writes := by
  cases call with
  | step => cases plain
  | execute opcode => cases plain
  | perform instruction => cases plain
  | reset => exact absurd rfl other
  | _ => exact rfl

/-- Most parts are looked at by way of an instruction only. -/
theorem mem_reads (looked : part ∈ machine.reads call) :
    part ∈ [.config, .mode, .memory, .pc, .sound, .screen] ∨
      ∃ instruction, machine.begun? call = some instruction ∧ part ∈ instruction.reads := by
  cases call with
  | step =>
      exact (mem_stepReads machine looked).imp_left (List.mem_append_left [Part.sound, Part.screen])
  | execute opcode =>
      rcases mem_performReads machine _ looked with rfl | ⟨running, inside⟩
      · exact .inl (by simp)
      · exact .inr ⟨_, begun?_eq_some.mpr ⟨running, rfl⟩, inside⟩
  | perform instruction =>
      rcases mem_performReads machine _ looked with rfl | ⟨running, inside⟩
      · exact .inl (by simp)
      · exact .inr ⟨_, begun?_eq_some.mpr ⟨running, rfl⟩, inside⟩
  | _ => exact .inl (List.mem_cons_of_mem _ (mem_reads_of_plain rfl looked))

/-- A call that sets out to carry an instruction out writes the counter and the mode by itself, and
all else by way of the instruction. -/
theorem mem_writes_of_executes (executes : call.executes = true)
    (written : part ∈ machine.writes call) :
    part ∈ [.pc, .mode] ∨
      ∃ instruction, machine.begun? call = some instruction ∧ part ∈ instruction.writes := by
  have direct : ∀ instruction, machine.issue? call = some instruction →
      part ∈ machine.performWrites instruction →
      part ∈ [.pc, .mode] ∨
        ∃ instruction, machine.begun? call = some instruction ∧ part ∈ instruction.writes := by
    intro instruction issued written
    rcases mem_performWrites machine instruction written with rfl | ⟨running, inside⟩
    · exact .inl (by simp)
    · exact .inr ⟨instruction, begun?_eq_some.mpr ⟨running, issued⟩, inside⟩
  cases call with
  | step => exact mem_stepWrites machine written
  | execute opcode => exact direct _ rfl written
  | perform instruction => exact direct _ rfl written
  | _ => cases executes

/-- The random words and the configuration are written by way of an instruction only. -/
theorem mem_writes (written : part ∈ machine.writes call) :
    part ∉ [.random, .config] ∨
      ∃ instruction, machine.begun? call = some instruction ∧ part ∈ instruction.writes := by
  cases executes : call.executes with
  | true =>
      apply (mem_writes_of_executes executes written).imp_left
      intro own
      rcases List.mem_pair.mp own with rfl | rfl <;> simp
  | false =>
      left
      intro fixed
      cases call with
      | step => cases executes
      | execute opcode => cases executes
      | perform instruction => cases executes
      | _ =>
          unfold writes at written
          rcases List.mem_pair.mp fixed with rfl | rfl <;> simp [Call.writes] at written

theorem call_unwritten (unwritten : part ∉ machine.writes call) :
    machine.Agree (machine.call call).machine part :=
  (call_footprint machine call).frame machine (.refl _ machine) part unwritten

/-- What the host leaves alone is as before unless the instruction that is begun writes it. -/
theorem call_keeps (apart : part ∉ [.pc, .mode]) (other : call ≠ .reset)
    (host : call.executes = false → part ∉ call.writes)
    (spared : ∀ instruction, machine.begun? call = some instruction → part ∉ instruction.writes) :
    machine.Agree (machine.call call).machine part := by
  apply call_unwritten
  intro written
  cases executes : call.executes with
  | false =>
      rw [writes_of_plain executes other] at written
      exact host executes written
  | true =>
      rcases mem_writes_of_executes executes written with own | ⟨instruction, begun, inside⟩
      · exact apart own
      · exact spared instruction begun inside

end Calls

def AgreeBut (part : Part) (first second : Machine) : Prop :=
  ∀ other, other ≠ part → first.Agree second other

section Alike

variable {part : Part} {first second : Machine}

theorem AgreeBut.symm (alike : AgreeBut part first second) : AgreeBut part second first :=
  fun other apart => (alike other apart).symm

theorem AgreeBut.trans {third : Machine} (earlier : AgreeBut part first second)
    (later : AgreeBut part second third) : AgreeBut part first third :=
  fun other apart => (earlier other apart).trans (later other apart)

theorem AgreeBut.eq (alike : AgreeBut part first second) (own : first.Agree second part) :
    second = first := by
  apply eq_of_agree
  intro other
  by_cases same : other = part
  · rw [same]
    exact own
  · exact alike other same

theorem AgreeBut.begun? (alike : AgreeBut part first second) (apart : part ∉ [.mode, .memory, .pc])
    (call : Call) : second.begun? call = first.begun? call := by
  have same : ∀ other ∈ [Part.mode, .memory, .pc], first.Agree second other :=
    fun other member => alike other fun equal => apart (equal ▸ member)
  have mode : second.mode = first.mode := same .mode (by simp)
  have memory : second.memory = first.memory := same .memory (by simp)
  have pc : second.pc = first.pc := same .pc (by simp)
  have issued : second.issue? call = first.issue? call := by
    cases call with
    | step => rw [issue?, issue?, memory, pc]
    | _ => rfl
  rw [Machine.begun?, Machine.begun?, mode, issued]

/-- A call that does not look at the part is answered alike, and the machines differ in no other
part afterwards. -/
theorem AgreeBut.call {call : Call} (alike : AgreeBut part first second)
    (unread : part ∉ first.reads call) :
    (second.call call).result = (first.call call).result ∧
      AgreeBut part (first.call call).machine (second.call call).machine := by
  have footprint := call_footprint first call
  have looked : AgreeOn (first.reads call) first second :=
    fun read member => alike read fun same => unread (same ▸ member)
  refine ⟨footprint.answer second looked, ?_⟩
  intro other apart
  exact footprint.effect second looked other (alike other apart)

end Alike

end Machine

end Chip8
