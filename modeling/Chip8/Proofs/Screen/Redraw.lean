import Chip8.Proofs.Machine.Footprints

/-!
The mark that asks for a redraw. Whatever changes the picture sets the mark, and only taking it
removes it. A client that copies the picture whenever it takes a mark that was set therefore never
shows an old one.
-/

namespace Chip8

def Instruction.paints : Instruction → Bool
  | .clearScreen => true
  | .draw _ _ _ => true
  | _ => false

theorem Instruction.screen_unwritten {instruction : Instruction}
    (plain : instruction.paints = false) : .screen ∉ instruction.writes := by
  cases instruction with
  | clearScreen => cases plain
  | draw x y height => cases plain
  | _ => simp [writes]

namespace Machine

def repaints (machine : Machine) : Call → Bool
  | .draw _ _ _ => true
  | .clearScreen => true
  | .reset => true
  | call => (machine.begun? call).any Instruction.paints && (machine.call call).result.isOk

def repainted (machine : Machine) : List Call → Bool
  | [] => false
  | call :: rest => machine.repaints call || (machine.call call).machine.repainted rest

/-- What a client shows after a call. It copies the pixels exactly when it is told that they may
have changed. -/
def copied (machine : Machine) (picture : Vector Bool 2048) (call : Call) : Vector Bool 2048 :=
  match call, (machine.call call).result with
  | .takeDirty, .ok (.truth true) => (machine.call call).machine.screen.pixels
  | _, _ => picture

def shown (machine : Machine) (picture : Vector Bool 2048) : List Call → Vector Bool 2048
  | [] => picture
  | call :: rest => (machine.call call).machine.shown (machine.copied picture call) rest

section Marks

variable {machine : Machine} {call : Call}

theorem dirty_of_painted {instruction : Instruction} (paints : instruction.paints = true)
    (clear : machine.fault? instruction = none) :
    (machine.apply instruction).machine.screen.dirty = true := by
  cases instruction with
  | clearScreen => rfl
  | draw x y height =>
      obtain ⟨sprite, read⟩ := slice_of_no_rangeFault clear
      rw [apply, drawAtIndex, read]
      rfl
  | _ => cases paints

/-- An instruction that is begun and carried out changes the picture and leaves the mark set, or
nothing happens to the screen. What fails, is dropped or is refused belongs to the second kind. -/
theorem Executed.screen {result : Except Fault Reply} {left : Machine}
    (record : Executed machine call result left) :
    let painted := (machine.begun? call).any Instruction.paints && result.isOk
    painted = true ∧ left.screen.dirty = true ∨ painted = false ∧ left.screen = machine.screen := by
  intro painted
  have poised : machine.Agree (machine.poised call) .screen :=
    agree_poised machine call (by decide)
  cases record with
  | refused halted => exact .inr ⟨Bool.and_false _, rfl⟩
  | dropped awaiting direct => exact .inr ⟨by simp [painted, begun?, awaiting], rfl⟩
  | waited awaiting lasting => exact .inr ⟨by simp [painted, begun?, awaiting], rfl⟩
  | expired awaiting ended => exact .inr ⟨by simp [painted, begun?, awaiting], rfl⟩
  | unreadable running unread => exact .inr ⟨Bool.and_false _, rfl⟩
  | faulted running issued found => exact .inr ⟨Bool.and_false _, poised⟩
  | @carriedOut _ instruction running issued clear =>
      have begun := begun?_eq_some.mpr ⟨running, issued⟩
      have same : painted = instruction.paints := by
        simp only [painted, begun, Option.any_some, Except.isOk, Except.toBool, Bool.and_true]
      rw [same]
      cases paints : instruction.paints with
      | true => exact .inl ⟨rfl, dirty_of_painted paints clear⟩
      | false =>
          have kept := apply_agree (machine.poised call) (Instruction.screen_unwritten paints)
          exact .inr ⟨rfl, poised.trans kept⟩

/-- A call other than the one that takes the mark sets it, or the screen is as before. -/
theorem screen_of_call (machine : Machine) (other : call ≠ .takeDirty) :
    machine.repaints call = true ∧ (machine.call call).machine.screen.dirty = true ∨
      machine.repaints call = false ∧ (machine.call call).machine.screen = machine.screen := by
  have idle : call.executes = false → machine.begun? call = none := begun?_of_plain machine
  have untouched : .screen ∉ call.writes →
      (machine.call call).machine.screen = machine.screen := call_agree machine
  cases call with
  | step => exact (executed machine rfl).screen
  | execute opcode => exact (executed machine rfl).screen
  | perform instruction => exact (executed machine rfl).screen
  | reset => exact .inl ⟨rfl, rfl⟩
  | draw x y sprite => exact .inl ⟨rfl, rfl⟩
  | clearScreen => exact .inl ⟨rfl, rfl⟩
  | takeDirty => exact absurd rfl other
  | _ =>
      exact .inr ⟨by simp only [repaints, idle rfl, Option.any_none, Bool.false_and],
        untouched (by simp [Call.writes])⟩

theorem dirty_of_call (machine : Machine) (other : call ≠ .takeDirty) :
    (machine.call call).machine.screen.dirty =
      (machine.screen.dirty || machine.repaints call) := by
  rcases screen_of_call machine other with ⟨painted, dirty⟩ | ⟨plain, kept⟩
  · rw [painted, dirty, Bool.or_true]
  · rw [plain, kept, Bool.or_false]

/-- Until the mark is taken it tells whether it was set before or some call has set it. -/
theorem dirty_after (machine : Machine) (calls : List Call) (untaken : .takeDirty ∉ calls) :
    (machine.after calls).screen.dirty =
      (machine.screen.dirty || machine.repainted calls) := by
  induction calls generalizing machine with
  | nil => exact (Bool.or_false _).symm
  | cons call rest induction =>
      have here := dirty_of_call machine (List.ne_of_not_mem_cons untaken).symm
      have later := induction (machine.call call).machine
        (List.not_mem_of_not_mem_cons untaken)
      rw [after_cons, later, here, Bool.or_assoc, repainted]

end Marks

section Clients

/-- A client that shows an old picture will be told. -/
def Current (machine : Machine) (picture : Vector Bool 2048) : Prop :=
  machine.screen.dirty = false → picture = machine.screen.pixels

variable {machine : Machine} {picture : Vector Bool 2048}

theorem call_takeDirty (machine : Machine) :
    (machine.call .takeDirty).result = .ok (.truth machine.screen.dirty) ∧
      (machine.call .takeDirty).machine.screen = ⟨machine.screen.pixels, false⟩ :=
  ⟨rfl, rfl⟩

theorem copied_of_taken :
    machine.copied picture .takeDirty =
      if machine.screen.dirty then machine.screen.pixels else picture := by
  unfold copied
  rw [(call_takeDirty machine).1, (call_takeDirty machine).2]
  cases machine.screen.dirty <;> rfl

theorem copied_of_other {call : Call} (other : call ≠ .takeDirty) :
    machine.copied picture call = picture := by
  unfold copied
  split
  next => exact absurd rfl other
  next => rfl

/-- Once the mark is taken, the client shows the picture. -/
theorem Current.taken (current : Current machine picture) :
    machine.copied picture .takeDirty = (machine.call .takeDirty).machine.screen.pixels := by
  rw [copied_of_taken, (call_takeDirty machine).2]
  cases dirty : machine.screen.dirty with
  | true => rfl
  | false => exact current dirty

theorem Current.call (current : Current machine picture) (call : Call) :
    Current (machine.call call).machine (machine.copied picture call) := by
  by_cases taken : call = .takeDirty
  · rw [taken]
    exact fun _ => current.taken
  · rw [copied_of_other taken]
    intro clean
    rcases screen_of_call machine taken with ⟨_, dirty⟩ | ⟨_, kept⟩
    · rw [clean] at dirty
      cases dirty
    · rw [kept] at clean ⊢
      exact current clean

theorem shown_append (machine : Machine) (picture : Vector Bool 2048) (earlier later : List Call) :
    machine.shown picture (earlier ++ later) =
      (machine.after earlier).shown (machine.shown picture earlier) later := by
  induction earlier generalizing machine picture with
  | nil => rfl
  | cons call rest induction => exact induction _ _

theorem Current.after (current : Current machine picture) (calls : List Call) :
    Current (machine.after calls) (machine.shown picture calls) := by
  induction calls generalizing machine picture with
  | nil => exact current
  | cons call rest induction => exact induction (current.call call)

theorem shown_of_untaken {calls : List Call} (untaken : .takeDirty ∉ calls) :
    machine.shown picture calls = picture := by
  induction calls generalizing machine with
  | nil => rfl
  | cons call rest induction =>
      rw [shown, copied_of_other (List.ne_of_not_mem_cons untaken).symm]
      exact induction (List.not_mem_of_not_mem_cons untaken)

/-- As long as the mark is neither set nor taken, the pixels are as they were. A client that had
copied them before would be current still. -/
theorem pixels_after {calls : List Call} (untaken : .takeDirty ∉ calls)
    (clean : machine.screen.dirty = false) (unpainted : machine.repainted calls = false) :
    (machine.after calls).screen.pixels = machine.screen.pixels := by
  have copied : Current machine machine.screen.pixels := fun _ => rfl
  have still : (machine.after calls).screen.dirty = false := by
    rw [dirty_after _ calls untaken, clean, unpainted, Bool.or_false]
  have current := copied.after calls still
  rw [shown_of_untaken untaken] at current
  exact current.symm

end Clients

/-- A client that copies the pixels whenever it is told to never misses a redraw, and it is told
only when there has been one. -/
theorem redraw_is_never_missed (config : Config) (random : WordSource) (calls : List Call) :
    let machine := powerOn config random
    let taken := machine.after (calls ++ [.takeDirty])
    (∀ picture, machine.shown picture (calls ++ [.takeDirty]) = taken.screen.pixels) ∧
    (.takeDirty ∉ calls →
      ((machine.after calls).call .takeDirty).result = .ok (.truth true)) ∧
    ∀ between, .takeDirty ∉ between →
      let again := (taken.after between).call .takeDirty
      again.result = .ok (.truth (taken.repainted between)) ∧
      (again.result = .ok (.truth false) →
        again.machine.screen.pixels = taken.screen.pixels) := by
  intro machine taken
  have clean : taken.screen.dirty = false := by
    simp only [taken, after_concat, (call_takeDirty _).2]
  refine ⟨?_, ?_, ?_⟩
  · intro picture
    have begun : Current machine picture := fun clean => by cases clean
    rw [shown_append]
    simp only [taken, after_concat]
    exact (begun.after calls).taken
  · intro first
    rw [(call_takeDirty _).1, dirty_after _ calls first]
    rfl
  · intro between untaken again
    have answer : again.result = .ok (.truth (taken.repainted between)) := by
      rw [(call_takeDirty _).1, dirty_after _ between untaken, clean, Bool.false_or]
    refine ⟨answer, ?_⟩
    intro denied
    have unpainted : taken.repainted between = false := by
      simpa using answer.symm.trans denied
    exact pixels_after untaken clean unpainted

/-- The clearing that comes during a wait is dropped, so nothing has to be drawn again. -/
theorem dropped_clearing_asks_for_no_redraw :
    let machine := powerOn {} (.cycle #[])
    let calls := [.draw 60 30 [0xFF, 0x81], .execute 0xF50A]
    let between := [.execute 0x00E0, .tick, .keyUp 5]
    let taken := machine.after (calls ++ [.takeDirty])
    let again := (taken.after between).call .takeDirty
    .takeDirty ∉ calls ∧ .takeDirty ∉ between ∧
      ((machine.after calls).call .takeDirty).result = .ok (.truth true) ∧
      again.result = .ok (.truth false) ∧
      again.machine.screen.pixels = taken.screen.pixels := by
  intro machine calls between taken again
  obtain ⟨_, first, later⟩ := redraw_is_never_missed {} (.cycle #[]) calls
  have untaken : .takeDirty ∉ calls := by decide
  have untakenLater : .takeDirty ∉ between := by decide
  obtain ⟨answer, kept⟩ := later between untakenLater
  have unpainted : taken.repainted between = false := by rfl
  have denied : again.result = .ok (.truth false) := answer.trans (by rw [unpainted])
  exact ⟨untaken, untakenLater, first untaken, denied, kept denied⟩

end Machine

end Chip8
