import Chip8.Proofs.Machine.HostFootprints
import Mathlib.Data.List.DropRight

/-!
Histories with what was found on the way. A moment is a call together with the machine that the call
found, and a journal has the moments of a history in order. A reset forgets all that came before it,
so what holds of a machine is a matter of the moments since the last one.
-/

namespace Chip8

/-- A call, and the machine as the call found it. -/
structure Moment where
  found : Machine
  call : Call

def Moment.begun? (moment : Moment) : Option Instruction := moment.found.begun? moment.call

namespace Machine

def journal (machine : Machine) : List Call → List Moment
  | [] => []
  | call :: rest => ⟨machine, call⟩ :: (machine.call call).machine.journal rest

/-- The moments of a history since the last reset, or all of them if there was none. -/
def sinceReset (machine : Machine) (calls : List Call) : List Moment :=
  (machine.journal calls).rtakeWhile fun moment => moment.call != .reset

section Journal

variable (machine : Machine)

theorem length_journal (calls : List Call) : (machine.journal calls).length = calls.length := by
  induction calls generalizing machine with
  | nil => rfl
  | cons call rest induction => rw [journal, List.length_cons, List.length_cons, induction]

theorem journal_concat (calls : List Call) (call : Call) :
    machine.journal (calls ++ [call]) = machine.journal calls ++ [⟨machine.after calls, call⟩] := by
  induction calls generalizing machine with
  | nil => rfl
  | cons first rest induction =>
      rw [List.cons_append, journal, journal, induction, List.cons_append]
      rfl

theorem sinceReset_reset (calls : List Call) : machine.sinceReset (calls ++ [.reset]) = [] := by
  rw [sinceReset, journal_concat, List.rtakeWhile_concat_neg _ _ _ (by simp)]

theorem sinceReset_concat (calls : List Call) {call : Call} (other : call ≠ .reset) :
    machine.sinceReset (calls ++ [call]) =
      machine.sinceReset calls ++ [⟨machine.after calls, call⟩] := by
  rw [sinceReset, journal_concat, List.rtakeWhile_concat_pos _ _ _ (by simpa using other)]
  rfl

theorem length_sinceReset_le (calls : List Call) :
    (machine.sinceReset calls).length ≤ calls.length := by
  have suffix := List.rtakeWhile_suffix (fun moment : Moment => moment.call != .reset)
    (machine.journal calls)
  rw [← length_journal machine calls]
  exact suffix.length_le

theorem replies_getElem? (calls : List Call) (position : Nat) :
    (machine.replies calls)[position]? =
      calls[position]?.map fun call => ((machine.after (calls.take position)).call call).result := by
  induction calls generalizing machine position with
  | nil => rfl
  | cons call rest induction =>
      cases position with
      | zero => rfl
      | succ position => exact induction _ position

end Journal

/-- What holds after power-on, when nothing has happened yet, and is kept by every call but a reset
holds of each machine and of what has happened to it since its last reset. -/
theorem sinceReset_induction {motive : List Moment → Machine → Prop}
    (fresh : ∀ config random, motive [] (powerOn config random))
    (next : ∀ moments machine call, call ≠ .reset → motive moments machine →
      motive (moments ++ [⟨machine, call⟩]) (machine.call call).machine)
    (config : Config) (random : WordSource) (calls : List Call) :
    motive ((powerOn config random).sinceReset calls) ((powerOn config random).after calls) := by
  induction calls using List.reverseRecOn with
  | nil => exact fresh config random
  | append_singleton calls call induction =>
      rw [after_concat]
      by_cases reset : call = .reset
      · rw [reset, sinceReset_reset]
        exact fresh _ _
      · rw [sinceReset_concat _ _ reset]
        exact next _ _ call reset induction

end Machine

end Chip8
