import Chip8.Proofs.Machine.KeyWait
import Chip8.Proofs.Machine.RandomWords
import Mathlib.Data.List.Infix

/-!
A limit on waits that no wait reaches. Only a step of a wait looks at the configuration, and it finds
the same with and without a limit until it has come to the limit. So two machines that differ in the
limit alone stay together as long as every wait ends in time, and each wait is counted from zero.
-/

namespace Chip8

/-- How many steps the wait has lasted. Where there is no wait it is none. -/
def Mode.waited : Mode → Nat
  | .awaitingKey _ waited => waited.toNat
  | _ => 0

namespace Machine

def limited (machine : Machine) (limit : UInt32) : Machine :=
  { machine with config := { machine.config with keyWaitTimeout := some limit } }

section Calls

variable {machine : Machine} {limit : UInt32} {call : Call}

theorem limited_agreeBut : AgreeBut .config machine (machine.limited limit) := by
  intro part other
  cases part with
  | config => exact absurd rfl other
  | _ => exact rfl

theorem config_unread_of_step (free : machine.isAwaitingKey = false) :
    .config ∉ machine.stepReads := by
  intro looked
  unfold stepReads at looked
  unfold isAwaitingKey at free
  cases mode : machine.mode with
  | running =>
      simp only [mode, List.mem_cons, reduceCtorEq, false_or] at looked
      obtain ⟨instruction, _, inside⟩ := mem_elim looked
      exact instruction.unread (by simp) inside
  | awaitingKey register waited => simp [mode] at free
  | halted => simp [mode] at looked

theorem config_unread_of_perform (instruction : Instruction) :
    .config ∉ machine.performReads instruction := by
  intro looked
  rcases mem_performReads machine instruction looked with other | ⟨_, inside⟩
  · cases other
  · exact instruction.unread (by simp) inside

theorem config_unread (free : call = .step → machine.isAwaitingKey = false) :
    .config ∉ machine.reads call := by
  cases call with
  | step => exact config_unread_of_step (free rfl)
  | execute opcode => exact config_unread_of_perform (.decode opcode)
  | perform instruction => exact config_unread_of_perform instruction
  | _ =>
      intro looked
      simpa using mem_reads_of_plain rfl looked

/-- A step of a wait that does not come to the limit counts as it does without one. -/
theorem step_limited {register : UInt8} {waited : UInt32}
    (awaiting : machine.mode = .awaitingKey register waited)
    (unlimited : machine.config.keyWaitTimeout = none)
    (short : (machine.call .step).machine.mode.waited < max 1 limit.toNat) :
    ((machine.limited limit).call .step).result = (machine.call .step).result ∧
      ((machine.limited limit).call .step).machine = (machine.call .step).machine.limited limit := by
  have lasting : ¬ machine.Expires waited := by
    rintro ⟨other, limited, _⟩
    simp [unlimited] at limited
  obtain ⟨result, left⟩ := call_of_lasting awaiting lasting
  rw [left] at short
  have inTime : ¬ (machine.limited limit).Expires waited := by
    rintro ⟨_, ⟨⟩, reached⟩
    have count : (lengthened waited).toNat < max 1 limit.toNat := short
    have passed := UInt32.le_iff_toNat_le.mp reached
    have bound := limit.toNat_lt
    rw [lengthened_toNat] at count passed
    omega
  have awaitingToo : (machine.limited limit).mode = .awaitingKey register waited := awaiting
  obtain ⟨resultToo, leftToo⟩ := call_of_lasting awaitingToo inTime
  rw [result, resultToo, left, leftToo]
  exact ⟨rfl, rfl⟩

/-- A limit that a call does not bring the wait to makes no difference to the call. -/
theorem call_limited (unlimited : machine.config.keyWaitTimeout = none)
    (short : (machine.call call).machine.mode.waited < max 1 limit.toNat) :
    ((machine.limited limit).call call).result = (machine.call call).result ∧
      ((machine.limited limit).call call).machine = (machine.call call).machine.limited limit := by
  by_cases waits : call = .step ∧ machine.isAwaitingKey = true
  · obtain ⟨rfl, awaits⟩ := waits
    obtain ⟨register, waited, awaiting⟩ := awaiting_of_isAwaitingKey awaits
    exact step_limited awaiting unlimited short
  · have free : call = .step → machine.isAwaitingKey = false :=
      fun step => Bool.eq_false_iff.mpr fun awaits => waits ⟨step, awaits⟩
    obtain ⟨result, alike⟩ := limited_agreeBut.call (config_unread free)
    have config : ((machine.limited limit).call call).machine.config =
        ((machine.call call).machine.limited limit).config := by
      rw [call_config, limited, limited, call_config]
    exact ⟨result, (limited_agreeBut.symm.trans alike).eq config⟩

end Calls

theorem after_limited {machine : Machine} {limit : UInt32} {calls : List Call}
    (unlimited : machine.config.keyWaitTimeout = none)
    (short : ∀ earlier, earlier <+: calls →
      (machine.after earlier).mode.waited < max 1 limit.toNat) :
    (machine.limited limit).replies calls = machine.replies calls ∧
      (machine.limited limit).after calls = (machine.after calls).limited limit := by
  induction calls generalizing machine with
  | nil => exact ⟨rfl, rfl⟩
  | cons call rest induction =>
      have shortHere := short [call] (List.prefix_append [call] rest)
      obtain ⟨result, left⟩ := call_limited unlimited shortHere
      have unlimitedThen : (machine.call call).machine.config.keyWaitTimeout = none := by
        rw [call_config, unlimited]
      obtain ⟨results, last⟩ := induction unlimitedThen fun earlier before =>
        short (call :: earlier) (List.cons_prefix_cons.mpr ⟨rfl, before⟩)
      rw [replies, replies, after_cons, after_cons, result, left, results, last]
      exact ⟨rfl, rfl⟩

/-- A limit on waits shows in no result and in no part of the machine but the configuration, as long
as the count of the machine without it stays below the limit. A limit of zero works as one. The
machine may be in any mode at the start. -/
theorem unreached_limit_is_invisible (machine : Machine) (limit : UInt32) (calls : List Call)
    (unlimited : machine.config.keyWaitTimeout = none)
    (short : ∀ earlier, earlier <+: calls →
      (machine.after earlier).mode.waited < max 1 limit.toNat) :
    (machine.limited limit).replies calls = machine.replies calls ∧
      ∀ earlier, earlier <+: calls →
        (machine.limited limit).after earlier = (machine.after earlier).limited limit := by
  refine ⟨(after_limited unlimited short).1, ?_⟩
  intro earlier before
  exact (after_limited unlimited fun start first => short start (first.trans before)).2

/-- Two waits of two steps each, the first of them cancelled. Counted together they would come to the
limit of three. -/
theorem cancelled_wait_leaves_no_count :
    let machine := powerOn {} (.cycle #[])
    let calls := [.execute 0xF30A, .step, .step, .cancelWait, .execute 0xF40A, .step, .step]
    let answered := calls ++ [.keyDown 5, .execute 0x00EE]
    machine.config.keyWaitTimeout = none ∧
      (∀ earlier, earlier <+: answered → (machine.after earlier).mode.waited < max 1 3) ∧
      (machine.limited 3).replies answered = machine.replies answered ∧
      ((machine.limited 3).after calls).mode = .awaitingKey 4 2 ∧
      ((machine.limited 3).after answered).registers.get 4 = 5 := by
  intro machine calls answered
  have short : ∀ earlier, earlier <+: answered →
      (machine.after earlier).mode.waited < max 1 (3 : UInt32).toNat := by
    simp only [← List.mem_inits]
    decide
  obtain ⟨results, states⟩ := unreached_limit_is_invisible machine 3 answered rfl short
  have waiting := states calls (List.prefix_append _ _)
  have last := states answered List.prefix_rfl
  refine ⟨rfl, short, results, ?_, ?_⟩
  · rw [waiting]
    rfl
  · rw [last]
    rfl

end Machine

end Chip8
