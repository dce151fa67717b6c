import Chip8.Proofs.Machine.Journal
import Mathlib.Algebra.Group.Nat.Defs

/-!
Opcodes without a meaning. A running machine passes over one and counts it, and no call ever looks
at the count. So such opcodes can stand anywhere between others, and the count is all they leave.
-/

namespace Chip8

def Instruction.isUnknown : Instruction → Bool
  | .unknown _ => true
  | _ => false

theorem Instruction.unknownCount_unwritten {instruction : Instruction}
    (known : instruction.isUnknown = false) : .unknownCount ∉ instruction.writes := by
  cases instruction with
  | unknown opcode => cases known
  | _ => simp [writes]

def Moment.passesOver (moment : Moment) : Bool := moment.begun?.any Instruction.isUnknown

namespace Machine

def passedOver (machine : Machine) (count : Nat) : Machine :=
  { machine with unknownCount := machine.unknownCount + count.toUInt64 }

@[simp] theorem passedOver_mode (machine : Machine) (count : Nat) :
    (machine.passedOver count).mode = machine.mode := rfl

@[simp] theorem passedOver_unknownCount (machine : Machine) (count : Nat) :
    (machine.passedOver count).unknownCount = machine.unknownCount + count.toUInt64 := rfl

theorem passedOver_zero (machine : Machine) : machine.passedOver 0 = machine := by
  simp [passedOver]

theorem passedOver_passedOver (machine : Machine) (first second : Nat) :
    (machine.passedOver first).passedOver second = machine.passedOver (first + second) := by
  simp [passedOver, UInt64.add_assoc]

section Calls

variable {machine : Machine} {call : Call}

theorem unknownCount_unread (machine : Machine) (call : Call) :
    .unknownCount ∉ machine.reads call := by
  intro looked
  rcases mem_reads looked with other | ⟨instruction, _, inside⟩
  · simp at other
  · exact instruction.unread (by simp) inside

theorem call_of_unknown {instruction : Instruction}
    (begun : machine.begun? call = some instruction) (unknown : instruction.isUnknown = true) :
    (machine.call call).result = .ok .nothing ∧
      (machine.call call).machine = (machine.poised call).passedOver 1 := by
  cases instruction with
  | unknown opcode => exact call_of_begun begun rfl
  | _ => cases unknown

theorem unknownCount_of_call (other : call ≠ .reset) :
    (machine.call call).machine.unknownCount =
      machine.unknownCount + (Moment.mk machine call).passesOver.toNat.toUInt64 := by
  cases passing : (Moment.mk machine call).passesOver with
  | true =>
      obtain ⟨instruction, begun, unknown⟩ := (Option.any_eq_true _ _).mp passing
      rw [(call_of_unknown begun unknown).2, passedOver_unknownCount, poised_unknownCount]
      rfl
  | false =>
      have kept : machine.Agree (machine.call call).machine .unknownCount := by
        apply call_keeps (by decide) other
        · intro plain
          cases call with
          | step => cases plain
          | execute opcode => cases plain
          | perform instruction => cases plain
          | reset => exact absurd rfl other
          | _ => simp [Call.writes]
        · intro instruction begun
          apply Instruction.unknownCount_unwritten
          have spared : machine.begun? call = some instruction := begun
          rwa [Moment.passesOver, Moment.begun?, spared, Option.any_some] at passing
      have count : (machine.call call).machine.unknownCount = machine.unknownCount := kept
      rw [count]
      exact (UInt64.add_zero _).symm

theorem passedOver_agreeBut {count : Nat} :
    AgreeBut .unknownCount machine (machine.passedOver count) := by
  intro part other
  cases part with
  | unknownCount => exact absurd rfl other
  | _ => exact rfl

/-- What has been passed over shows in no call, and stays counted unless the machine is reset. -/
theorem call_passedOver (machine : Machine) (count : Nat) (other : call ≠ .reset) :
    ((machine.passedOver count).call call).result = (machine.call call).result ∧
      ((machine.passedOver count).call call).machine =
        (machine.call call).machine.passedOver count := by
  obtain ⟨result, alike⟩ := passedOver_agreeBut.call (unknownCount_unread machine call)
  have passing : (Moment.mk (machine.passedOver count) call).passesOver =
      (Moment.mk machine call).passesOver :=
    congrArg (Option.any Instruction.isUnknown) (passedOver_agreeBut.begun? (by decide) call)
  have unknownCount : ((machine.passedOver count).call call).machine.unknownCount =
      ((machine.call call).machine.passedOver count).unknownCount := by
    rw [unknownCount_of_call other, passing, passedOver_unknownCount, passedOver_unknownCount,
      unknownCount_of_call other]
    ac_rfl
  exact ⟨result, (passedOver_agreeBut.symm.trans alike).eq unknownCount⟩

end Calls

end Machine

/-- A word of a program given to a machine, or one put in that has no meaning. -/
inductive PaddedWord where
  | own (opcode : Opcode)
  | inserted (opcode : Opcode) (unknown : (Instruction.decode opcode).isUnknown = true)

namespace PaddedWord

def opcode : PaddedWord → Opcode
  | .own opcode => opcode
  | .inserted opcode _ => opcode

def isInserted : PaddedWord → Bool
  | .own _ => false
  | .inserted _ _ => true

def originals (words : List PaddedWord) : List PaddedWord :=
  words.filter fun word => !word.isInserted

def originalReplies (words : List PaddedWord) (replies : List (Except Fault Reply)) :
    List (Except Fault Reply) :=
  ((words.zip replies).filter fun entry => !entry.1.isInserted).map Prod.snd

def executions (words : List PaddedWord) : List Call := words.map fun word => .execute word.opcode

section Lists

variable (opcode : Opcode) (unknown : (Instruction.decode opcode).isUnknown = true)
  (words : List PaddedWord) (reply : Except Fault Reply) (replies : List (Except Fault Reply))

@[simp] theorem originals_own : originals (.own opcode :: words) = .own opcode :: originals words :=
  rfl

@[simp] theorem originals_inserted :
    originals (.inserted opcode unknown :: words) = originals words := rfl

@[simp] theorem originalReplies_own :
    originalReplies (.own opcode :: words) (reply :: replies) =
      reply :: originalReplies words replies := rfl

@[simp] theorem originalReplies_inserted :
    originalReplies (.inserted opcode unknown :: words) (reply :: replies) =
      originalReplies words replies := rfl

@[simp] theorem executions_own :
    executions (.own opcode :: words) = .execute opcode :: executions words := rfl

@[simp] theorem executions_inserted :
    executions (.inserted opcode unknown :: words) = .execute opcode :: executions words := rfl

end Lists

end PaddedWord

namespace Machine

open PaddedWord

/-- How many of the words put in are executed while the machine is running. -/
def passedAmong (machine : Machine) : List PaddedWord → Nat
  | [] => 0
  | word :: rest =>
      (word.isInserted && machine.mode == .running).toNat +
        (machine.call (.execute word.opcode)).machine.passedAmong rest

theorem execute_of_unknown {machine : Machine} {opcode : Opcode}
    (unknown : (Instruction.decode opcode).isUnknown = true) :
    (machine.call (.execute opcode)).result =
        (if machine.mode = .halted then .error .halted else .ok .nothing) ∧
      (machine.call (.execute opcode)).machine =
        machine.passedOver (machine.mode == .running).toNat := by
  cases mode : machine.mode with
  | running => exact call_of_unknown (begun?_eq_some.mpr ⟨mode, rfl⟩) unknown
  | awaitingKey register waited =>
      rw [call, execute, perform_of_awaiting mode]
      exact ⟨rfl, machine.passedOver_zero.symm⟩
  | halted =>
      rw [call, execute, perform_of_halted mode]
      exact ⟨rfl, machine.passedOver_zero.symm⟩

/-- Only the words that were there before show in the machine that the padded words leave, apart from
the count. -/
theorem after_padded (machine : Machine) (count : Nat) (words : List PaddedWord) :
    originalReplies words ((machine.passedOver count).replies (executions words)) =
        machine.replies (executions (originals words)) ∧
      (machine.passedOver count).after (executions words) =
        (machine.after (executions (originals words))).passedOver
          (count + (machine.passedOver count).passedAmong words) := by
  -- the machine with the padding is ahead by a count that grows from word to word
  induction words generalizing machine count with
  | nil => exact ⟨rfl, rfl⟩
  | cons word rest induction =>
      cases word with
      | own opcode =>
          have other : Call.execute opcode ≠ .reset := nofun
          obtain ⟨result, left⟩ := machine.call_passedOver count other
          obtain ⟨results, last⟩ := induction (machine.call (.execute opcode)).machine count
          simp [replies, passedAmong, PaddedWord.opcode, isInserted, result, left, results, last]
      | inserted opcode unknown =>
          obtain ⟨_, left⟩ := @execute_of_unknown (machine.passedOver count) opcode unknown
          rw [passedOver_passedOver, passedOver_mode] at left
          obtain ⟨results, last⟩ :=
            induction machine (count + (machine.mode == .running).toNat)
          simp [replies, passedAmong, PaddedWord.opcode, isInserted, left, results, last,
            Nat.add_assoc]

theorem inserted_reply {machine : Machine} {words : List PaddedWord} {position : Nat}
    {opcode : Opcode} {unknown : (Instruction.decode opcode).isUnknown = true}
    (there : words[position]? = some (.inserted opcode unknown)) :
    (machine.replies (executions words))[position]? =
      some (if (machine.after (executions (words.take position))).mode = .halted
        then .error .halted else .ok .nothing) := by
  have executed : (executions words)[position]? = some (.execute opcode) := by
    rw [executions, List.getElem?_map, there]
    rfl
  have before : (executions words).take position = executions (words.take position) :=
    List.map_take.symm
  rw [replies_getElem?, executed, before, Option.map_some, (execute_of_unknown unknown).1]

/-- Since the last reset each opcode passed over has been counted, modulo the size of the count. -/
theorem unknownCount_after (config : Config) (random : WordSource) (calls : List Call) :
    ((powerOn config random).after calls).unknownCount =
      (((powerOn config random).sinceReset calls).countP Moment.passesOver).toUInt64 := by
  refine sinceReset_induction (motive := fun moments machine =>
    machine.unknownCount = (moments.countP Moment.passesOver).toUInt64) ?fresh ?next
    config random calls
  case fresh =>
    intro config random
    rfl
  case next =>
    intro moments machine call other induction
    have one : [Moment.mk machine call].countP Moment.passesOver =
        (Moment.mk machine call).passesOver.toNat := by
      rw [List.countP_singleton]
      cases (Moment.mk machine call).passesOver <;> rfl
    rw [unknownCount_of_call other, induction, List.countP_append, one]
    exact (UInt64.ofNat_add _ _).symm

theorem step_of_unknown {machine : Machine} {opcode : Opcode} (running : machine.mode = .running)
    (read : machine.memory.word machine.pc = .ok opcode)
    (unknown : (Instruction.decode opcode).isUnknown = true) :
    (machine.call .step).result = .ok .nothing ∧
      (machine.call .step).machine =
        { machine with pc := machine.pc.next, unknownCount := machine.unknownCount + 1 } := by
  exact call_of_unknown (begun?_eq_some.mpr ⟨running, issue?_of_word read⟩) unknown

/-- Opcodes without a meaning can be put in anywhere: the other words are answered as without them,
and of the machine only the count tells how many a running machine met. Since the last reset it
counts all of them, and a step past one does nothing else. -/
theorem unknown_opcodes_leave_only_a_count :
    (∀ (machine : Machine) (words : List PaddedWord),
      let answers := machine.replies (executions words)
      originalReplies words answers = machine.replies (executions (originals words)) ∧
      (∀ (position : Nat) opcode unknown,
        words[position]? = some (.inserted opcode unknown) →
        answers[position]? =
          some (if (machine.after (executions (words.take position))).mode = .halted
            then .error .halted else .ok .nothing)) ∧
      machine.after (executions words) =
        (machine.after (executions (originals words))).passedOver (machine.passedAmong words)) ∧
    (∀ config random calls, calls.length < 2 ^ 64 →
      ((powerOn config random).after calls).unknownCount.toNat =
        ((powerOn config random).sinceReset calls).countP Moment.passesOver) ∧
    ∀ (machine : Machine) opcode, machine.mode = .running →
      machine.memory.word machine.pc = .ok opcode →
      (Instruction.decode opcode).isUnknown = true →
      (machine.call .step).result = .ok .nothing ∧
      (machine.call .step).machine =
        { machine with pc := machine.pc.next, unknownCount := machine.unknownCount + 1 } ∧
      machine.pc.next.toNat = machine.pc.toNat + 2 := by
  refine ⟨?padded, ?counted, ?stepped⟩
  case padded =>
    intro machine words answers
    obtain ⟨results, last⟩ := after_padded machine 0 words
    rw [passedOver_zero] at results last
    rw [Nat.zero_add] at last
    exact ⟨results, fun _ _ _ => inserted_reply, last⟩
  case counted =>
    intro config random calls short
    have few : ((powerOn config random).sinceReset calls).countP Moment.passesOver < 2 ^ 64 :=
      calc
        _ ≤ ((powerOn config random).sinceReset calls).length := List.countP_le_length
        _ ≤ calls.length := length_sinceReset_le _ calls
        _ < 2 ^ 64 := short
    rw [unknownCount_after]
    exact Nat.mod_eq_of_lt few
  case stepped =>
    intro machine opcode running read unknown
    obtain ⟨result, left⟩ := step_of_unknown running read unknown
    exact ⟨result, left, next_toNat_of_word read⟩

/-- Of two words put in the second meets a halted machine. After a reset two are counted, and not
the one during the wait, and the step that follows finds another in the first glyph. -/
theorem halted_machine_refuses_the_second :
    let start := powerOn {} (.cycle #[])
    let words := [.own 0x6105, .inserted 0x0123 rfl, .own 0x00EE, .inserted 0xF1FF rfl, .own 0x6107]
    let plain := start.after (executions (originals words))
    let calls := [.execute 0x0123, .reset, .execute 0x0123, .perform (.unknown 0x8AB8),
      .execute 0xF20A, .execute 0xF1FF, .cancelWait]
    let machine := start.after calls
    words[3]? = some (.inserted 0xF1FF rfl) ∧
      (start.replies (executions words))[3]? = some (.error .halted) ∧
      start.after (executions words) = plain.passedOver 1 ∧
      calls.length < 2 ^ 64 ∧ machine.unknownCount.toNat = 2 ∧
      machine.mode = .running ∧ machine.memory.word machine.pc = .ok 0xF090 ∧
      (machine.call .step).machine =
        { machine with pc := 2, unknownCount := machine.unknownCount + 1 } := by
  intro start words plain calls machine
  obtain ⟨padded, counted, stepped⟩ := unknown_opcodes_leave_only_a_count
  obtain ⟨_, inserted, last⟩ := padded start words
  have short : calls.length < 2 ^ 64 := by decide
  have read : machine.memory.word machine.pc = .ok 0xF090 :=
    (Memory.word_of_font 0 (by decide)).trans rfl
  obtain ⟨_, left, _⟩ := stepped machine 0xF090 rfl read rfl
  exact ⟨rfl, inserted 3 0xF1FF rfl rfl, last, short, counted {} (.cycle #[]) calls short, rfl, read,
    left⟩

end Machine

end Chip8
