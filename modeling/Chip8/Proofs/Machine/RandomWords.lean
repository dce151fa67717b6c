import Chip8.Proofs.Machine.HostFootprints

/-!
Where the random words go. Each random instruction that is carried out takes one, and nothing else
takes any. A reset restores all of the machine but the words, so what follows it is what happens on
a new machine that begins with the words that are left.
-/

namespace Chip8

def Instruction.isRandom : Instruction → Bool
  | .random _ _ => true
  | _ => false

theorem Instruction.random_unused {instruction : Instruction}
    (plain : instruction.isRandom = false) :
    .random ∉ instruction.reads ∧ .random ∉ instruction.writes := by
  cases instruction with
  | random x mask => cases plain
  | skipIf condition => cases condition <;> simp [reads, Condition.reads, writes]
  | _ => simp [reads, writes]

def WordSource.SameRest (first second : WordSource) : Prop :=
  ∀ offset, second.word (second.used + offset) = first.word (first.used + offset)

theorem WordSource.SameRest.nextByte {first second : WordSource} (same : first.SameRest second) :
    second.nextByte.1 = first.nextByte.1 ∧ first.nextByte.2.SameRest second.nextByte.2 := by
  refine ⟨?_, ?_⟩
  · exact congrArg UInt32.toUInt8 (same 0)
  · intro offset
    have behind := same (1 + offset)
    rwa [← Nat.add_assoc, ← Nat.add_assoc] at behind

namespace Machine

def takesWord (machine : Machine) (call : Call) : Bool :=
  (machine.begun? call).any Instruction.isRandom

def wordsTaken (machine : Machine) : List Call → Nat
  | [] => 0
  | call :: rest =>
      (machine.takesWord call).toNat + (machine.call call).machine.wordsTaken rest

section Calls

variable {machine : Machine} {call : Call}

theorem takesWord_iff :
    machine.takesWord call = true ↔ ∃ x mask, machine.begun? call = some (.random x mask) := by
  unfold takesWord
  cases machine.begun? call with
  | none => simp
  | some instruction => cases instruction <;> simp [Instruction.isRandom]

theorem spared_of_begun {instruction : Instruction} (spares : machine.takesWord call = false)
    (begun : machine.begun? call = some instruction) : instruction.isRandom = false := by
  rwa [takesWord, begun, Option.any_some] at spares

theorem random_unread (spares : machine.takesWord call = false) :
    .random ∉ machine.reads call := by
  intro looked
  rcases mem_reads looked with other | ⟨instruction, begun, inside⟩
  · simp at other
  · exact (Instruction.random_unused (spared_of_begun spares begun)).1 inside

theorem random_unwritten (spares : machine.takesWord call = false) :
    .random ∉ machine.writes call := by
  intro written
  rcases mem_writes written with other | ⟨instruction, begun, inside⟩
  · exact other (by simp)
  · exact (Instruction.random_unused (spared_of_begun spares begun)).2 inside

theorem random_of_spared (spares : machine.takesWord call = false) :
    (machine.call call).machine.random = machine.random :=
  call_unwritten (random_unwritten spares)

theorem call_config (machine : Machine) (call : Call) :
    (machine.call call).machine.config = machine.config := by
  have unwritten : .config ∉ machine.writes call := by
    intro written
    rcases mem_writes written with other | ⟨instruction, _, inside⟩
    · exact other (by simp)
    · exact instruction.unwritten (by simp) inside
  exact call_unwritten unwritten

theorem after_config (machine : Machine) (calls : List Call) :
    (machine.after calls).config = machine.config := by
  induction calls generalizing machine with
  | nil => rfl
  | cons call rest induction => exact (induction _).trans (call_config machine call)

theorem call_random {x mask : UInt8} (begun : machine.begun? call = some (.random x mask)) :
    (machine.call call).result = .ok .nothing ∧
      (machine.call call).machine = (machine.poised call).randomize x mask :=
  call_of_begun begun rfl

theorem random_of_call (machine : Machine) (call : Call) :
    (machine.call call).machine.random =
      { machine.random with used := machine.random.used + (machine.takesWord call).toNat } := by
  cases taking : machine.takesWord call with
  | false => exact random_of_spared taking
  | true =>
      obtain ⟨x, mask, begun⟩ := takesWord_iff.mp taking
      rw [(call_random begun).2]
      simp only [randomize, poised_random]
      rfl

theorem random_after (machine : Machine) (calls : List Call) :
    (machine.after calls).random =
      { machine.random with used := machine.random.used + machine.wordsTaken calls } := by
  induction calls generalizing machine with
  | nil => rfl
  | cons call rest induction =>
      rw [after_cons, induction, random_of_call, wordsTaken, Nat.add_assoc]

end Calls

/-- Two machines differ at most in the words used so far, and the same words are to come. -/
structure Alike (first second : Machine) : Prop where
  parts : ∀ part, part ≠ .random → first.Agree second part
  words : first.random.SameRest second.random

section Alike

variable {first second : Machine}

theorem Alike.begun? (alike : Alike first second) (call : Call) :
    second.begun? call = first.begun? call :=
  AgreeBut.begun? alike.parts (by decide) call

theorem Alike.poised (alike : Alike first second) (call : Call) :
    Alike (first.poised call) (second.poised call) where
  parts part other := (alike.parts part other).poised call
  words := by
    rw [poised_random, poised_random]
    exact alike.words

theorem Alike.randomize (alike : Alike first second) (x mask : UInt8) :
    Alike (first.randomize x mask) (second.randomize x mask) := by
  obtain ⟨byte, rest⟩ := alike.words.nextByte
  refine ⟨?_, rest⟩
  intro part other
  cases part with
  | registers =>
      have registers : second.registers = first.registers := alike.parts .registers other
      show second.registers.set x _ = first.registers.set x _
      rw [registers, byte]
  | random => exact absurd rfl other
  | _ => exact alike.parts _ other

theorem Alike.call (alike : Alike first second) (call : Call) :
    (second.call call).result = (first.call call).result ∧
      Alike (first.call call).machine (second.call call).machine := by
  have begunThere := alike.begun? call
  cases taking : first.takesWord call with
  | true =>
      obtain ⟨x, mask, begun⟩ := takesWord_iff.mp taking
      obtain ⟨result, left⟩ := call_random begun
      obtain ⟨resultThere, leftThere⟩ := call_random (begunThere.trans begun)
      rw [result, left, resultThere, leftThere]
      exact ⟨rfl, (alike.poised call).randomize x mask⟩
  | false =>
      have takingThere : second.takesWord call = false := by
        rw [takesWord, begunThere, ← takesWord, taking]
      -- nothing that the call looks at tells the two machines apart
      obtain ⟨result, parts⟩ := AgreeBut.call alike.parts (random_unread taking)
      refine ⟨result, parts, ?_⟩
      rw [random_of_spared taking, random_of_spared takingThere]
      exact alike.words

theorem Alike.after (alike : Alike first second) (calls : List Call) :
    second.replies calls = first.replies calls ∧
      Alike (first.after calls) (second.after calls) := by
  induction calls generalizing first second with
  | nil => exact ⟨rfl, alike⟩
  | cons call rest induction =>
      obtain ⟨result, left⟩ := alike.call call
      obtain ⟨results, behind⟩ := induction left
      refine ⟨?_, behind⟩
      rw [replies, replies, result, results]

theorem alike_powerOn (config : Config) {source fresh : WordSource}
    (same : source.SameRest fresh) : Alike (powerOn config source) (powerOn config fresh) where
  parts part other := by
    cases part with
    | random => exact absurd rfl other
    | _ => exact rfl
  words := same

end Alike

/-- Random instructions take one word each in the order in which they are carried out, nothing else
takes any, and a reset restores everything but the words. -/
theorem random_instructions_take_the_words (config : Config) (source : WordSource)
    (calls : List Call) :
    let machine := (powerOn config source).after calls
    let used := source.used + (powerOn config source).wordsTaken calls
    machine.random = { source with used } ∧
    (∀ call x mask, machine.begun? call = some (.random x mask) →
      (machine.call call).result = .ok .nothing ∧
      (machine.call call).machine.registers.get x = (source.word used).toUInt8 &&& mask ∧
      (machine.call call).machine.random = { source with used := used + 1 }) ∧
    (∀ call, (∀ x mask, machine.begun? call ≠ some (.random x mask)) →
      (machine.call call).machine.random = machine.random) ∧
    machine.reset = powerOn config { source with used } ∧
    ∀ fresh : WordSource,
      (∀ offset, fresh.word (fresh.used + offset) = source.word (used + offset)) →
      ∀ further, machine.reset.replies further = (powerOn config fresh).replies further ∧
        Alike (machine.reset.after further) ((powerOn config fresh).after further) := by
  intro machine used
  have random : machine.random = { source with used } := random_after _ calls
  have reset : machine.reset = powerOn config { source with used } := by
    have same : machine.config = config := after_config _ calls
    rw [reset_eq_powerOn, same, random]
  refine ⟨random, ?taking, ?sparing, reset, ?restarted⟩
  case taking =>
    intro call x mask begun
    obtain ⟨result, left⟩ := call_random begun
    refine ⟨result, ?_, ?_⟩
    · rw [left]
      simp only [randomize, Registers.get_set, if_pos, poised_random, random]
      rfl
    · rw [left]
      simp only [randomize, poised_random, random]
      rfl
  case sparing =>
    intro call other
    have spares : machine.takesWord call = false := by
      apply Bool.eq_false_iff.mpr
      intro taking
      obtain ⟨x, mask, begun⟩ := takesWord_iff.mp taking
      exact other x mask begun
    exact random_of_spared spares
  case restarted =>
    intro fresh same further
    rw [reset]
    have alike : Alike (powerOn config { source with used }) (powerOn config fresh) :=
      alike_powerOn config same
    obtain ⟨results, left⟩ := alike.after further
    exact ⟨results.symm, left⟩

/-- Two words go round in a circle. One of them is taken before the fault and one behind the reset,
although its mask hides it, and then the first word comes again. -/
theorem second_word_closes_the_circle :
    let source := WordSource.cycle #[0x1234, 0x5678]
    let calls := [.execute 0xC1FF, .execute 0x00EE, .execute 0xC2FF, .reset, .execute 0xC300]
    let machine := (powerOn {} source).after calls
    machine.random.used = 2 ∧
      machine.begun? (.execute 0xC4F0) = some (.random 4 0xF0) ∧
      (machine.call (.execute 0xC4F0)).machine.registers.get 4 = 0x30 ∧
      (∀ x mask, machine.begun? (.perform .ret) ≠ some (.random x mask)) ∧
      (machine.call (.perform .ret)).machine.random = machine.random ∧
      (∀ offset, source.word (source.used + offset) = source.word (2 + offset)) ∧
      ∀ further, machine.reset.replies further = (powerOn {} source).replies further := by
  intro source calls machine
  have begun : machine.begun? (.execute 0xC4F0) = some (.random 4 0xF0) := rfl
  have other : ∀ x mask, machine.begun? (.perform .ret) ≠ some (.random x mask) := by
    have plain : machine.begun? (.perform .ret) = some .ret := rfl
    simp [plain]
  have round : ∀ offset, source.word (source.used + offset) = source.word (2 + offset) := by
    intro offset
    have position : (0 + offset) % 2 = (2 + offset) % 2 := by omega
    exact congrArg (fun place => #[(0x1234 : UInt32), 0x5678].getD place 0) position
  obtain ⟨random, taking, sparing, _, restarted⟩ :=
    random_instructions_take_the_words {} source calls
  obtain ⟨_, value, _⟩ := taking (.execute 0xC4F0) 4 0xF0 begun
  have twice : (powerOn {} source).wordsTaken calls = 2 := by rfl
  rw [twice] at value
  refine ⟨congrArg WordSource.used random, begun, value.trans (by decide), other,
    sparing _ other, round, ?_⟩
  intro further
  exact (restarted source round further).1

end Machine

end Chip8
