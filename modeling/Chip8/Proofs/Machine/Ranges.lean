import Chip8.Proofs.Machine.Failures

/-!
Which ranges of memory are refused. A range of at least one byte is refused exactly if one of its
addresses is outside memory. An empty range has no address and is judged as if it had its first
byte, so that beyond memory it is refused although nothing would be read.
-/

namespace Chip8

namespace Memory

def Inside (address : Address) (count : Nat) : Prop :=
  ∀ place, address.toNat ≤ place → place < address.toNat + count → place < 4096

/-- A range without an address that would begin outside memory. -/
def EmptyBeyond (address : Address) (count : Nat) : Prop :=
  count = 0 ∧ 4096 ≤ address.toNat

section Ranges

variable {address : Address} {count : Nat}

theorem inside_of_empty (address : Address) : Inside address 0 := by
  intro place reached short
  omega

theorem inside_iff_of_pos (positive : 0 < count) :
    Inside address count ↔ address.toNat + (count - 1) < 4096 := by
  constructor
  · intro inside
    exact inside (address.toNat + (count - 1)) (Nat.le_add_right _ _) (by omega)
  · intro last place _ short
    omega

/-- The last address of a range, or the first if it has none, against the ranges that are inside. -/
theorem last_inside_iff : address.toNat + (count - 1) < 4096 ↔
    Inside address count ∧ ¬ EmptyBeyond address count := by
  rcases Nat.eq_zero_or_pos count with rfl | positive
  · have inside := inside_of_empty address
    simp [EmptyBeyond, inside]
  · have nonempty : ¬ EmptyBeyond address count := fun empty => Nat.ne_of_gt positive empty.1
    rw [inside_iff_of_pos positive, and_iff_left nonempty]

theorem checkRange_eq_ok_iff : checkRange address count = .ok () ↔
    Inside address count ∧ ¬ EmptyBeyond address count := by
  rw [← last_inside_iff]
  constructor
  · intro accepted
    rcases Nat.lt_or_ge (address.toNat + (count - 1)) 4096 with inside | outside
    · exact inside
    · rw [checkRange_of_outside outside] at accepted
      cases accepted
  · exact checkRange_of_inside

theorem slice_eq_ok_iff (memory : Memory) :
    (∃ bytes, memory.slice address count = .ok bytes) ↔
      Inside address count ∧ ¬ EmptyBeyond address count := by
  rw [← checkRange_eq_ok_iff, slice]
  cases checkRange address count with
  | ok _ => simp [Except.map]
  | error fault => simp [Except.map]

theorem EmptyBeyond.refused (beyond : EmptyBeyond address count) :
    checkRange address count = .error (.memoryOutOfBounds address.toNat) := by
  obtain ⟨rfl, outside⟩ := beyond
  exact checkRange_of_outside outside

end Ranges

end Memory

namespace Machine

section Draws

variable {machine : Machine} {call : Call} {x y height : UInt8}

/-- A draw is carried out or halts the machine, and the range of its sprite alone decides which. -/
theorem call_of_draw_cases (begun : machine.begun? call = some (.draw x y height)) :
    let last := machine.index.toNat + (height.toNat - 1)
    last < 4096 ∧ (machine.call call).result = .ok .nothing ∨
    4096 ≤ last ∧ (machine.call call).result = .error (.memoryOutOfBounds last) ∧
      (machine.call call).machine = { machine.poised call with mode := .halted } := by
  intro last
  have index := poised_index machine call
  cases verdict : (machine.poised call).rangeFault? height.toNat with
  | none =>
      have inside := inside_of_no_rangeFault verdict
      rw [index] at inside
      exact .inl ⟨inside, (call_of_begun begun verdict).1⟩
  | some fault =>
      obtain ⟨outside, reported⟩ := (rangeFault?_eq_some_iff height.toNat fault).mp verdict
      rw [index] at outside reported
      obtain ⟨result, left⟩ := call_of_faulted begun verdict
      rw [result, left, ← reported]
      exact .inr ⟨outside, rfl, rfl⟩

end Draws

/-- A range is accepted exactly if all its addresses are inside memory, but for the empty ranges
beyond it, which are refused by the address they would begin at. A draw is carried out or halts the
machine as the range of its sprite is accepted or refused. -/
theorem only_empty_ranges_are_misjudged (memory : Memory) (address : Address) (count : Nat) :
    (¬ Memory.EmptyBeyond address count →
      (Memory.checkRange address count = .ok () ↔ Memory.Inside address count) ∧
      ((∃ bytes, memory.slice address count = .ok bytes) ↔ Memory.Inside address count)) ∧
    (Memory.EmptyBeyond address count → Memory.Inside address count ∧
      Memory.checkRange address count = .error (.memoryOutOfBounds address.toNat) ∧
      memory.slice address count = .error (.memoryOutOfBounds address.toNat)) ∧
    ∀ (machine : Machine) (call : Call) (x y height : UInt8),
      machine.begun? call = some (.draw x y height) →
      let drawn := machine.call call
      let start := machine.index
      (drawn.result = .ok .nothing ↔
        Memory.Inside start height.toNat ∧ ¬ Memory.EmptyBeyond start height.toNat) ∧
      (drawn.result ≠ .ok .nothing →
        drawn.result = .error (.memoryOutOfBounds (start.toNat + (height.toNat - 1))) ∧
        drawn.machine = { machine.poised call with mode := .halted }) := by
  refine ⟨?judged, ?misjudged, ?draws⟩
  case judged =>
    intro rest
    rw [Memory.checkRange_eq_ok_iff, memory.slice_eq_ok_iff, and_iff_left rest]
    exact ⟨Iff.rfl, Iff.rfl⟩
  case misjudged =>
    intro beyond
    refine ⟨?_, beyond.refused, ?_⟩
    · rw [beyond.1]
      exact Memory.inside_of_empty address
    · rw [Memory.slice, beyond.refused]
      rfl
  case draws =>
    intro machine call x y height begun drawn start
    rw [← Memory.last_inside_iff]
    rcases call_of_draw_cases begun with ⟨inside, done⟩ | ⟨outside, refused, left⟩
    · exact ⟨⟨fun _ => inside, fun _ => done⟩, fun failed => absurd done failed⟩
    · refine ⟨⟨fun done => ?_, fun inside => ?_⟩, fun _ => ⟨refused, left⟩⟩
      · cases refused.symm.trans done
      · exact absurd inside (Nat.not_lt.mpr outside)

/-- The last byte of memory can be a sprite of one row, and a sprite of two rows would need the next
address. -/
theorem second_row_is_outside :
    let machine := { powerOn {} (.cycle #[]) with index := 0xFFF }
    machine.begun? (.execute 0xD001) = some (.draw 0 0 1) ∧
      (machine.call (.execute 0xD001)).result = .ok .nothing ∧
      (machine.call (.execute 0xD002)).result = .error (.memoryOutOfBounds 0x1000) ∧
      (machine.call (.execute 0xD002)).machine = { machine with mode := .halted } := by
  intro machine
  obtain ⟨_, _, draws⟩ := only_empty_ranges_are_misjudged Memory.initial 0xFFF 1
  obtain ⟨one, _⟩ := draws machine (.execute 0xD001) 0 0 1 rfl
  obtain ⟨two, halts⟩ := draws machine (.execute 0xD002) 0 0 2 rfl
  rw [← Memory.last_inside_iff] at one two
  exact ⟨rfl, one.mpr (by decide), halts (mt two.mp (by decide))⟩

/-- Nothing would be read of a range without bytes, wherever it begins. Beyond memory it is refused
all the same, and a draw without rows halts a machine whose `I` has grown that far. -/
theorem empty_range_beyond_memory_is_refused :
    let machine := (powerOn {} (.cycle #[])).after
      [.execute 0x6001, .execute 0xAFFF, .execute 0xF01E]
    Memory.Inside 0x1000 0 ∧ Memory.checkRange 0x1000 0 = .error (.memoryOutOfBounds 0x1000) ∧
      Memory.initial.slice 0x1000 0 = .error (.memoryOutOfBounds 0x1000) ∧
      machine.mode = .running ∧ machine.index = 0x1000 ∧
      machine.begun? (.execute 0xD000) = some (.draw 0 0 0) ∧
      (machine.call (.execute 0xD000)).result = .error (.memoryOutOfBounds 0x1000) ∧
      (machine.call (.execute 0xD000)).machine.mode = .halted :=
  ⟨Memory.inside_of_empty 0x1000, rfl, rfl, rfl, rfl, rfl, rfl, rfl⟩

end Machine

end Chip8
