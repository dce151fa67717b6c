import Chip8.Proofs.Memory.Access

/-!
Memory after a history of writes. Each byte is what the last write that fits and covers its place
has left there, or what was there at the start, and every access is refused at the same bound
whatever was written before.
-/

namespace Chip8

/-- What is asked of memory: to write one byte, or to lay a program down. -/
inductive Write where
  | set (address : Address) (byte : UInt8)
  | load (program : List UInt8)
  deriving DecidableEq, Repr

namespace Write

def Fits : Write → Prop
  | .set address _ => address.toNat < 4096
  | .load program => 0x200 + program.length ≤ 4096

instance (write : Write) : Decidable write.Fits := by
  cases write <;> exact Nat.decLe _ _

/-- The byte that a write aims at a place. -/
def aimed? (place : Nat) : Write → Option UInt8
  | .set address byte => if address.toNat = place then some byte else none
  | .load program => if 0x200 ≤ place then program[place - 0x200]? else none

/-- The byte that a write leaves at a place. One that does not fit leaves none anywhere. -/
def byteAt? (place : Nat) (write : Write) : Option UInt8 :=
  if write.Fits then write.aimed? place else none

end Write

namespace Memory

def write (memory : Memory) : Write → Except Fault Memory
  | .set address byte => memory.set address byte
  | .load program => (memory.load program).map Prod.snd

def written (memory : Memory) (write : Write) : Memory :=
  match memory.write write with
  | .ok changed => changed
  | .error _ => memory

def writtenBy (memory : Memory) (writes : List Write) : Memory :=
  writes.foldl written memory

section Access

variable (memory : Memory) {address : Address} {program : List UInt8}

theorem get_of_inside (inside : address.toNat < 4096) :
    memory.get address = .ok memory.bytes[address.toNat] := by
  rw [get, locate_of_lt inside]
  rfl

theorem get_of_outside (outside : 4096 ≤ address.toNat) :
    memory.get address = .error (.memoryOutOfBounds address.toNat) := by
  rw [get, locate_of_le outside]
  rfl

theorem set_of_inside (byte : UInt8) (inside : address.toNat < 4096) :
    memory.set address byte = .ok ⟨memory.bytes.set address.toNat byte⟩ := by
  rw [set, locate_of_lt inside]
  rfl

theorem set_of_outside (byte : UInt8) (outside : 4096 ≤ address.toNat) :
    memory.set address byte = .error (.memoryOutOfBounds address.toNat) := by
  rw [set, locate_of_le outside]
  rfl

theorem load_of_fits (fits : 0x200 + program.length ≤ 4096) :
    memory.load program = .ok (programStart, ⟨overlay memory.bytes 0x200 program⟩) :=
  if_pos fits

theorem load_of_oversized (oversized : 4096 < 0x200 + program.length) :
    memory.load program = .error (.programTooLarge program.length 3584) :=
  if_neg (Nat.not_le.mpr oversized)

theorem word_toNat (high low : UInt8) :
    (high.toUInt16 <<< 8 ||| low.toUInt16).toNat = 256 * high.toNat + low.toNat := by
  have bound := high.toNat_lt
  have shifted : (high.toUInt16 <<< 8).toNat = high.toNat <<< 8 := by
    simp only [UInt16.toNat_shiftLeft, UInt8.toNat_toUInt16, UInt16.reduceToNat, Nat.reduceMod,
      Nat.shiftLeft_eq]
    omega
  calc (high.toUInt16 <<< 8 ||| low.toUInt16).toNat
      = high.toNat <<< 8 ||| low.toNat := by
        rw [UInt16.toNat_or, shifted, UInt8.toNat_toUInt16]
    _ = high.toNat <<< 8 + low.toNat :=
        (Nat.shiftLeft_add_eq_or_of_lt low.toNat_lt high.toNat).symm
    _ = 256 * high.toNat + low.toNat := by
        rw [Nat.shiftLeft_eq, Nat.mul_comm]

theorem word_joins_bytes (inside : address.toNat + 1 < 4096) :
    ∃ high low word, memory.get address = .ok high ∧ memory.get (address + 1) = .ok low ∧
      memory.word address = .ok word ∧ word.toNat = 256 * high.toNat + low.toNat := by
  have next : (address + 1).toNat = address.toNat + 1 := by
    rw [UInt16.toNat_add]
    exact Nat.mod_eq_of_lt (by show address.toNat + 1 < 65536; omega)
  have behind : (address + 1).toNat < 4096 := by omega
  refine ⟨_, _, _, memory.get_of_inside (by omega), memory.get_of_inside behind,
    memory.word_of_inside inside, ?_⟩
  rw [word_toNat]
  simp only [next]

theorem slice_of_inside {count : Nat} (inside : address.toNat + (count - 1) < 4096) :
    ∃ bytes, memory.slice address count = .ok bytes ∧
      bytes.map .ok = (List.range count).map fun offset =>
        memory.get (address + offset.toUInt16) := by
  refine ⟨_, by rw [slice, checkRange_of_inside inside]; rfl, ?_⟩
  apply List.ext_getElem
  · simp
    omega
  · intro offset _ within
    have short : offset < count := by simpa using within
    have place : (address + offset.toUInt16).toNat = address.toNat + offset := by
      rw [UInt16.toNat_add]
      simp
      omega
    have there : (address + offset.toUInt16).toNat < 4096 := by omega
    simp only [List.getElem_map, List.getElem_range, get_of_inside memory there, place,
      Vector.getElem_toList, Vector.getElem_extract]

theorem slice_of_outside {count : Nat} (outside : 4096 ≤ address.toNat + (count - 1)) :
    memory.slice address count = .error (.memoryOutOfBounds (address.toNat + (count - 1))) := by
  rw [slice, checkRange_of_outside outside]
  rfl

end Access

section Writes

variable (memory : Memory)

/-- Whether a write is accepted is settled by what it covers, whatever memory holds. -/
theorem write_of_fits {write : Write} (fits : write.Fits) :
    ∃ changed, memory.write write = .ok changed ∧
      ∀ place (inside : place < 4096),
        changed.bytes[place] = (write.aimed? place).getD memory.bytes[place] := by
  cases write with
  | set address byte =>
      have named : address.toNat < 4096 := fits
      refine ⟨_, memory.set_of_inside byte named, ?_⟩
      intro place inside
      simp only [Write.aimed?, Vector.getElem_set]
      split <;> rfl
  | load program =>
      have accepted := memory.load_of_fits fits
      refine ⟨_, by rw [write, accepted]; rfl, ?_⟩
      intro place inside
      simp only [Write.aimed?, overlay_getElem, List.getD_eq_getElem?_getD]
      split <;> rfl

theorem written_of_unfit {write : Write} (unfit : ¬ write.Fits) :
    memory.written write = memory := by
  cases write with
  | set address byte =>
      have refused := memory.set_of_outside byte (Nat.not_lt.mp unfit)
      simp only [written, Memory.write, refused]
  | load program =>
      have refused := memory.load_of_oversized (Nat.not_le.mp unfit)
      simp only [written, Memory.write, refused, Except.map]

theorem written_getElem (write : Write) (place : Nat) (inside : place < 4096) :
    (memory.written write).bytes[place] = (write.byteAt? place).getD memory.bytes[place] := by
  by_cases fits : write.Fits
  · obtain ⟨changed, accepted, bytes⟩ := memory.write_of_fits fits
    have left : memory.written write = changed := by rw [written, accepted]
    rw [Write.byteAt?, if_pos fits, left, bytes place inside]
  · have same := memory.written_of_unfit fits
    rw [Write.byteAt?, if_neg fits, same, Option.getD_none]

theorem writtenBy_getElem (writes : List Write) (place : Nat) (inside : place < 4096) :
    (memory.writtenBy writes).bytes[place] =
      ((writes.filterMap (Write.byteAt? place)).getLast?).getD memory.bytes[place] := by
  induction writes generalizing memory with
  | nil => rfl
  | cons write rest induction =>
      -- what the first write leaves at the place counts only if no later one is aimed there
      change ((memory.written write).writtenBy rest).bytes[place] = _
      rw [induction, written_getElem _ _ _ inside]
      cases here : write.byteAt? place with
      | none => rw [List.filterMap_cons_none here, Option.getD_none]
      | some byte =>
          rw [List.filterMap_cons_some here, List.getLast?_cons, Option.getD_some,
            Option.getD_some]

theorem written_of_load {program : List UInt8} (fits : 0x200 + program.length ≤ 4096)
    (place : Nat) (inside : place < 4096) :
    (memory.written (.load program)).bytes[place] =
      if 0x200 ≤ place then program.getD (place - 0x200) memory.bytes[place]
      else memory.bytes[place] := by
  have accepted : (Write.load program).Fits := fits
  rw [written_getElem _ _ _ inside, Write.byteAt?, if_pos accepted, Write.aimed?]
  split
  next => rw [List.getD_eq_getElem?_getD]
  next => rfl

/-- What is behind the end of a program stays when the program is loaded over a longer one. -/
theorem tail_of_longer {first second : List UInt8} (firstFits : 0x200 + first.length ≤ 4096)
    (secondFits : 0x200 + second.length ≤ 4096) {offset : Nat} (within : offset < first.length)
    (behind : second.length ≤ offset) :
    (memory.writtenBy [.load first, .load second]).get (0x200 + offset.toUInt16) =
      .ok first[offset] := by
  have place : (0x200 + offset.toUInt16 : Address).toNat = 0x200 + offset := by
    rw [UInt16.toNat_add]
    simp
    omega
  have inside : (0x200 + offset.toUInt16 : Address).toNat < 4096 := by omega
  change ((memory.written (.load first)).written (.load second)).get _ = _
  rw [get_of_inside _ inside, written_of_load _ secondFits, written_of_load _ firstFits]
  simp [place, List.getElem?_eq_getElem within, List.getElem?_eq_none behind]

theorem longer_replaces {first second : List UInt8} (fits : 0x200 + second.length ≤ 4096)
    (longer : first.length ≤ second.length) :
    memory.writtenBy [.load first, .load second] = memory.writtenBy [.load second] := by
  have firstFits : 0x200 + first.length ≤ 4096 := by omega
  change (memory.written (.load first)).written (.load second) = memory.written (.load second)
  rw [mk.injEq]
  ext place inside
  rw [written_of_load _ fits _ inside, written_of_load _ fits _ inside,
    written_of_load _ firstFits _ inside]
  by_cases low : 0x200 ≤ place
  · by_cases within : place - 0x200 < second.length
    · simp [low, List.getElem?_eq_getElem within]
    · have beyond : first.length ≤ place - 0x200 := by omega
      simp [low, List.getElem?_eq_none beyond]
  · simp [low]

end Writes

/-- Memory as a map that keeps the last write: `get`, `word` and `slice` read one and the same map,
and neither what they read nor what they refuse depends on anything but the writes that fit. -/
theorem memory_keeps_the_last_write (writes : List Write) :
    let memory := initial.writtenBy writes
    (∀ address : Address, address.toNat < 4096 →
      memory.get address = .ok ((writes.filterMap (Write.byteAt? address.toNat)).getLast?.getD
        (font[address.toNat]?.getD 0)) ∧
      ∀ byte, ∃ changed, memory.set address byte = .ok changed) ∧
    (∀ address : Address, 4096 ≤ address.toNat →
      memory.get address = .error (.memoryOutOfBounds address.toNat) ∧
      ∀ byte, memory.set address byte = .error (.memoryOutOfBounds address.toNat)) ∧
    (∀ program : List UInt8,
      (0x200 + program.length ≤ 4096 → ∃ filled, memory.load program = .ok (0x200, filled)) ∧
      (4096 < 0x200 + program.length →
        memory.load program = .error (.programTooLarge program.length 3584))) ∧
    (∀ write fault, memory.write write = .error fault → memory.written write = memory) ∧
    (∀ address : Address,
      (address.toNat ≤ 0xFFE → ∃ high low word, memory.get address = .ok high ∧
        memory.get (address + 1) = .ok low ∧ memory.word address = .ok word ∧
        word.toNat = 256 * high.toNat + low.toNat) ∧
      (0xFFE < address.toNat → ∃ fault, memory.word address = .error fault)) ∧
    (∀ (address : Address) (count : Nat), 1 ≤ count →
      (address.toNat + count ≤ 4096 → ∃ bytes, memory.slice address count = .ok bytes ∧
        bytes.map .ok = (List.range count).map fun offset =>
          memory.get (address + offset.toUInt16)) ∧
      (4096 < address.toNat + count → ∃ fault, memory.slice address count = .error fault)) ∧
    ∀ first second : List UInt8, 0x200 + first.length ≤ 4096 → 0x200 + second.length ≤ 4096 →
      let loaded := memory.writtenBy [.load first, .load second]
      (∀ offset (within : offset < first.length), second.length ≤ offset →
        loaded.get (0x200 + offset.toUInt16) = .ok first[offset]) ∧
      (first.length ≤ second.length → loaded = memory.writtenBy [.load second]) := by
  intro memory
  refine ⟨?_, ?_, ?_, ?_, ?_, ?_, ?_⟩
  · intro address inside
    refine ⟨?_, fun byte => ⟨_, memory.set_of_inside byte inside⟩⟩
    have start : initial.bytes[address.toNat] = font[address.toNat]?.getD 0 := by
      rw [initial_getElem _ inside]
      split
      next inFont => rw [Vector.getElem?_eq_getElem inFont, Option.getD_some]
      next beyond => rw [Vector.getElem?_eq_none (Nat.not_lt.mp beyond), Option.getD_none]
    rw [get_of_inside _ inside, writtenBy_getElem _ _ _ inside, start]
  · intro address outside
    exact ⟨memory.get_of_outside outside, fun byte => memory.set_of_outside byte outside⟩
  · intro program
    exact ⟨fun fits => ⟨_, memory.load_of_fits fits⟩,
      fun oversized => memory.load_of_oversized oversized⟩
  · intro write fault refused
    rw [written, refused]
  · intro address
    refine ⟨fun inside => memory.word_joins_bytes (by omega), fun outside => ?_⟩
    exact ⟨_, memory.word_of_outside outside⟩
  · intro address count nonempty
    refine ⟨fun inside => memory.slice_of_inside (by omega), fun outside => ?_⟩
    exact ⟨_, memory.slice_of_outside (by omega)⟩
  · intro first second firstFits secondFits loaded
    exact ⟨fun offset within behind => memory.tail_of_longer firstFits secondFits within behind,
      fun longer => memory.longer_replaces secondFits longer⟩

/-- The short program leaves the tail of the long one, and the write behind the end of memory leaves
nothing at all. -/
theorem short_program_leaves_a_tail :
    let writes := [.load [1, 2, 3], .set 0x201 9, .load [7], .set 0x1000 5, .set 0xFFFF 6]
    let memory := initial.writtenBy writes
    memory.get 0x200 = .ok 7 ∧ memory.get 0x201 = .ok 9 ∧ memory.get 0x202 = .ok 3 ∧
      memory.get 0x4F = .ok 0x80 ∧ memory.get 0xFFF = .ok 0 ∧
      memory.get 0x1000 = .error (.memoryOutOfBounds 0x1000) := by
  intro writes memory
  obtain ⟨inside, outside, _⟩ := memory_keeps_the_last_write writes
  exact ⟨(inside 0x200 (by decide)).1, (inside 0x201 (by decide)).1, (inside 0x202 (by decide)).1,
    (inside 0x4F (by decide)).1, (inside 0xFFF (by decide)).1, (outside 0x1000 (by decide)).1⟩

end Memory

end Chip8
