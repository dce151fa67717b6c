import Chip8.Memory

/-!
Which accesses to memory are refused, and with which fault: a range by its last address, and a
word by the first of its two addresses that lies outside.
-/

namespace Chip8

theorem Address.next_toNat {address : Address} (short : address.toNat + 2 < 0x10000) :
    address.next.toNat = address.toNat + 2 := by
  have two : (2 : UInt16).toNat = 2 := by decide
  rw [next, UInt16.toNat_add, two]
  exact Nat.mod_eq_of_lt short

namespace Memory

theorem checkRange_of_inside {address : Address} {count : Nat}
    (inside : address.toNat + (count - 1) < 4096) : checkRange address count = .ok () := by
  unfold checkRange
  split
  next empty =>
    rw [locate_of_lt (by omega)]
    rfl
  next nonempty =>
    have last : address.toNat + count - 1 < 4096 := by omega
    rw [locate_of_lt last]
    rfl

theorem checkRange_of_outside {address : Address} {count : Nat}
    (outside : 4096 ≤ address.toNat + (count - 1)) :
    checkRange address count = .error (.memoryOutOfBounds (address.toNat + (count - 1))) := by
  unfold checkRange
  split
  next empty =>
    subst empty
    rw [locate_of_le (by omega)]
    rfl
  next nonempty =>
    have last : address.toNat + count - 1 = address.toNat + (count - 1) := by omega
    rw [last, locate_of_le outside]
    rfl

theorem slice_bytes {memory : Memory} {address : Address} {count : Nat} {bytes : List UInt8}
    (read : memory.slice address count = .ok bytes) :
    bytes.map some =
      (List.range count).map fun offset => memory.bytes[address.toNat + offset]? := by
  rcases Nat.lt_or_ge (address.toNat + (count - 1)) 4096 with inside | outside
  · rw [slice, checkRange_of_inside inside] at read
    cases read
    apply List.ext_getElem
    · simp
      omega
    · intro offset _ within
      have short : offset < count := by simpa using within
      have there : address.toNat + offset < 4096 := by omega
      simp [Vector.getElem?_eq_getElem there]
  · rw [slice, checkRange_of_outside outside] at read
    cases read

theorem word_of_inside (memory : Memory) {address : Address} (inside : address.toNat + 1 < 4096) :
    memory.word address =
      .ok (memory.bytes[address.toNat].toUInt16 <<< 8 |||
        memory.bytes[address.toNat + 1].toUInt16) := by
  have first : address.toNat < 4096 := by omega
  rw [word, get, locate_of_lt first, locate_of_lt inside]
  rfl

/-- Two bytes of the font that stand side by side, read as an opcode. -/
theorem word_of_font (address : Address) (inFont : address.toNat + 1 < 80) :
    initial.word address =
      .ok (font[address.toNat].toUInt16 <<< 8 ||| font[address.toNat + 1].toUInt16) := by
  have first : address.toNat < 80 := by omega
  rw [word_of_inside initial (by omega), initial_getElem, initial_getElem, dif_pos first,
    dif_pos inFont]

theorem word_of_outside (memory : Memory) {address : Address} (outside : 4095 ≤ address.toNat) :
    memory.word address = .error (.memoryOutOfBounds (max address.toNat 4096)) := by
  by_cases first : address.toNat < 4096
  · have second : 4096 ≤ address.toNat + 1 := by omega
    have reported : max address.toNat 4096 = address.toNat + 1 := by omega
    rw [word, get, locate_of_lt first, locate_of_le second, reported]
    rfl
  · have beyond : 4096 ≤ address.toNat := Nat.not_lt.mp first
    rw [word, get, locate_of_le beyond, Nat.max_eq_left beyond]
    rfl

theorem inside_of_word {memory : Memory} {address : Address} {opcode : UInt16}
    (read : memory.word address = .ok opcode) : address.toNat + 1 < 4096 := by
  rcases Nat.lt_or_ge (address.toNat + 1) 4096 with inside | outside
  · exact inside
  · rw [word_of_outside memory (by omega)] at read
    cases read

theorem word_error_ne_halted {memory : Memory} {address : Address} {fault : Fault}
    (unread : memory.word address = .error fault) : fault ≠ .halted := by
  by_cases inside : address.toNat + 1 < 4096
  · rw [word_of_inside memory inside] at unread
    cases unread
  · rw [word_of_outside memory (by omega)] at unread
    cases unread
    simp

end Memory

end Chip8
