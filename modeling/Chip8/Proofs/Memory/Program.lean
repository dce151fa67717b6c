import Chip8.Opcode
import Chip8.Proofs.Memory.Access

/-!
Programs as rows of opcodes. The bytes of a row are those of its opcodes, each with the high byte
first, and once they are loaded every opcode can be read back from its place.
-/

namespace Chip8

def Opcode.bytes (opcode : Opcode) : List UInt8 := [(opcode >>> 8).toUInt8, opcode.toUInt8]

def assembled (opcodes : List Opcode) : List UInt8 := opcodes.flatMap Opcode.bytes

theorem Opcode.word_of_bytes (opcode : Opcode) :
    (opcode >>> 8).toUInt8.toUInt16 <<< 8 ||| opcode.toUInt8.toUInt16 = opcode := by
  have bound := opcode.toNat_lt
  have low : opcode.toNat % 256 < 2 ^ 8 := Nat.mod_lt _ (by decide)
  have joined := Nat.shiftLeft_add_eq_or_of_lt low (opcode.toNat / 256)
  have high : (opcode.toNat / 256 % 256) <<< 8 % 2 ^ 16 = (opcode.toNat / 256) <<< 8 := by
    rw [Nat.shiftLeft_eq, Nat.shiftLeft_eq]
    omega
  apply UInt16.toNat_inj.mp
  simp only [UInt16.toNat_or, UInt16.toNat_shiftLeft, UInt8.toNat_toUInt16, UInt16.toNat_toUInt8,
    UInt16.toNat_shiftRight, UInt16.reduceToNat, Nat.shiftRight_eq_div_pow, Nat.reducePow,
    Nat.reduceMod] at high joined ⊢
  rw [high, ← joined, Nat.shiftLeft_eq]
  omega

theorem length_assembled (opcodes : List Opcode) :
    (assembled opcodes).length = 2 * opcodes.length := by
  induction opcodes with
  | nil => rfl
  | cons opcode rest induction =>
      rw [assembled, List.flatMap_cons, List.length_append, ← assembled, induction]
      simp only [Opcode.bytes, List.length_cons, List.length_nil]
      omega

namespace Memory

def Holds (memory : Memory) : Address → List Opcode → Prop
  | _, [] => True
  | address, opcode :: rest => memory.word address = .ok opcode ∧ memory.Holds address.next rest

theorem Holds.take {memory : Memory} {address : Address} {opcodes : List Opcode}
    (held : memory.Holds address opcodes) (count : Nat) :
    memory.Holds address (opcodes.take count) := by
  induction opcodes generalizing address count with
  | nil =>
      rw [List.take_nil]
      exact held
  | cons opcode rest induction =>
      cases count with
      | zero => trivial
      | succ count => exact ⟨held.1, induction held.2 count⟩

theorem holds_overlay (bytes : Vector UInt8 4096) (address : Address) (opcodes : List Opcode)
    (fits : address.toNat + 2 * opcodes.length ≤ 4096) :
    Holds ⟨overlay bytes address.toNat (assembled opcodes)⟩ address opcodes := by
  induction opcodes generalizing bytes address with
  | nil => trivial
  | cons opcode rest induction =>
      rw [List.length_cons] at fits
      have inside : address.toNat + 1 < 4096 := by omega
      have next : address.next.toNat = address.toNat + 2 := Address.next_toNat (by omega)
      refine ⟨?_, ?_⟩
      · rw [word_of_inside _ inside]
        simp only [overlay_getElem, Nat.le_refl, Nat.le_add_right, if_true, Nat.sub_self,
          Nat.add_sub_cancel_left]
        exact congrArg Except.ok opcode.word_of_bytes
      · have behind : ∀ laid,
            Holds ⟨overlay laid address.next.toNat (assembled rest)⟩ address.next rest :=
          fun laid => induction laid address.next (by omega)
        rw [next] at behind
        exact behind _

theorem load_assembled (memory : Memory) {opcodes : List Opcode} (fits : opcodes.length ≤ 1792) :
    ∃ filled, memory.load (assembled opcodes) = .ok (programStart, filled) ∧
      filled.Holds programStart opcodes := by
  have start : programStart.toNat = 512 := by decide
  have room : programStart.toNat + (assembled opcodes).length ≤ 4096 := by
    rw [length_assembled]
    omega
  refine ⟨_, if_pos room, ?_⟩
  exact holds_overlay memory.bytes programStart opcodes (by omega)

end Memory

end Chip8
