import Chip8.Proofs.Opcode.Fields
import Chip8.Proofs.Safety.Checked
import Chip8.Instruction.Decode

/-!
Checked evaluation of decoding. The fields are selected at fixed digits, so the distances and masks
come out of small numbers, and the digit that selects the family has no more than sixteen values.
-/

namespace Chip8

open Checked

/-- The distance is reckoned in bytes and the mask in 32 bits. -/
def Opcode.digitsChecked (opcode : Opcode) (first count : UInt8) : Checked UInt16 := do
  let rest ← difference 4 count.toNat
  let before ← difference first.toNat 1
  let behind ← difference rest before
  let distance ← product 8 behind 4
  let width ← product 8 count.toNat 4
  let bit ← shiftLeft 32 1 width
  let mask ← difference bit 1
  let shifted ← shiftRight 16 opcode.toNat distance
  return shifted.toUInt16 &&& mask.toUInt16

def Instruction.decodeChecked (opcode : Opcode) : Checked Instruction := do
  let _ ← opcode.digitsChecked 2 1
  let _ ← opcode.digitsChecked 3 1
  let family ← opcode.digitsChecked 1 1
  let _ ← opcode.digitsChecked 4 1
  let _ ← opcode.digitsChecked 3 2
  let _ ← opcode.digitsChecked 2 3
  if family.toUInt8.toNat < 16 then return decode opcode else .error .unreachable

namespace Opcode

def digitShiftChecked (first count : UInt8) : Checked Nat := do
  let rest ← difference 4 count.toNat
  let before ← difference first.toNat 1
  let behind ← difference rest before
  product 8 behind 4

def digitMaskChecked (count : UInt8) : Checked Nat := do
  let width ← product 8 count.toNat 4
  let bit ← shiftLeft 32 1 width
  difference bit 1

variable {first count : UInt8}

theorem digitsChecked_eq_bind (opcode : Opcode) (first count : UInt8) :
    opcode.digitsChecked first count = do
      let distance ← digitShiftChecked first count
      let mask ← digitMaskChecked count
      let shifted ← shiftRight 16 opcode.toNat distance
      return shifted.toUInt16 &&& mask.toUInt16 := by
  simp only [digitsChecked, digitShiftChecked, digitMaskChecked, bind_assoc]

theorem digitShiftChecked_eq (starts : 1 ≤ first.toNat) (ends : first.toNat + count.toNat ≤ 5) :
    digitShiftChecked first count = .ok (digitShift first count).toNat := by
  have distance := digitShift_toNat starts ends
  rw [digitShiftChecked, difference_of_le (by omega), ok_bind, difference_of_le starts, ok_bind,
    difference_of_le (by omega), ok_bind, product_of_lt (by omega), distance]
  congr 1
  omega

theorem digitMaskChecked_eq (short : count.toNat ≤ 4) :
    digitMaskChecked count = .ok (digitMask count).toNat := by
  have small : 2 ^ (count.toNat * 4) < 2 ^ 32 := Nat.pow_lt_pow_right (by decide) (by omega)
  have positive := Nat.two_pow_pos (count.toNat * 4)
  rw [digitMaskChecked, product_of_lt (by omega), ok_bind, shiftLeft_of_lt _ (by omega), ok_bind,
    Nat.one_shiftLeft, Nat.mod_eq_of_lt small, difference_of_le positive, digitMask_toNat short,
    Nat.one_shiftLeft, Nat.mul_comm]

/-- Nothing but the last shift can stop a selection that stays inside the opcode. -/
theorem digitsChecked_of_shift (opcode : Opcode) (starts : 1 ≤ first.toNat)
    (ends : first.toNat + count.toNat ≤ 5) :
    opcode.digitsChecked first count =
      if (digitShift first count).toNat < 16 then .ok (opcode.digits first count)
      else .error .shiftedOut := by
  rw [digitsChecked_eq_bind, digitShiftChecked_eq starts ends, ok_bind,
    digitMaskChecked_eq (by omega), ok_bind]
  split
  next moved =>
    have shifted : (opcode.toNat >>> (digitShift first count).toNat).toUInt16 =
        opcode >>> (digitShift first count).toUInt16 := by
      apply UInt16.toNat_inj.mp
      rw [UInt16.toNat_shiftRight, UInt8.toNat_toUInt16, Nat.mod_eq_of_lt moved]
      exact Nat.mod_eq_of_lt (Nat.lt_of_le_of_lt (Nat.shiftRight_le _ _) opcode.toNat_lt)
    rw [shiftRight_of_lt _ moved, ok_bind, shifted, digits]
    rfl
  next far =>
    rw [shiftRight_of_le _ (Nat.le_of_not_lt far)]
    rfl

end Opcode

theorem Instruction.decodeChecked_eq (opcode : Opcode) :
    decodeChecked opcode = .ok (decode opcode) := by
  have selected : ∀ first count : UInt8, 1 ≤ first.toNat → first.toNat + count.toNat ≤ 5 →
      (Opcode.digitShift first count).toNat < 16 →
      opcode.digitsChecked first count = .ok (opcode.digits first count) :=
    fun _ _ starts ends moved => (opcode.digitsChecked_of_shift starts ends).trans (if_pos moved)
  have family : (opcode.digits 1 1).toUInt8.toNat < 16 := opcode.family_lt
  rw [decodeChecked]
  simp (disch := decide) only [selected, ok_bind]
  rw [if_pos family]
  rfl

end Chip8
