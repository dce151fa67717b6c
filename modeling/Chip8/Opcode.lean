/-!
A 16-bit opcode and its operand fields. Digits are hexadecimal and are counted from the left,
the leftmost being digit 1. The fields overlap: the twelve low bits are an address, and also
a register number followed by a byte, and that byte is a register number followed by a nibble.
-/

namespace Chip8

abbrev Opcode := UInt16

namespace Opcode

def digitShift (first count : UInt8) : UInt8 :=
  (4 - count - (first - 1)) * 4

/-- Keeps the `count` lowest digits. The mask is formed in 32 bits, where that of four digits
still fits. -/
def digitMask (count : UInt8) : UInt32 :=
  (1 <<< (count * 4).toUInt32) - 1

/-- The number that `count` digits from digit `first` on form, for `1 ≤ first` and
`first + count ≤ 5`. -/
def digits (opcode : Opcode) (first count : UInt8) : UInt16 :=
  (opcode >>> (digitShift first count).toUInt16) &&& (digitMask count).toUInt16

def family (opcode : Opcode) : UInt8 := (opcode.digits 1 1).toUInt8

def address (opcode : Opcode) : UInt16 := opcode.digits 2 3

def x (opcode : Opcode) : UInt8 := (opcode.digits 2 1).toUInt8

def y (opcode : Opcode) : UInt8 := (opcode.digits 3 1).toUInt8

def nibble (opcode : Opcode) : UInt8 := (opcode.digits 4 1).toUInt8

def byte (opcode : Opcode) : UInt8 := (opcode.digits 3 2).toUInt8

def ofAddress (family : UInt8) (address : UInt16) : Opcode :=
  family.toUInt16 * 0x1000 + address

def ofByte (family x byte : UInt8) : Opcode :=
  family.toUInt16 * 0x1000 + x.toUInt16 * 0x100 + byte.toUInt16

def ofNibbles (family x y nibble : UInt8) : Opcode :=
  family.toUInt16 * 0x1000 + x.toUInt16 * 0x100 + y.toUInt16 * 0x10 + nibble.toUInt16

/-- The distances of the selections that stay inside an opcode: none of the subtractions wraps. -/
theorem digitShift_toNat {first count : UInt8} (starts : 1 ≤ first.toNat)
    (ends : first.toNat + count.toNat ≤ 5) :
    (digitShift first count).toNat = 4 * (5 - first.toNat - count.toNat) := by
  have table : ∀ start < 6, ∀ length < 5, 1 ≤ start → start + length ≤ 5 →
      (digitShift (UInt8.ofNat start) (UInt8.ofNat length)).toNat = 4 * (5 - start - length) := by
    decide
  have entry := table first.toNat (by omega) count.toNat (by omega) starts ends
  rwa [UInt8.ofNat_toNat, UInt8.ofNat_toNat] at entry

theorem digitMask_toNat {count : UInt8} (short : count.toNat ≤ 4) :
    (digitMask count).toNat = 1 <<< (4 * count.toNat) - 1 := by
  have table : ∀ length < 5, (digitMask (UInt8.ofNat length)).toNat = 1 <<< (4 * length) - 1 := by
    decide
  have entry := table count.toNat (by omega)
  rwa [UInt8.ofNat_toNat] at entry

/-- The mask loses nothing when it is cut to 16 bits. -/
theorem digitMask_toUInt16 {count : UInt8} (short : count.toNat ≤ 4) :
    (digitMask count).toUInt16.toNat = (digitMask count).toNat := by
  have small : 2 ^ (4 * count.toNat) ≤ 2 ^ 16 := Nat.pow_le_pow_right (by decide) (by omega)
  have positive := Nat.two_pow_pos (4 * count.toNat)
  rw [UInt32.toNat_toUInt16, digitMask_toNat short, Nat.one_shiftLeft]
  exact Nat.mod_eq_of_lt (by omega)

/-- Selecting digits drops those behind them and takes the remainder. -/
theorem digits_toNat (opcode : Opcode) {first count : UInt8} (starts : 1 ≤ first.toNat)
    (ends : first.toNat + count.toNat ≤ 5) :
    (opcode.digits first count).toNat =
      opcode.toNat >>> (4 * (5 - first.toNat - count.toNat)) % 1 <<< (4 * count.toNat) := by
  have short : count.toNat ≤ 4 := by omega
  rw [digits, UInt16.toNat_and, digitMask_toUInt16 short, digitMask_toNat short, Nat.one_shiftLeft,
    Nat.and_two_pow_sub_one_eq_mod, UInt16.toNat_shiftRight, UInt8.toNat_toUInt16,
    digitShift_toNat starts ends]
  -- Without digits the distance may be a whole opcode, which is no distance at all.
  by_cases none : count.toNat = 0
  · simp [none, Nat.mod_one]
  · rw [Nat.mod_eq_of_lt (show 4 * (5 - first.toNat - count.toNat) < 16 by omega)]

theorem family_toNat (opcode : Opcode) : opcode.family.toNat = opcode.toNat / 4096 := by
  have bound := opcode.toNat_lt
  rw [family, UInt16.toNat_toUInt8, digits_toNat opcode (by decide) (by decide)]
  simp
  omega

theorem address_toNat (opcode : Opcode) : opcode.address.toNat = opcode.toNat % 4096 := by
  rw [address, digits_toNat opcode (by decide) (by decide)]
  simp

theorem x_toNat (opcode : Opcode) : opcode.x.toNat = opcode.toNat / 256 % 16 := by
  rw [x, UInt16.toNat_toUInt8, digits_toNat opcode (by decide) (by decide)]
  simp
  omega

theorem y_toNat (opcode : Opcode) : opcode.y.toNat = opcode.toNat / 16 % 16 := by
  rw [y, UInt16.toNat_toUInt8, digits_toNat opcode (by decide) (by decide)]
  simp
  omega

theorem nibble_toNat (opcode : Opcode) : opcode.nibble.toNat = opcode.toNat % 16 := by
  rw [nibble, UInt16.toNat_toUInt8, digits_toNat opcode (by decide) (by decide)]
  simp
  omega

theorem byte_toNat (opcode : Opcode) : opcode.byte.toNat = opcode.toNat % 256 := by
  rw [byte, UInt16.toNat_toUInt8, digits_toNat opcode (by decide) (by decide)]
  simp

end Opcode

end Chip8
