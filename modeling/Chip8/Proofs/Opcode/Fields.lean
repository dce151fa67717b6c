import Chip8.Opcode

/-!
Opcodes taken apart into fields and put together from them. Each of the three layouts covers all
four digits, so that an opcode is what its fields make, and fields that are short enough for their
digits are found again in the opcode that they make.
-/

namespace Chip8.Opcode

section Whole

variable (opcode : Opcode)

theorem ofAddress_fields : ofAddress opcode.family opcode.address = opcode := by
  have bound := opcode.toNat_lt
  apply UInt16.toNat_inj.mp
  simp only [ofAddress, UInt16.toNat_add, UInt16.toNat_mul, UInt8.toNat_toUInt16, family_toNat,
    address_toNat, UInt16.reduceToNat]
  omega

theorem ofByte_fields : ofByte opcode.family opcode.x opcode.byte = opcode := by
  have bound := opcode.toNat_lt
  apply UInt16.toNat_inj.mp
  simp only [ofByte, UInt16.toNat_add, UInt16.toNat_mul, UInt8.toNat_toUInt16, family_toNat,
    x_toNat, byte_toNat, UInt16.reduceToNat]
  omega

theorem ofNibbles_fields :
    ofNibbles opcode.family opcode.x opcode.y opcode.nibble = opcode := by
  have bound := opcode.toNat_lt
  apply UInt16.toNat_inj.mp
  simp only [ofNibbles, UInt16.toNat_add, UInt16.toNat_mul, UInt8.toNat_toUInt16, family_toNat,
    x_toNat, y_toNat, nibble_toNat, UInt16.reduceToNat]
  omega

/-- Without its last digit an opcode is what its other three make. -/
theorem ofNibbles_zero : ofNibbles opcode.family opcode.x opcode.y 0 = opcode / 16 * 16 := by
  have bound := opcode.toNat_lt
  apply UInt16.toNat_inj.mp
  simp only [ofNibbles, UInt16.toNat_add, UInt16.toNat_mul, UInt16.toNat_div,
    UInt8.toNat_toUInt16, family_toNat, x_toNat, y_toNat, UInt16.reduceToNat, UInt8.reduceToNat]
  omega

theorem family_lt : opcode.family.toNat < 16 := by
  have bound := opcode.toNat_lt
  rw [family_toNat]
  omega

theorem address_lt : opcode.address.toNat < 4096 := by
  rw [address_toNat]
  exact Nat.mod_lt _ (by decide)

theorem x_lt : opcode.x.toNat < 16 := by
  rw [x_toNat]
  exact Nat.mod_lt _ (by decide)

theorem y_lt : opcode.y.toNat < 16 := by
  rw [y_toNat]
  exact Nat.mod_lt _ (by decide)

theorem nibble_lt : opcode.nibble.toNat < 16 := by
  rw [nibble_toNat]
  exact Nat.mod_lt _ (by decide)

theorem byte_of_digits :
    opcode.byte.toNat = opcode.toNat / 16 % 16 * 16 + opcode.toNat % 16 := by
  rw [byte_toNat]
  omega

theorem byte_digits : opcode.toNat / 16 % 16 = opcode.byte.toNat / 16 ∧
    opcode.toNat % 16 = opcode.byte.toNat % 16 := by
  rw [byte_toNat]
  omega

theorem register_of_x : (opcode.toNat / 256 % 16).toUInt8 = opcode.x := by
  apply UInt8.toNat_inj.mp
  rw [x_toNat]
  exact Nat.mod_eq_of_lt (by omega)

theorem register_of_y : (opcode.toNat / 16 % 16).toUInt8 = opcode.y := by
  apply UInt8.toNat_inj.mp
  rw [y_toNat]
  exact Nat.mod_eq_of_lt (by omega)

end Whole

section Made

variable {family x y nibble : UInt8} (byte : UInt8) {address : UInt16}

theorem ofAddress_toNat (familyShort : family.toNat < 16) (short : address.toNat < 4096) :
    (ofAddress family address).toNat = family.toNat * 4096 + address.toNat := by
  simp only [ofAddress, UInt16.toNat_add, UInt16.toNat_mul, UInt8.toNat_toUInt16,
    UInt16.reduceToNat]
  omega

theorem ofByte_toNat (familyShort : family.toNat < 16) (xShort : x.toNat < 16) :
    (ofByte family x byte).toNat = family.toNat * 4096 + x.toNat * 256 + byte.toNat := by
  have bound := byte.toNat_lt
  simp only [ofByte, UInt16.toNat_add, UInt16.toNat_mul, UInt8.toNat_toUInt16,
    UInt16.reduceToNat]
  omega

theorem ofNibbles_toNat (familyShort : family.toNat < 16) (xShort : x.toNat < 16)
    (yShort : y.toNat < 16) (short : nibble.toNat < 16) :
    (ofNibbles family x y nibble).toNat =
      family.toNat * 4096 + x.toNat * 256 + y.toNat * 16 + nibble.toNat := by
  simp only [ofNibbles, UInt16.toNat_add, UInt16.toNat_mul, UInt8.toNat_toUInt16,
    UInt16.reduceToNat]
  omega

theorem family_ofAddress (familyShort : family.toNat < 16) (short : address.toNat < 4096) :
    (ofAddress family address).family = family := by
  apply UInt8.toNat_inj.mp
  rw [family_toNat, ofAddress_toNat familyShort short]
  omega

theorem address_ofAddress (familyShort : family.toNat < 16) (short : address.toNat < 4096) :
    (ofAddress family address).address = address := by
  apply UInt16.toNat_inj.mp
  rw [address_toNat, ofAddress_toNat familyShort short]
  omega

theorem family_ofByte (familyShort : family.toNat < 16) (xShort : x.toNat < 16) :
    (ofByte family x byte).family = family := by
  have bound := byte.toNat_lt
  apply UInt8.toNat_inj.mp
  rw [family_toNat, ofByte_toNat byte familyShort xShort]
  omega

theorem x_ofByte (familyShort : family.toNat < 16) (xShort : x.toNat < 16) :
    (ofByte family x byte).x = x := by
  have bound := byte.toNat_lt
  apply UInt8.toNat_inj.mp
  rw [x_toNat, ofByte_toNat byte familyShort xShort]
  omega

theorem byte_ofByte (familyShort : family.toNat < 16) (xShort : x.toNat < 16) :
    (ofByte family x byte).byte = byte := by
  have bound := byte.toNat_lt
  apply UInt8.toNat_inj.mp
  rw [byte_toNat, ofByte_toNat byte familyShort xShort]
  omega

section Nibbles

variable (familyShort : family.toNat < 16) (xShort : x.toNat < 16) (yShort : y.toNat < 16)
  (short : nibble.toNat < 16)

include familyShort xShort yShort short

theorem family_ofNibbles : (ofNibbles family x y nibble).family = family := by
  apply UInt8.toNat_inj.mp
  rw [family_toNat, ofNibbles_toNat familyShort xShort yShort short]
  omega

theorem x_ofNibbles : (ofNibbles family x y nibble).x = x := by
  apply UInt8.toNat_inj.mp
  rw [x_toNat, ofNibbles_toNat familyShort xShort yShort short]
  omega

theorem y_ofNibbles : (ofNibbles family x y nibble).y = y := by
  apply UInt8.toNat_inj.mp
  rw [y_toNat, ofNibbles_toNat familyShort xShort yShort short]
  omega

theorem nibble_ofNibbles : (ofNibbles family x y nibble).nibble = nibble := by
  apply UInt8.toNat_inj.mp
  rw [nibble_toNat, ofNibbles_toNat familyShort xShort yShort short]
  omega

end Nibbles

end Made

end Chip8.Opcode
