import Chip8.Proofs.Safety.Decoding

/-!
Selections of digits as numbers. A selection is a quotient and a remainder, also of all four digits
and of none, and it can be cut in two between any digits. That the fields of an opcode overlap as
they do is a matter of such cuts.
-/

namespace Chip8.Opcode

open Checked

section Selections

variable (opcode : Opcode) {first count : UInt8}

theorem digits_toNat_eq_div_mod (starts : 1 ≤ first.toNat)
    (ends : first.toNat + count.toNat ≤ 5) :
    (opcode.digits first count).toNat =
      opcode.toNat / 16 ^ (5 - first.toNat - count.toNat) % 16 ^ count.toNat := by
  have power : ∀ digits, 2 ^ (4 * digits) = 16 ^ digits := Nat.pow_mul 2 4
  rw [digits_toNat opcode starts ends, Nat.shiftRight_eq_div_pow, Nat.one_shiftLeft, power, power]

theorem digits_lt (starts : 1 ≤ first.toNat) (ends : first.toNat + count.toNat ≤ 5) :
    (opcode.digits first count).toNat < 16 ^ count.toNat := by
  rw [digits_toNat_eq_div_mod opcode starts ends]
  exact Nat.mod_lt _ (Nat.pow_pos (by decide))

theorem digits_toUInt8 (starts : 1 ≤ first.toNat) (ends : first.toNat + count.toNat ≤ 5)
    (few : count.toNat ≤ 2) :
    (opcode.digits first count).toUInt8.toNat = (opcode.digits first count).toNat := by
  have bound := opcode.digits_lt starts ends
  have room : 16 ^ count.toNat ≤ 16 ^ 2 := Nat.pow_le_pow_right (by decide) few
  rw [UInt16.toNat_toUInt8]
  exact Nat.mod_eq_of_lt (by omega)

/-- Nothing passes the mask of no digits, however far the opcode has been moved. -/
theorem digits_none (first : UInt8) : opcode.digits first 0 = 0 := by
  have closed : (digitMask 0).toUInt16 = 0 := by decide
  rw [digits, closed, UInt16.and_zero]

theorem digits_whole : (opcode.digits 1 4).toNat = opcode.toNat := by
  rw [digits_toNat_eq_div_mod opcode (by decide) (by decide)]
  have undivided : opcode.toNat / 16 ^ 0 = opcode.toNat := Nat.div_one _
  have short : opcode.toNat / 16 ^ 0 < 16 ^ 4 := by
    rw [undivided]
    exact opcode.toNat_lt
  exact (Nat.mod_eq_of_lt short).trans undivided

/-- The digits in front stand above those behind. Both are cut from what is left of the opcode when
all that follows them is gone. -/
theorem digits_split (first front back : UInt8) (starts : 1 ≤ first.toNat)
    (ends : first.toNat + front.toNat + back.toNat ≤ 5) :
    (opcode.digits first (front + back)).toNat =
      (opcode.digits first front).toNat * 16 ^ back.toNat +
        (opcode.digits (first + front) back).toNat := by
  have together : (front + back).toNat = front.toNat + back.toNat := by
    rw [UInt8.toNat_add]
    omega
  have next : (first + front).toNat = first.toNat + front.toNat := by
    rw [UInt8.toNat_add]
    omega
  let behind := 5 - first.toNat - (front.toNat + back.toNat)
  have beforeBack : 5 - first.toNat - front.toNat = behind + back.toNat := by omega
  have afterFront : 5 - (first.toNat + front.toNat) - back.toNat = behind := by omega
  calc (opcode.digits first (front + back)).toNat
      = opcode.toNat / 16 ^ behind % 16 ^ (front.toNat + back.toNat) := by
        rw [digits_toNat_eq_div_mod opcode starts (by omega), together]
    _ = opcode.toNat / 16 ^ behind / 16 ^ back.toNat % 16 ^ front.toNat * 16 ^ back.toNat +
          opcode.toNat / 16 ^ behind % 16 ^ back.toNat := by
        rw [Nat.add_comm front.toNat, Nat.pow_add, Nat.mod_mul, Nat.add_comm, Nat.mul_comm]
    _ = _ := by
        rw [Nat.div_div_eq_div_mul, ← Nat.pow_add,
          digits_toNat_eq_div_mod opcode starts (by omega), beforeBack,
          digits_toNat_eq_div_mod opcode (by omega) (by omega), next, afterFront]

/-- Only the empty selection at the first digit is as far off as the opcode is wide. -/
theorem digitShift_lt_iff (starts : 1 ≤ first.toNat) (ends : first.toNat + count.toNat ≤ 5) :
    (digitShift first count).toNat < 16 ↔ ¬(first = 1 ∧ count = 0) := by
  rw [digitShift_toNat starts ends, ← UInt8.toNat_inj, ← UInt8.toNat_inj]
  simp only [UInt8.reduceToNat]
  omega

end Selections

section Fields

variable (opcode : Opcode)

theorem family_above_address :
    opcode.toNat = opcode.family.toNat * 4096 + opcode.address.toNat := by
  have front : opcode.family.toNat = (opcode.digits 1 1).toNat :=
    opcode.digits_toUInt8 (by decide) (by decide) (by decide)
  have cut : (opcode.digits 1 4).toNat = (opcode.digits 1 1).toNat * 4096 + opcode.address.toNat :=
    opcode.digits_split 1 1 3 (by decide) (by decide)
  rw [← opcode.digits_whole, cut, front]

theorem x_above_byte : opcode.address.toNat = opcode.x.toNat * 256 + opcode.byte.toNat := by
  have front : opcode.x.toNat = (opcode.digits 2 1).toNat :=
    opcode.digits_toUInt8 (by decide) (by decide) (by decide)
  have back : opcode.byte.toNat = (opcode.digits 3 2).toNat :=
    opcode.digits_toUInt8 (by decide) (by decide) (by decide)
  rw [front, back]
  exact opcode.digits_split 2 1 2 (by decide) (by decide)

theorem y_above_nibble : opcode.byte.toNat = opcode.y.toNat * 16 + opcode.nibble.toNat := by
  have both : opcode.byte.toNat = (opcode.digits 3 2).toNat :=
    opcode.digits_toUInt8 (by decide) (by decide) (by decide)
  have front : opcode.y.toNat = (opcode.digits 3 1).toNat :=
    opcode.digits_toUInt8 (by decide) (by decide) (by decide)
  have back : opcode.nibble.toNat = (opcode.digits 4 1).toNat :=
    opcode.digits_toUInt8 (by decide) (by decide) (by decide)
  rw [both, front, back]
  exact opcode.digits_split 3 1 1 (by decide) (by decide)

end Fields

/-- A selection that stays inside the opcode is a quotient and a remainder. Its distance and its
mask are reckoned without a hazard, the mask fits in sixteen bits, and the distance is less than
sixteen but for the empty selection at the first digit: a checked shift stops there, and one that
wraps round selects nothing. Two selections side by side make the one over both, and that is how the
fields make the opcode and each other. -/
theorem selections_are_exact_and_compose (opcode : Opcode) :
    (∀ first count : UInt8, 1 ≤ first.toNat → first.toNat + count.toNat ≤ 5 →
      (opcode.digits first count).toNat =
        opcode.toNat / 16 ^ (5 - first.toNat - count.toNat) % 16 ^ count.toNat ∧
      (count = 0 → opcode.digits first count = 0) ∧
      digitShiftChecked first count = .ok (digitShift first count).toNat ∧
      digitMaskChecked count = .ok (digitMask count).toNat ∧
      (digitMask count).toUInt16.toNat = (digitMask count).toNat ∧
      ((digitShift first count).toNat < 16 ↔ ¬(first = 1 ∧ count = 0)) ∧
      opcode.digitsChecked first count =
        if first = 1 ∧ count = 0 then .error .shiftedOut else .ok (opcode.digits first count)) ∧
    (∀ first front back : UInt8, 1 ≤ first.toNat →
      first.toNat + front.toNat + back.toNat ≤ 5 →
      (opcode.digits first (front + back)).toNat =
        (opcode.digits first front).toNat * 16 ^ back.toNat +
          (opcode.digits (first + front) back).toNat) ∧
    opcode.toNat = opcode.family.toNat * 4096 + opcode.address.toNat ∧
    opcode.address.toNat = opcode.x.toNat * 256 + opcode.byte.toNat ∧
    opcode.byte.toNat = opcode.y.toNat * 16 + opcode.nibble.toNat := by
  refine ⟨?selection, opcode.digits_split, opcode.family_above_address, opcode.x_above_byte,
    opcode.y_above_nibble⟩
  intro first count starts ends
  have short : count.toNat ≤ 4 := by omega
  refine ⟨opcode.digits_toNat_eq_div_mod starts ends, ?_, digitShiftChecked_eq starts ends,
    digitMaskChecked_eq short, digitMask_toUInt16 short, digitShift_lt_iff starts ends, ?_⟩
  · rintro rfl
    exact opcode.digits_none first
  · rw [digitsChecked_of_shift opcode starts ends]
    simp only [digitShift_lt_iff starts ends, ite_not]

/-- All four digits, for which the mask is full, and none of them from the first on, for which the
distance is a whole opcode. -/
theorem widest_and_empty_selections :
    let opcode : Opcode := 0xD3A7
    opcode.digitsChecked 1 4 = .ok (opcode.digits 1 4) ∧
      (opcode.digits 1 4).toNat = opcode.toNat / 16 ^ 0 % 16 ^ 4 ∧
      (digitMask 4).toUInt16.toNat = 0xFFFF ∧
      16 ≤ (digitShift 1 0).toNat ∧
      opcode.digitsChecked 1 0 = .error .shiftedOut ∧ opcode.digits 1 0 = 0 ∧
      (opcode.digits 2 3).toNat = (opcode.digits 2 1).toNat * 16 ^ 2 + (opcode.digits 3 2).toNat := by
  intro opcode
  obtain ⟨selects, cuts, _⟩ := selections_are_exact_and_compose opcode
  obtain ⟨whole, _, _, _, mask, _, safe⟩ := selects 1 4 (by decide) (by decide)
  obtain ⟨_, none, _, _, _, near, stopped⟩ := selects 1 0 (by decide) (by decide)
  have far : 16 ≤ (digitShift 1 0).toNat := by
    apply Nat.le_of_not_lt
    intro short
    exact near.mp short ⟨rfl, rfl⟩
  exact ⟨safe, whole, mask, far, stopped, none rfl, cuts 2 1 2 (by decide) (by decide)⟩

end Chip8.Opcode
