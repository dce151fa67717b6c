/-!
The sixteen registers `V0` to `VF`. A register number is a byte of which the low four bits
count. `VF` also holds the carry, borrow or collision of an instruction that reports one.
-/

namespace Chip8

structure Registers where
  values : Vector UInt8 16
  deriving DecidableEq, Repr

namespace Registers

def zero : Registers := ⟨Vector.replicate 16 0⟩

def slot (number : UInt8) : Fin 16 := ⟨number.toNat % 16, Nat.mod_lt _ (by decide)⟩

def get (registers : Registers) (number : UInt8) : UInt8 := registers.values[slot number]

def set (registers : Registers) (number value : UInt8) : Registers :=
  ⟨registers.values.set (slot number) value⟩

def add (registers : Registers) (number value : UInt8) : Registers :=
  registers.set number (registers.get number + value)

def flagNumber : UInt8 := 0xF

def setFlag (registers : Registers) (flag : Bool) : Registers :=
  registers.set flagNumber flag.toUInt8

def flag (registers : Registers) : UInt8 := registers.get flagNumber

/-- Writes values to the registers from a number on, in order. Past the last register the
numbers begin again, so that of two values for one register the later stays. -/
def setFrom (registers : Registers) (number : UInt8) : List UInt8 → Registers
  | [] => registers
  | value :: rest => (registers.set number value).setFrom (number + 1) rest

def upTo (registers : Registers) (last : UInt8) : List UInt8 :=
  (List.range (last.toNat + 1)).map fun number => registers.get number.toUInt8

theorem get_set (registers : Registers) (written value read : UInt8) :
    (registers.set written value).get read =
      if slot written = slot read then value else registers.get read := by
  simp [get, set, Vector.getElem_set, Fin.ext_iff]

/-- Numbers of four bits name different registers. -/
theorem slot_inj {first second : UInt8} (firstShort : first.toNat < 16)
    (secondShort : second.toNat < 16) : slot first = slot second ↔ first = second := by
  rw [slot, slot, Fin.mk.injEq, Nat.mod_eq_of_lt firstShort, Nat.mod_eq_of_lt secondShort,
    UInt8.toNat_inj]

theorem get_set_self (registers : Registers) (number value : UInt8) :
    (registers.set number value).get number = value := by
  rw [get_set, if_pos rfl]

theorem get_set_of_ne (registers : Registers) {written read : UInt8} (value : UInt8)
    (writtenShort : written.toNat < 16) (readShort : read.toNat < 16) (other : read ≠ written) :
    (registers.set written value).get read = registers.get read := by
  rw [get_set, if_neg (mt (slot_inj writtenShort readShort).mp other.symm)]

theorem get_setFlag (registers : Registers) (flag : Bool) :
    (registers.setFlag flag).get 0xF = flag.toUInt8 :=
  registers.get_set_self flagNumber flag.toUInt8

theorem get_setFlag_of_ne (registers : Registers) (flag : Bool) {read : UInt8}
    (short : read.toNat < 16) (plain : read ≠ 0xF) :
    (registers.setFlag flag).get read = registers.get read :=
  registers.get_set_of_ne flag.toUInt8 (by decide) short plain

theorem setFlag_tells (registers : Registers) {flag : Bool} {condition : Prop}
    (reports : flag = true ↔ condition) :
    (condition → (registers.setFlag flag).get 0xF = 1) ∧
      (¬ condition → (registers.setFlag flag).get 0xF = 0) := by
  rw [get_setFlag]
  refine ⟨fun met => ?_, fun unmet => ?_⟩
  · rw [reports.mpr met]
    rfl
  · rw [Bool.eq_false_iff.mpr (mt reports.mp unmet)]
    rfl

end Registers

end Chip8
