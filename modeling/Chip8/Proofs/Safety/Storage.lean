import Chip8.CallStack
import Chip8.Keypad
import Chip8.Proofs.Memory.Access
import Chip8.Proofs.Safety.Checked
import Chip8.Registers

/-!
Checked evaluation of what is kept in arrays: memory, the call stack, the registers and the keypad.
Addresses are looked at before they are used, and the sums that are made of them are made in a wider
type, except in a store, where the range has been checked before.
-/

namespace Chip8

open Checked

namespace Memory

def initialChecked : Checked Memory := do
  let bytes ← copied (Vector.replicate 4096 0) 0 80 font.toList
  return ⟨bytes⟩

def getChecked (memory : Memory) (address : Address) : Checked (Except Fault UInt8) :=
  usedAt (locate address.toNat) (element memory.bytes)

def setChecked (memory : Memory) (address : Address) (byte : UInt8) :
    Checked (Except Fault Memory) :=
  usedAt (locate address.toNat) fun place => do
    let bytes ← replaced memory.bytes place byte
    return ⟨bytes⟩

def wordChecked (memory : Memory) (address : Address) : Checked (Except Fault UInt16) := do
  match ← memory.getChecked address with
  | .error fault => return .error fault
  | .ok high =>
      let second ← sum 64 address.toNat 1
      match ← usedAt (locate second) (element memory.bytes) with
      | .error fault => return .error fault
      | .ok low =>
          let shifted ← shiftLeft 16 high.toNat 8
          return .ok (shifted.toUInt16 ||| low.toUInt16)

def rangeChecked (address : Address) (count : Nat) : Checked (Except Fault Unit) := do
  if count = 0 then
    return (locate address.toNat).map fun _ => ()
  let stop ← sum 64 address.toNat count
  let last ← difference stop 1
  return (locate last).map fun _ => ()

def sliceChecked (memory : Memory) (address : Address) (count : Nat) :
    Checked (Except Fault (List UInt8)) := do
  match ← rangeChecked address count with
  | .error fault => return .error fault
  | .ok () =>
      let stop ← sum 64 address.toNat count
      let bytes ← extracted memory.bytes address.toNat stop
      return .ok bytes

/-- Every address is the first one plus an offset, and the sum has to be an address again. -/
def storeChecked (memory : Memory) (address : Address) (offset : Nat) :
    List UInt8 → Checked (Memory × Except Fault Unit)
  | [] => return (memory, .ok ())
  | byte :: rest => do
      let place ← sum 16 address.toNat offset
      match ← memory.setChecked place.toUInt16 byte with
      | .ok written => written.storeChecked address (offset + 1) rest
      | .error fault => return (memory, .error fault)

def loadChecked (memory : Memory) (program : List UInt8) :
    Checked (Except Fault (Address × Memory)) := do
  let stop ← sum 64 programStart.toNat program.length
  if 4096 < stop then
    let room ← difference 4096 programStart.toNat
    return .error (.programTooLarge program.length room)
  let bytes ← copied memory.bytes programStart.toNat stop program
  return .ok (programStart, ⟨bytes⟩)

theorem initialChecked_eq : initialChecked = .ok initial := by
  have whole : font.toList.length = 80 := Vector.length_toList
  have fits : 0 + font.toList.length ≤ 4096 := by omega
  have laid := copied_of_fits (Vector.replicate 4096 0) fits
  rw [whole, Nat.zero_add] at laid
  have same : overlay (Vector.replicate 4096 0) 0 font.toList = initial.bytes := by
    ext place inside
    rw [overlay_getElem, if_pos (Nat.zero_le place), initial_getElem place inside]
    split
    next inFont => simp [inFont]
    next beyond => simp [beyond]
  rw [initialChecked, laid, ok_bind, same]
  rfl

section Access

variable (memory : Memory) (address : Address)

theorem getChecked_eq : memory.getChecked address = .ok (memory.get address) :=
  usedAt_eq _ fun place => element_of_lt memory.bytes place.isLt

theorem setChecked_eq (byte : UInt8) :
    memory.setChecked address byte = .ok (memory.set address byte) := by
  apply usedAt_eq
  intro place
  exact return_of_safe (replaced_of_lt _ _ place.isLt) _

theorem high_toUInt16 (high : UInt8) :
    (high.toNat <<< 8 % 2 ^ 16).toUInt16 = high.toUInt16 <<< 8 := by
  apply UInt16.toNat_inj.mp
  simp

theorem wordChecked_eq : memory.wordChecked address = .ok (memory.word address) := by
  have bound := address.toNat_lt
  have second : sum 64 address.toNat 1 = .ok (address.toNat + 1) := sum_of_lt (by omega)
  have low := usedAt_eq (locate (address.toNat + 1))
    fun place => element_of_lt memory.bytes place.isLt
  have shifted : ∀ high : UInt8, shiftLeft 16 high.toNat 8 = .ok (high.toNat <<< 8 % 2 ^ 16) :=
    fun high => shiftLeft_of_lt _ (by decide)
  rw [wordChecked, getChecked_eq, word]
  cases memory.get address with
  | error fault => rfl
  | ok high =>
      simp only [ok_bind, second, low, shifted, high_toUInt16]
      cases locate (address.toNat + 1) <;> rfl

theorem rangeChecked_eq {count : Nat} (short : count ≤ 2 ^ 53) :
    rangeChecked address count = .ok (checkRange address count) := by
  have bound := address.toNat_lt
  rw [rangeChecked, checkRange]
  split
  next => rfl
  next nonempty =>
    rw [sum_of_lt (by omega), ok_bind, difference_of_le (by omega)]
    rfl

theorem stop_le_of_checkRange {count : Nat} (inside : checkRange address count = .ok ()) :
    address.toNat + count ≤ 4096 := by
  by_cases last : address.toNat + (count - 1) < 4096
  · omega
  · rw [checkRange_of_outside (by omega)] at inside
    cases inside

theorem sliceChecked_eq {count : Nat} (short : count ≤ 2 ^ 53) :
    memory.sliceChecked address count = .ok (memory.slice address count) := by
  rw [sliceChecked, rangeChecked_eq address short, slice]
  cases checked : checkRange address count with
  | error fault => rfl
  | ok _ =>
      have fits := stop_le_of_checkRange address checked
      rw [ok_bind]
      simp only
      rw [sum_of_lt (by omega), ok_bind, extracted_of_le _ (by omega) fits]
      rfl

/-- Behind a check of the whole range no address of a store goes round. -/
theorem storeChecked_eq (bytes : List UInt8) (offset : Nat)
    (fits : address.toNat + offset + bytes.length ≤ 4096) :
    memory.storeChecked address offset bytes =
      .ok (memory.store (address + offset.toUInt16) bytes) := by
  induction bytes generalizing memory offset with
  | nil => rfl
  | cons byte rest induction =>
      rw [List.length_cons] at fits
      have place : (address.toNat + offset).toUInt16 = address + offset.toUInt16 := by
        simp
      have next : address + (offset + 1).toUInt16 = address + offset.toUInt16 + 1 := by
        simp [UInt16.add_assoc]
      rw [storeChecked, sum_of_lt (by omega), ok_bind, place, setChecked_eq, ok_bind, store]
      cases memory.set (address + offset.toUInt16) byte with
      | error fault => rfl
      | ok written =>
          rw [← next]
          exact induction written (offset + 1) (by omega)

theorem loadChecked_eq {program : List UInt8} (short : program.length ≤ 2 ^ 53) :
    memory.loadChecked program = .ok (memory.load program) := by
  have start : programStart.toNat = 512 := by decide
  have stop : sum 64 programStart.toNat program.length =
      .ok (programStart.toNat + program.length) := sum_of_lt (by omega)
  rw [loadChecked, stop, ok_bind, load]
  by_cases fits : programStart.toNat + program.length ≤ 4096
  · rw [if_neg (Nat.not_lt.mpr fits), if_pos fits, copied_of_fits _ fits]
    rfl
  · rw [if_pos (Nat.not_le.mp fits), if_neg fits]
    rfl

end Access

end Memory

namespace CallStack

/-- The depth that is left has to be one that a stack can have, so that a safe push keeps it at
sixteen or below. -/
def pushChecked (stack : CallStack) (address : Address) : Checked (Except Fault CallStack) := do
  if stack.depth = 16 then
    return .error (.stackOverflow 16)
  let slots ← replaced stack.slots stack.depth address
  let depth ← sum 64 stack.depth 1
  if bound : depth ≤ 16 then return .ok { slots, depth } else .error .outside

def popChecked (stack : CallStack) : Checked (Except Fault (Address × CallStack)) := do
  if stack.depth = 0 then
    return .error .stackUnderflow
  let depth ← difference stack.depth 1
  let address ← element stack.slots depth
  if bound : depth ≤ 16 then return .ok (address, { slots := stack.slots, depth })
  else .error .outside

theorem pushChecked_eq (stack : CallStack) (address : Address) :
    stack.pushChecked address = .ok (stack.push address) := by
  have bound := stack.depth_le
  rw [pushChecked, push]
  by_cases room : stack.depth < 16
  · have below : ¬ stack.depth = 16 := by omega
    rw [if_neg below, dif_pos room, replaced_of_lt _ _ room, ok_bind, sum_of_lt (by omega),
      ok_bind, dif_pos (show stack.depth + 1 ≤ 16 by omega)]
    rfl
  · rw [if_pos (by omega), dif_neg room]
    rfl

theorem popChecked_eq (stack : CallStack) : stack.popChecked = .ok stack.pop := by
  have bound := stack.depth_le
  rw [popChecked, pop]
  by_cases nonempty : 0 < stack.depth
  · rw [if_neg (by omega), dif_pos nonempty, difference_of_le (by omega), ok_bind,
      element_of_lt _ (by omega), ok_bind, dif_pos (show stack.depth - 1 ≤ 16 by omega)]
    rfl
  · rw [if_pos (by omega), dif_neg nonempty]
    rfl

end CallStack

namespace Registers

def getChecked (registers : Registers) (number : UInt8) : Checked UInt8 :=
  element registers.values (number &&& 0xF).toNat

def setChecked (registers : Registers) (number value : UInt8) : Checked Registers := do
  let values ← replaced registers.values (number &&& 0xF).toNat value
  return ⟨values⟩

def addChecked (registers : Registers) (number value : UInt8) : Checked Registers := do
  let sum := (← registers.getChecked number) + value
  registers.setChecked number sum

def setFlagChecked (registers : Registers) (flag : Bool) : Checked Registers :=
  registers.setChecked flagNumber flag.toUInt8

def setFromChecked (registers : Registers) (number : UInt8) : List UInt8 → Checked Registers
  | [] => return registers
  | value :: rest => do
      let changed ← registers.setChecked number value
      changed.setFromChecked (number + 1) rest

def upToChecked (registers : Registers) (last : UInt8) : Checked (List UInt8) := do
  let count ← sum 64 last.toNat 1
  (List.range count).mapM fun number => registers.getChecked number.toUInt8

variable (registers : Registers) (number : UInt8)

theorem low_bits_toNat : (number &&& 0xF).toNat = (slot number).val := by
  rw [UInt8.toNat_and]
  exact Nat.and_two_pow_sub_one_eq_mod number.toNat 4

theorem low_bits_lt : (number &&& 0xF).toNat < 16 := by
  rw [low_bits_toNat]
  exact (slot number).isLt

theorem getChecked_eq : registers.getChecked number = .ok (registers.get number) := by
  rw [getChecked, element_of_lt _ (low_bits_lt number)]
  simp only [low_bits_toNat]
  rfl

theorem setChecked_eq (value : UInt8) :
    registers.setChecked number value = .ok (registers.set number value) := by
  rw [setChecked, replaced_of_lt _ _ (low_bits_lt number)]
  simp only [low_bits_toNat]
  rfl

theorem addChecked_eq (value : UInt8) :
    registers.addChecked number value = .ok (registers.add number value) := by
  rw [addChecked, getChecked_eq, ok_bind, setChecked_eq, add]

theorem setFlagChecked_eq (flag : Bool) :
    registers.setFlagChecked flag = .ok (registers.setFlag flag) :=
  setChecked_eq registers flagNumber flag.toUInt8

theorem setFromChecked_eq (values : List UInt8) :
    registers.setFromChecked number values = .ok (registers.setFrom number values) := by
  induction values generalizing registers number with
  | nil => rfl
  | cons value rest induction =>
      rw [setFromChecked, setChecked_eq, ok_bind, induction, setFrom]

theorem upToChecked_eq (last : UInt8) :
    registers.upToChecked last = .ok (registers.upTo last) := by
  have bound := last.toNat_lt
  rw [upToChecked, sum_of_lt (by omega), ok_bind, upTo]
  simp only [getChecked_eq]
  exact List.mapM_pure

end Registers

namespace Keypad

def isDownChecked (keypad : Keypad) (key : UInt8) : Checked (Except Fault Bool) :=
  usedAt (locate key) (element keypad.down)

def setDownChecked (keypad : Keypad) (key : UInt8) (down : Bool) :
    Checked (Except Fault Keypad) :=
  usedAt (locate key) fun place => do
    let keys ← replaced keypad.down place down
    return ⟨keys⟩

theorem isDownChecked_eq (keypad : Keypad) (key : UInt8) :
    keypad.isDownChecked key = .ok (keypad.isDown key) :=
  usedAt_eq _ fun place => element_of_lt keypad.down place.isLt

theorem setDownChecked_eq (keypad : Keypad) (key : UInt8) (down : Bool) :
    keypad.setDownChecked key down = .ok (keypad.setDown key down) := by
  apply usedAt_eq
  intro place
  exact return_of_safe (replaced_of_lt _ _ place.isLt) _

end Keypad

end Chip8
