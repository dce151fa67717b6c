import Chip8.Proofs.Instruction.Encoding
import Chip8.Proofs.Machine.Failures
import Chip8.Proofs.Machine.RegisterBlocks

/-!
Decimal digits in memory. The digits of a register are stored as a whole or not at all, and a load
of the first three registers takes them up again, whatever register they came from.
-/

namespace Chip8

structure Decimal (value : Nat) (hundreds tens units : UInt8) : Prop where
  low : hundreds.toNat ≤ 9 ∧ tens.toNat ≤ 9 ∧ units.toNat ≤ 9
  sum : 100 * hundreds.toNat + 10 * tens.toNat + units.toNat = value

theorem decimal_of_byte (value : UInt8) :
    Decimal value.toNat (value / 100) (value / 10 % 10) (value % 10) := by
  have bound := value.toNat_lt
  have hundreds : (value / 100).toNat = value.toNat / 100 := UInt8.toNat_div value 100
  have tens : (value / 10 % 10).toNat = value.toNat / 10 % 10 := by
    rw [UInt8.toNat_mod, UInt8.toNat_div]
    rfl
  have units : (value % 10).toNat = value.toNat % 10 := UInt8.toNat_mod value 10
  constructor
  · rw [hundreds, tens, units]
    omega
  · rw [hundreds, tens, units]
    omega

namespace Machine

/-- The three bytes at `I` are the digits of a value, hundreds first. -/
def HasDigits (machine : Machine) (value : UInt8) : Prop :=
  ∀ offset (within : offset < 3), machine.memory.bytes[machine.index.toNat + offset]? =
    some ((decimalDigits value).get ⟨offset, within⟩)

section Calls

variable {machine : Machine} {call : Call} {x last : UInt8}

theorem call_of_storeDecimal (begun : machine.begun? call = some (.storeDecimal x))
    (fits : machine.index.toNat + 2 ≤ 4095) :
    (machine.call call).result = .ok .nothing ∧
      (machine.call call).machine = { machine.poised call with
        memory := ⟨Memory.overlay machine.memory.bytes machine.index.toNat
          (decimalDigits (machine.registers.get x))⟩ } := by
  obtain ⟨pc, frame⟩ := poised_frame machine call
  have clear : (machine.poised call).rangeFault? 3 = none := by
    rw [frame]
    exact @no_rangeFault_of_fits { machine with pc } 2 fits
  obtain ⟨result, left⟩ := call_of_begun begun clear
  refine ⟨result, left.trans ?_⟩
  rw [frame] at clear ⊢
  rw [apply, storeAtIndex_of_no_rangeFault (length_decimalDigits _) clear]
  rfl

theorem hasDigits_of_storeDecimal (begun : machine.begun? call = some (.storeDecimal x))
    (fits : machine.index.toNat + 2 ≤ 4095) :
    (machine.call call).machine.HasDigits (machine.registers.get x) := by
  intro offset within
  rw [(call_of_storeDecimal begun fits).2, poised_index]
  have size := length_decimalDigits (machine.registers.get x)
  exact Memory.overlay_getElem?_of_inside within (by omega)

theorem HasDigits.loaded {value : UInt8} {registers : Registers} (digits : machine.HasDigits value)
    (block : machine.Loaded 2 registers) {number : Fin 16} (low : number.val < 3) :
    registers.values.get number = (decimalDigits value).get ⟨number.val, low⟩ := by
  have there := block.byte (by decide) (Nat.le_of_lt_succ low)
  rw [digits number.val low] at there
  exact (Option.some.inj there).symm

theorem call_of_overrun (begun : machine.begun? call = some (.storeDecimal x))
    (outside : 4095 < machine.index.toNat + 2) :
    (machine.call call).result = .error (.memoryOutOfBounds (machine.index.toNat + 2)) ∧
      (machine.call call).machine = { machine.poised call with mode := .halted } := by
  have found : (machine.poised call).fault? (.storeDecimal x) =
      some (.memoryOutOfBounds (machine.index.toNat + 2)) := by
    refine (rangeFault?_eq_some_iff 3 _).mpr ?_
    rw [poised_index]
    exact ⟨outside, rfl⟩
  exact call_of_faulted begun found

theorem call_of_loadRegisters (begun : machine.begun? call = some (.loadRegisters last))
    (fits : machine.index.toNat + last.toNat ≤ 4095) :
    ∃ registers, machine.Loaded last registers ∧ (machine.call call).result = .ok .nothing ∧
      (machine.call call).machine = { machine.poised call with registers } := by
  obtain ⟨running, issued⟩ := begun?_eq_some.mp begun
  obtain ⟨pc, frame⟩ := poised_frame machine call
  obtain ⟨result, left⟩ := call_of_issued running issued
  rw [frame] at result left ⊢
  obtain ⟨registers, loaded, performed⟩ :=
    @perform_loadRegisters { machine with pc } last running fits
  rw [performed] at result left
  exact ⟨registers, ⟨loaded.reached, loaded.spared⟩, result, left⟩

end Calls

/-- The digits of `VX` are stored at `I` if all three places are inside memory, and otherwise none
of them is. A load of three registers right behind the store has them in `V0`, `V1` and `V2`, also
when `VX` is one of these. -/
theorem decimal_digits_come_back (machine : Machine) (storing : Call) (x : UInt8)
    (begun : machine.begun? storing = some (.storeDecimal x)) :
    let value := (machine.registers.get x).toNat
    let start := machine.index.toNat
    let stored := machine.call storing
    (start + 2 ≤ 4095 → ∃ hundreds tens units,
      Decimal value hundreds tens units ∧ stored.result = .ok .nothing ∧
      stored.machine = { machine.poised storing with memory := stored.machine.memory } ∧
      stored.machine.memory.bytes[start]? = some hundreds ∧
      stored.machine.memory.bytes[start + 1]? = some tens ∧
      stored.machine.memory.bytes[start + 2]? = some units ∧
      (∀ place : Fin 4096, place.val < start ∨ start + 2 < place.val →
        stored.machine.memory.bytes.get place = machine.memory.bytes.get place) ∧
      ∀ loading, stored.machine.begun? loading = some (.loadRegisters 2) →
        let loaded := stored.machine.call loading
        let values := loaded.machine.registers.values
        loaded.result = .ok .nothing ∧
        loaded.machine = { stored.machine.poised loading with
          registers := loaded.machine.registers } ∧
        values.get 0 = hundreds ∧ values.get 1 = tens ∧ values.get 2 = units ∧
        100 * (values.get 0).toNat + 10 * (values.get 1).toNat + (values.get 2).toNat = value ∧
        ∀ number : Fin 16, 2 < number.val →
          values.get number = machine.registers.values.get number) ∧
    (4095 < start + 2 → stored.result = .error (.memoryOutOfBounds (start + 2)) ∧
      stored.machine = { machine.poised storing with mode := .halted }) ∧
    (x.toNat < 16 → .decode (.ofByte 0xF x 0x33) = Instruction.storeDecimal x) ∧
    .decode 0xF265 = Instruction.loadRegisters 2 := by
  intro value start stored
  refine ⟨?fits, call_of_overrun begun, ?opcode, rfl⟩
  case opcode =>
    intro short
    exact @Instruction.decode_encode (.storeDecimal x) short nofun
  case fits =>
    intro fits
    have decimal := decimal_of_byte (machine.registers.get x)
    have digits : stored.machine.HasDigits (machine.registers.get x) :=
      hasDigits_of_storeDecimal begun fits
    obtain ⟨result, left⟩ := call_of_storeDecimal begun fits
    have memory := congrArg Machine.memory left
    have index := (congrArg Machine.index left).trans (poised_index machine storing)
    have registers := (congrArg Machine.registers left).trans (poised_registers machine storing)
    have byte : ∀ offset (within : offset < 3), stored.machine.memory.bytes[start + offset]? =
        some ((decimalDigits (machine.registers.get x)).get ⟨offset, within⟩) := by
      rw [show start = stored.machine.index.toNat from congrArg UInt16.toNat index.symm]
      exact digits
    refine ⟨_, _, _, decimal, result, ?_, byte 0 (by decide), byte 1 (by decide),
      byte 2 (by decide), ?_, ?_⟩
    · rw [memory]
      exact left
    · intro place outside
      rw [memory]
      exact Memory.overlay_getElem_of_outside _ outside
    · intro loading ready loaded values
      obtain ⟨taken, block, done, back⟩ := call_of_loadRegisters ready (index.symm ▸ fits)
      have shown : loaded.machine.registers = taken := congrArg Machine.registers back
      have block : stored.machine.Loaded 2 loaded.machine.registers := shown.symm ▸ block
      have digit : ∀ number : Fin 16, (low : number.val < 3) → values.get number =
          (decimalDigits (machine.registers.get x)).get ⟨number.val, low⟩ :=
        fun number low => digits.loaded block low
      refine ⟨done, ?_, digit 0 (by decide), digit 1 (by decide), digit 2 (by decide), ?_, ?_⟩
      · rw [shown]
        exact back
      · rw [digit 0 (by decide), digit 1 (by decide), digit 2 (by decide)]
        exact decimal.sum
      · intro number above
        rw [← registers]
        exact block.spared number above

/-- Digits that end with the last byte of memory, of a register that the load overwrites. One place
further nothing is stored. -/
theorem digits_overwrite_their_register :
    let machine := { powerOn {} (.cycle #[]) with
      registers := ⟨Vector.replicate 16 254⟩
      index := 0xFFD }
    let further := { machine with index := 0xFFE }
    let stored := machine.call (.execute 0xF133)
    let loaded := stored.machine.call (.execute 0xF265)
    machine.begun? (.execute 0xF133) = some (.storeDecimal 1) ∧
      stored.machine.begun? (.execute 0xF265) = some (.loadRegisters 2) ∧
      loaded.result = .ok .nothing ∧ (loaded.machine.registers.values.get 0).toNat = 2 ∧
      (loaded.machine.registers.values.get 1).toNat = 5 ∧
      (loaded.machine.registers.values.get 2).toNat = 4 ∧
      loaded.machine.registers.values.get 3 = 254 ∧
      further.begun? (.execute 0xF133) = some (.storeDecimal 1) ∧
      (further.call (.execute 0xF133)).result = .error (.memoryOutOfBounds 0x1000) ∧
      (further.call (.execute 0xF133)).machine = { further with mode := .halted } := by
  intro machine further stored loaded
  have begun : machine.begun? (.execute 0xF133) = some (.storeDecimal 1) := rfl
  have begunFurther : further.begun? (.execute 0xF133) = some (.storeDecimal 1) := rfl
  obtain ⟨fitting, _⟩ := decimal_digits_come_back machine (.execute 0xF133) 1 begun
  obtain ⟨_, overrun, _⟩ := decimal_digits_come_back further (.execute 0xF133) 1 begunFurther
  obtain ⟨hundreds, tens, units, decimal, _, left, _, _, _, _, loads⟩ := fitting (by decide)
  have running : stored.machine.mode = .running := congrArg Machine.mode left
  have ready : stored.machine.begun? (.execute 0xF265) = some (.loadRegisters 2) :=
    begun?_eq_some.mpr ⟨running, rfl⟩
  obtain ⟨done, _, first, second, third, _, others⟩ := loads (.execute 0xF265) ready
  have low := decimal.low
  have sum : 100 * hundreds.toNat + 10 * tens.toNat + units.toNat = 254 := decimal.sum
  refine ⟨begun, ready, done, ?_, ?_, ?_, others 3 (by decide), begunFurther,
    overrun (by decide)⟩
  · rw [first]
    omega
  · rw [second]
    omega
  · rw [third]
    omega

end Machine

end Chip8
