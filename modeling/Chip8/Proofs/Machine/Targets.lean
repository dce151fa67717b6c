import Chip8.Proofs.Machine.Execution
import Chip8.Proofs.Machine.Frames

/-!
What instructions write inside the registers and inside memory. An instruction names its target
registers, and a store writes so many bytes from `I` on. Every other register and every other byte
stays, as do all parts of the machine that the instruction is not listed to write.
-/

namespace Chip8

def AluOp.reports : AluOp → Bool
  | .add => true
  | .subtract => true
  | .shiftRight => true
  | .subtractFrom => true
  | .shiftLeft => true
  | _ => false

theorem AluOp.flag?_of_silent {op : AluOp} (silent : op.reports = false) (x y : UInt8) :
    op.flag? x y = none := by
  cases op with
  | copy => rfl
  | or => rfl
  | and => rfl
  | xor => rfl
  | _ => cases silent

/-- The numbers of the registers that an instruction may write. A load that names a register above
`VF` goes round all of them. -/
def Instruction.targets : Instruction → List Nat
  | .setByte x _ => [x.toNat % 16]
  | .addByte x _ => [x.toNat % 16]
  | .combine op x _ => if op.reports then [x.toNat % 16, 0xF] else [x.toNat % 16]
  | .random x _ => [x.toNat % 16]
  | .draw _ _ _ => [0xF]
  | .readDelay x => [x.toNat % 16]
  | .loadRegisters last => (List.range 16).filter fun number => number ≤ last.toNat
  | _ => []

def Instruction.storeSize : Instruction → Nat
  | .storeDecimal _ => 3
  | .storeRegisters last => last.toNat + 1
  | _ => 0

namespace Registers

variable (registers : Registers) {number : Fin 16}

theorem values_set_of_ne {written : UInt8} (value : UInt8)
    (spared : number.val ≠ written.toNat % 16) :
    (registers.set written value).values.get number = registers.values.get number := by
  have apart : (slot written).val ≠ number.val := spared.symm
  exact Vector.getElem_set_ne (slot written).isLt number.isLt apart

theorem values_combine_of_ne {op : AluOp} {x : UInt8} (y : UInt8) (spared : number.val ≠ x.toNat % 16)
    (unflagged : op.reports = true → number.val ≠ 0xF) :
    (registers.combine op x y).values.get number = registers.values.get number := by
  cases reported : op.flag? (registers.get x) (registers.get y) with
  | none =>
      have plain : registers.combine op x y =
          registers.set x (op.value (registers.get x) (registers.get y)) := by
        simp only [combine, reported]
      rw [plain, values_set_of_ne _ _ spared]
  | some flag =>
      have loud : op.reports = true := by
        cases reports : op.reports with
        | true => rfl
        | false => cases (AluOp.flag?_of_silent reports _ _).symm.trans reported
      have both : registers.combine op x y =
          (registers.setFlag flag).set x (op.value (registers.get x) (registers.get y)) := by
        simp only [combine, reported]
      rw [both, values_set_of_ne _ _ spared, setFlag, values_set_of_ne _ _ (unflagged loud)]

theorem values_setFrom_of_ne {values : List UInt8} {start : UInt8}
    (spared : ∀ offset < values.length, number.val ≠ (start.toNat + offset) % 16) :
    (registers.setFrom start values).values.get number = registers.values.get number := by
  induction values generalizing registers start with
  | nil => rfl
  | cons value rest induction =>
      have first : number.val ≠ start.toNat % 16 := spared 0 (Nat.zero_lt_succ _)
      rw [setFrom, induction, values_set_of_ne _ _ first]
      intro offset inside
      have next : (start + 1).toNat = (start.toNat + 1) % 256 := UInt8.toNat_add start 1
      have later := spared (offset + 1) (Nat.succ_lt_succ inside)
      omega

end Registers

namespace Memory

theorem overlay_getElem_of_outside (bytes : Vector UInt8 4096) {start : Nat}
    {program : List UInt8} {place : Fin 4096}
    (outside : place.val < start ∨ start + program.length ≤ place.val) :
    (overlay bytes start program).get place = bytes.get place := by
  have laid := overlay_getElem bytes start program place.val place.isLt
  refine laid.trans ?_
  split
  next from_start =>
    have behind : program.length ≤ place.val - start := by omega
    rw [List.getD_eq_getElem?_getD, List.getElem?_eq_none behind]
    rfl
  next => rfl

theorem length_le_of_slice {memory : Memory} {address : Address} {count : Nat}
    {values : List UInt8} (read : memory.slice address count = .ok values) :
    values.length ≤ count := by
  rw [slice] at read
  cases checked : checkRange address count with
  | error fault =>
      rw [checked] at read
      cases read
  | ok _ =>
      rw [checked] at read
      cases read
      simp
      omega

end Memory

namespace Machine

variable {machine : Machine} {instruction : Instruction}

theorem no_fault_of_performed (running : machine.mode = .running)
    (done : (machine.perform instruction).result = .ok ()) :
    machine.fault? instruction = none := by
  cases verdict : machine.fault? instruction with
  | none => rfl
  | some fault =>
      rw [perform_of_fault running verdict] at done
      cases done

/-- A register apart from the targets, instruction by instruction. -/
theorem apply_register {number : Fin 16} (spared : number.val ∉ instruction.targets) :
    (machine.apply instruction).machine.registers.values.get number =
      machine.registers.values.get number := by
  by_cases written : .registers ∈ instruction.writes
  · cases instruction with
    | setByte x byte =>
        exact Registers.values_set_of_ne _ _ (List.ne_of_not_mem_cons spared)
    | addByte x byte =>
        exact Registers.values_set_of_ne _ _ (List.ne_of_not_mem_cons spared)
    | combine op x y =>
        apply Registers.values_combine_of_ne
        · intro same
          apply spared
          rw [same, Instruction.targets]
          split <;> simp
        · intro loud same
          apply spared
          rw [same, Instruction.targets, if_pos loud]
          simp
    | random x mask =>
        exact Registers.values_set_of_ne _ _ (List.ne_of_not_mem_cons spared)
    | draw x y height =>
        rw [apply, drawAtIndex]
        split
        next => rfl
        next => exact Registers.values_set_of_ne _ _ (List.ne_of_not_mem_cons spared)
    | readDelay x =>
        exact Registers.values_set_of_ne _ _ (List.ne_of_not_mem_cons spared)
    | loadRegisters last =>
        have above : last.toNat < number.val := by
          simpa [Instruction.targets] using spared
        rw [apply, loadAtIndex]
        split
        next values read =>
          apply Registers.values_setFrom_of_ne
          intro offset inside
          have short := Memory.length_le_of_slice read
          have start : (0 : UInt8).toNat = 0 := rfl
          omega
        next => rfl
    | _ => simp [Instruction.writes] at written
  · have same : (machine.apply instruction).machine.registers = machine.registers :=
      apply_agree machine written
    rw [same]

theorem apply_byte {place : Fin 4096} (clear : machine.fault? instruction = none)
    (outside : place.val < machine.index.toNat ∨
      machine.index.toNat + instruction.storeSize ≤ place.val) :
    (machine.apply instruction).machine.memory.bytes.get place =
      machine.memory.bytes.get place := by
  by_cases written : .memory ∈ instruction.writes
  · cases instruction with
    | storeDecimal x =>
        rw [apply, storeAtIndex_of_no_rangeFault (length_decimalDigits _) clear]
        exact Memory.overlay_getElem_of_outside _ outside
    | storeRegisters last =>
        have size := length_upTo machine.registers last
        rw [apply, storeAtIndex_of_no_rangeFault size clear]
        apply Memory.overlay_getElem_of_outside
        rw [size]
        exact outside
    | _ => simp [Instruction.writes] at written
  · have same : (machine.apply instruction).machine.memory = machine.memory :=
      apply_agree machine written
    rw [same]

theorem instructions_write_their_targets (machine : Machine) (instruction : Instruction)
    (running : machine.mode = .running) (done : (machine.perform instruction).result = .ok ()) :
    let later := (machine.perform instruction).machine
    (∀ part, part ∉ instruction.writes → machine.Agree later part) ∧
    (∀ number : Fin 16, number.val ∉ instruction.targets →
      later.registers.values.get number = machine.registers.values.get number) ∧
    ∀ place : Fin 4096, (place.val < machine.index.toNat ∨
        machine.index.toNat + instruction.storeSize ≤ place.val) →
      later.memory.bytes.get place = machine.memory.bytes.get place := by
  intro later
  have clear := no_fault_of_performed running done
  have applied : later = (machine.apply instruction).machine :=
    congrArg Outcome.machine (perform_of_no_fault running clear)
  rw [applied]
  refine ⟨?_, ?_, ?_⟩
  · intro part unwritten
    exact apply_agree machine unwritten
  · intro number spared
    exact apply_register spared
  · intro place outside
    exact apply_byte clear outside

/-- Of an operand above fifteen only the last digit counts: the sum goes to `V3` and its carry to
`VF`, and `V1` keeps its value. -/
theorem sum_spares_its_addend :
    let machine := { powerOn {} (.cycle #[]) with registers := ⟨Vector.replicate 16 0x99⟩ }
    let later := (machine.perform (.combine .add 0x13 0x21)).machine
    later.registers.get 3 = 0x32 ∧ later.registers.get 0xF = 1 ∧
      later.registers.values.get 1 = machine.registers.values.get 1 ∧
      machine.Agree later .memory := by
  intro machine later
  obtain ⟨parts, registers, _⟩ :=
    instructions_write_their_targets machine (.combine .add 0x13 0x21) rfl rfl
  exact ⟨by decide, by decide, registers 1 (by decide), parts .memory (by decide)⟩

end Machine

end Chip8
