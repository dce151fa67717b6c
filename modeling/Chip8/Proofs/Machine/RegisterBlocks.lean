import Chip8.Proofs.Machine.Targets
import Mathlib.Data.List.GetD
import Mathlib.Order.Bounds.Defs

/-!
Blocks of registers in memory. A store lays the registers down one behind the other, and a load
takes them up again. A block that names a register above `VF` goes round the registers: a store
repeats their values, and of the bytes that a load has for one register the last stays.
-/

namespace Chip8

namespace Registers

variable (registers : Registers)

theorem get_toUInt8 (number : Nat) :
    registers.get number.toUInt8 = registers.values.get (.ofNat 16 number) := by
  have slotted : slot number.toUInt8 = .ofNat 16 number := by
    apply Fin.ext
    change number.toUInt8.toNat % 16 = number % 16
    rw [UInt8.toNat_ofNat']
    omega
  exact congrArg registers.values.get slotted

theorem upTo_getElem {last : UInt8} {offset : Nat}
    (within : offset < (registers.upTo last).length) :
    (registers.upTo last)[offset] = registers.values.get (.ofNat 16 offset) := by
  simp only [upTo, List.getElem_map, List.getElem_range, get_toUInt8]

/-- Of several values for one register the last stays. -/
theorem values_setFrom_of_last {number : Fin 16} {values : List UInt8} {start : UInt8} {offset : Nat}
    (within : offset < values.length) (here : (start.toNat + offset) % 16 = number.val)
    (last : ∀ later < values.length, offset < later → (start.toNat + later) % 16 ≠ number.val) :
    (registers.setFrom start values).values.get number = values[offset] := by
  induction values generalizing registers start offset with
  | nil => cases within
  | cons value rest induction =>
      have next : (start + 1).toNat = (start.toNat + 1) % 256 := UInt8.toNat_add start 1
      rw [setFrom]
      cases offset with
      | zero =>
          -- the first value is the last of its register if none behind it goes there
          have spared : ∀ offset < rest.length,
              number.val ≠ ((start + 1).toNat + offset) % 16 := by
            intro offset inside
            have behind := last (offset + 1) (Nat.succ_lt_succ inside) (Nat.zero_lt_succ _)
            omega
          have slotted : number = slot start := Fin.ext here.symm
          rw [values_setFrom_of_ne _ spared, slotted]
          exact get_set_self registers start value
      | succ offset =>
          have shorter : offset < rest.length := Nat.lt_of_succ_lt_succ within
          rw [List.getElem_cons_succ]
          apply induction _ shorter
          · omega
          · intro later inside behind
            have apart := last (later + 1) (Nat.succ_lt_succ inside) (Nat.succ_lt_succ behind)
            omega

end Registers

namespace Memory

variable {bytes : Vector UInt8 4096} {start : Nat} {program : List UInt8}

theorem overlay_getElem?_of_inside {offset : Nat} (within : offset < program.length)
    (fits : start + program.length ≤ 4096) :
    (overlay bytes start program)[start + offset]? = some program[offset] := by
  have inside : start + offset < 4096 := by omega
  rw [Vector.getElem?_eq_getElem inside, overlay_getElem, if_pos (Nat.le_add_right _ _),
    Nat.add_sub_cancel_left, List.getD_eq_getElem _ _ within]

theorem overlay_of_same (same : ∀ offset (within : offset < program.length),
    bytes[start + offset]? = some program[offset]) : overlay bytes start program = bytes := by
  ext place inside
  rw [overlay_getElem]
  split
  next reached =>
    by_cases within : place - start < program.length
    · have there := same (place - start) within
      rw [Nat.add_sub_cancel' reached, Vector.getElem?_eq_getElem inside] at there
      rw [List.getD_eq_getElem _ _ within, Option.some.inj there]
    · rw [List.getD_eq_default _ _ (Nat.not_lt.mp within)]
  next => rfl

end Memory

namespace Machine

/-- Registers after a load: each has the byte at its last place in the block, or what it had if the
block does not reach it. -/
structure Loaded (machine : Machine) (last : UInt8) (registers : Registers) : Prop where
  reached : ∀ number : Fin 16, number.val ≤ last.toNat → ∃ offset,
    IsGreatest {offset | offset ≤ last.toNat ∧ offset % 16 = number.val} offset ∧
      machine.memory.bytes[machine.index.toNat + offset]? = some (registers.values.get number)
  spared : ∀ number : Fin 16, last.toNat < number.val →
    registers.values.get number = machine.registers.values.get number

def withRegisters (machine : Machine) (registers : Registers) : Machine :=
  { machine with registers }

section Blocks

variable {machine : Machine} {last : UInt8}

theorem no_rangeFault_of_fits (fits : machine.index.toNat + last.toNat ≤ 4095) :
    machine.rangeFault? (last.toNat + 1) = none := by
  have inside : machine.index.toNat + (last.toNat + 1 - 1) < 4096 := by omega
  exact if_pos inside

theorem perform_storeRegisters (running : machine.mode = .running)
    (fits : machine.index.toNat + last.toNat ≤ 4095) :
    machine.perform (.storeRegisters last) = .done { machine with
      memory := ⟨Memory.overlay machine.memory.bytes machine.index.toNat
        (machine.registers.upTo last)⟩ } () := by
  have clear := no_rangeFault_of_fits fits
  have allowed : machine.fault? (.storeRegisters last) = none := clear
  rw [perform_of_no_fault running allowed, apply,
    storeAtIndex_of_no_rangeFault (length_upTo _ _) clear]

theorem stored_byte (fits : machine.index.toNat + last.toNat ≤ 4095) {offset : Nat}
    (inside : offset ≤ last.toNat) :
    (Memory.overlay machine.memory.bytes machine.index.toNat
      (machine.registers.upTo last))[machine.index.toNat + offset]? =
        some (machine.registers.values.get (.ofNat 16 offset)) := by
  have size := length_upTo machine.registers last
  have within : offset < (machine.registers.upTo last).length := by omega
  rw [← machine.registers.upTo_getElem within]
  exact Memory.overlay_getElem?_of_inside within (by omega)

theorem exists_last_offset {number last : Nat} (low : number < 16) (reached : number ≤ last) :
    ∃ offset, IsGreatest {offset | offset ≤ last ∧ offset % 16 = number} offset := by
  refine ⟨last - (last - number) % 16, ⟨by omega, by omega⟩, ?_⟩
  rintro offset ⟨inside, round⟩
  omega

theorem loaded_setFrom {values : List UInt8}
    (read : values.map some = (List.range (last.toNat + 1)).map fun offset =>
      machine.memory.bytes[machine.index.toNat + offset]?) :
    machine.Loaded last (machine.registers.setFrom 0 values) := by
  have length : values.length = last.toNat + 1 := by
    have lengths := congrArg List.length read
    simpa only [List.length_map, List.length_range] using lengths
  have zero : (0 : UInt8).toNat = 0 := rfl
  constructor
  · intro number reached
    obtain ⟨offset, greatest⟩ := exists_last_offset number.isLt reached
    obtain ⟨inside, round⟩ := greatest.1
    have within : offset < values.length := by omega
    have byte : some values[offset] = machine.memory.bytes[machine.index.toNat + offset]? := by
      have places := congrArg (fun row : List (Option UInt8) => row[offset]?) read
      simpa [within, Nat.lt_succ_of_le inside] using places
    refine ⟨offset, greatest, ?_⟩
    rw [← byte]
    refine congrArg some (Registers.values_setFrom_of_last _ within ?_ ?_).symm
    · omega
    · intro later short behind same
      have bound : later ≤ offset := greatest.2 ⟨by omega, by omega⟩
      omega
  · intro number above
    apply Registers.values_setFrom_of_ne
    intro offset inside
    omega

theorem perform_loadRegisters (running : machine.mode = .running)
    (fits : machine.index.toNat + last.toNat ≤ 4095) :
    ∃ registers, machine.Loaded last registers ∧
      machine.perform (.loadRegisters last) = .done (machine.withRegisters registers) () := by
  have allowed : machine.fault? (.loadRegisters last) = none := no_rangeFault_of_fits fits
  obtain ⟨values, read⟩ := slice_of_no_rangeFault (no_rangeFault_of_fits fits)
  refine ⟨machine.registers.setFrom 0 values, loaded_setFrom (Memory.slice_bytes read), ?_⟩
  rw [perform_of_no_fault running allowed, apply, loadAtIndex, read]
  rfl

/-- A block of at most sixteen registers has one place for each of them. -/
theorem Loaded.byte {registers : Registers} (loaded : machine.Loaded last registers)
    (short : last.toNat ≤ 15) {number : Fin 16} (reached : number.val ≤ last.toNat) :
    machine.memory.bytes[machine.index.toNat + number.val]? =
      some (registers.values.get number) := by
  obtain ⟨place, ⟨⟨bound, round⟩, _⟩, byte⟩ := loaded.reached number reached
  have same : place = number.val := by omega
  rwa [same] at byte

/-- What a load takes up, a store would lay down in the same places: no register of a block of at
most sixteen has two. -/
theorem overlay_of_loaded {registers : Registers} (loaded : machine.Loaded last registers)
    (short : last.toNat ≤ 15) :
    Memory.overlay machine.memory.bytes machine.index.toNat (registers.upTo last) =
      machine.memory.bytes := by
  apply Memory.overlay_of_same
  intro offset within
  have inside : offset ≤ last.toNat := by
    rw [length_upTo] at within
    omega
  have slot : (Fin.ofNat 16 offset).val = offset := Nat.mod_eq_of_lt (by omega)
  rw [registers.upTo_getElem, ← loaded.byte short (slot.symm ▸ inside), slot]

end Blocks

/-- A load undoes what happened to the registers since the store. Laid down again where they were
taken up, registers change nothing as long as the block does not go round. -/
theorem register_blocks_come_back (machine : Machine) (last : UInt8)
    (running : machine.mode = .running) (fits : machine.index.toNat + last.toNat ≤ 4095) :
    let start := machine.index.toNat
    let stored := machine.perform (.storeRegisters last)
    let loaded := machine.perform (.loadRegisters last)
    (stored.result = .ok () ∧
      stored.machine = { machine with memory := stored.machine.memory } ∧
      (∀ offset ≤ last.toNat,
        stored.machine.memory.bytes[start + offset]? =
          some (machine.registers.values.get (.ofNat 16 offset))) ∧
      ∀ place : Fin 4096, place.val < start ∨ start + last.toNat < place.val →
        stored.machine.memory.bytes.get place = machine.memory.bytes.get place) ∧
    (∀ registers : Registers,
      let changed := stored.machine.withRegisters registers
      let restored := changed.perform (.loadRegisters last)
      restored.result = .ok () ∧
      restored.machine = changed.withRegisters restored.machine.registers ∧
      ∀ number : Fin 16, restored.machine.registers.values.get number =
        if number.val ≤ last.toNat then machine.registers.values.get number
        else registers.values.get number) ∧
    (loaded.result = .ok () ∧
      loaded.machine = machine.withRegisters loaded.machine.registers ∧
      machine.Loaded last loaded.machine.registers) ∧
    (last.toNat ≤ 15 →
      let again := loaded.machine.perform (.storeRegisters last)
      again.result = .ok () ∧ again.machine = loaded.machine) := by
  intro start stored loaded
  have storing : stored = .done { machine with
      memory := ⟨Memory.overlay machine.memory.bytes start (machine.registers.upTo last)⟩ } () :=
    perform_storeRegisters running fits
  obtain ⟨taken, places, loading⟩ := perform_loadRegisters running fits
  have loading : loaded = .done (machine.withRegisters taken) () := loading
  rw [storing, loading]
  refine ⟨⟨rfl, rfl, fun _ inside => stored_byte fits inside, ?outside⟩, ?restored,
    ⟨rfl, rfl, places⟩, ?again⟩
  case outside =>
    intro place outside
    have size := length_upTo machine.registers last
    exact Memory.overlay_getElem_of_outside _ (by omega)
  case restored =>
    intro registers changed restored
    obtain ⟨back, block, left⟩ := @perform_loadRegisters changed last running fits
    have restoring : restored = .done (changed.withRegisters back) () := left
    rw [restoring]
    refine ⟨rfl, rfl, ?_⟩
    intro number
    split
    next reached =>
      obtain ⟨offset, ⟨⟨inside, round⟩, _⟩, byte⟩ := block.reached number reached
      have slot : Fin.ofNat 16 offset = number := Fin.ext round
      have stays := stored_byte fits inside
      rw [slot] at stays
      exact Option.some.inj (byte.symm.trans stays)
    next above => exact block.spared number (Nat.lt_of_not_le above)
  case again =>
    intro short again
    have storingAgain : again = .done { machine.withRegisters taken with
        memory := ⟨Memory.overlay machine.memory.bytes start (taken.upTo last)⟩ } () :=
      @perform_storeRegisters (machine.withRegisters taken) last running fits
    rw [storingAgain, overlay_of_loaded places short]
    exact ⟨rfl, rfl⟩

/-- The block of all 256 numbers ends with the last byte of memory. `V2` is stored sixteen times and
comes back from the last of its places. -/
theorem longest_block_ends_with_memory :
    let machine := { powerOn {} (.cycle #[]) with
      registers := ⟨#v[3, 1, 4, 1, 5, 9, 2, 6, 5, 3, 5, 8, 9, 7, 9, 3]⟩
      index := 0xF00 }
    let stored := machine.perform (.storeRegisters 0xFF)
    let restored := (stored.machine.withRegisters .zero).perform (.loadRegisters 0xFF)
    machine.index.toNat + (0xFF : UInt8).toNat ≤ 4095 ∧
      stored.machine.memory.bytes[machine.index.toNat + 0xF2]? = some 4 ∧
      stored.machine.memory.bytes[machine.index.toNat + 0xFF]? = some 3 ∧
      stored.machine.memory.bytes.get 0xEFF = 0 ∧
      restored.result = .ok () ∧ restored.machine.registers.values.get 2 = 4 := by
  intro machine
  have fits : machine.index.toNat + (0xFF : UInt8).toNat ≤ 4095 := by decide
  obtain ⟨⟨_, _, kept, outside⟩, restores, _⟩ :=
    register_blocks_come_back machine 0xFF rfl fits
  obtain ⟨result, _, registers⟩ := restores .zero
  have below : machine.memory.bytes.get 0xEFF = 0 := Memory.initial_getElem 0xEFF (by decide)
  refine ⟨fits, ?_, ?_, ?_, result, ?_⟩
  · exact kept 0xF2 (by decide)
  · exact kept 0xFF (by decide)
  · rw [outside 0xEFF (.inl (by decide))]
    exact below
  · exact (registers 2).trans (if_pos (by decide))

end Machine

end Chip8
