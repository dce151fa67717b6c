import Chip8.Proofs.Instruction.Encoding
import Chip8.Proofs.Machine.Execution
import Chip8.Proofs.Screen.Torus

/-!
Drawing from memory. The sprite is the bytes from `I` on and its place is in two registers, which
are read before the collision is written to `VF`.
-/

namespace Chip8

theorem Instruction.decode_of_draw {opcode : Opcode} (draws : opcode.hasPattern "DXYN" = true) :
    ∃ x y height : UInt8, decode opcode = .draw x y height ∧
      x.toNat = opcode.toNat / 256 % 16 ∧ y.toNat = opcode.toNat / 16 % 16 ∧
      height.toNat = opcode.toNat % 16 := by
  have leading : opcode.family.toNat = 0xD := by
    rw [Opcode.family_toNat]
    simpa [Opcode.hasPattern, Opcode.numerals, digitOf?] using draws
  refine ⟨opcode.x, opcode.y, opcode.nibble, ?_, opcode.x_toNat, opcode.y_toNat,
    opcode.nibble_toNat⟩
  simp [decode, leading]

namespace Machine

theorem call_of_draw {machine : Machine} {call : Call} {x y height : UInt8}
    (begun : machine.begun? call = some (.draw x y height))
    (done : (machine.call call).result = .ok .nothing) :
    ∃ sprite, machine.memory.slice machine.index height.toNat = .ok sprite ∧
      let drawn := machine.screen.draw (machine.registers.get x) (machine.registers.get y) sprite
      (machine.call call).machine = { machine.poised call with
        screen := drawn.2
        registers := machine.registers.setFlag drawn.1 } := by
  have clear := no_fault_of_begun begun done
  obtain ⟨sprite, read⟩ := slice_of_no_rangeFault clear
  obtain ⟨_, left⟩ := call_of_begun begun clear
  obtain ⟨pc, poised⟩ := poised_frame machine call
  rw [poised] at read left ⊢
  refine ⟨sprite, read, ?_⟩
  rw [left, apply, drawAtIndex, read]
  rfl

/-- A draw flips every cell as often as a pixel of the sprite comes to lie on it, round both edges
of the screen, and it collides where a flip finds a lit cell. What an instruction draws is in memory
at `I`, and `VF` tells of the collision even if it held a coordinate. -/
theorem sprites_flip_the_cells_they_hit :
    (∀ (screen : Screen) (x y : UInt8) (sprite : List UInt8),
      let drawn := screen.draw x y sprite
      let hits := hits x.toNat y.toNat sprite
      (∀ cell, drawn.2.lit cell = (screen.lit cell ^^ decide (hits cell % 2 = 1))) ∧
      drawn.2.dirty = true ∧
      (drawn.1 = true ↔ ∃ cell, 1 ≤ hits cell ∧ screen.lit cell = true ∨ 2 ≤ hits cell) ∧
      (sprite.length ≤ 32 → ∀ cell, hits cell ≤ 1)) ∧
    (∀ opcode : Opcode, opcode.hasPattern "DXYN" = true →
      ∃ x y height : UInt8, Instruction.decode opcode = .draw x y height ∧
        x.toNat = opcode.toNat / 256 % 16 ∧ y.toNat = opcode.toNat / 16 % 16 ∧
        height.toNat = opcode.toNat % 16) ∧
    ∀ (machine : Machine) (call : Call) (x y height : UInt8),
      machine.begun? call = some (.draw x y height) →
      (machine.call call).result = .ok .nothing →
      let column := machine.registers.get x
      let row := machine.registers.get y
      let later := (machine.call call).machine
      ∃ sprite : List UInt8,
        sprite.map some = ((List.range height.toNat).map fun line =>
          machine.memory.bytes[machine.index.toNat + line]?) ∧
        later = { machine.poised call with
          screen := (machine.screen.draw column row sprite).2
          registers := later.registers } ∧
        (∀ number : UInt8, number.toNat < 16 → number ≠ 0xF →
          later.registers.get number = machine.registers.get number) ∧
        let hits := hits column.toNat row.toNat sprite
        let collision := ∃ cell, 1 ≤ hits cell ∧ machine.screen.lit cell = true ∨ 2 ≤ hits cell
        (collision → later.registers.get 0xF = 1) ∧
        (¬ collision → later.registers.get 0xF = 0) := by
  refine ⟨?screens, fun opcode => Instruction.decode_of_draw, ?machines⟩
  case screens =>
    intro screen x y sprite drawn hits
    exact ⟨screen.lit_draw_of_hits x y sprite, rfl, screen.draw_collides_iff x y sprite,
      fun low cell => hits_le_one low⟩
  case machines =>
    intro machine call x y height begun done column row later
    obtain ⟨sprite, read, left⟩ := call_of_draw begun done
    have registers : later.registers =
        machine.registers.setFlag (machine.screen.draw column row sprite).1 :=
      congrArg Machine.registers left
    refine ⟨sprite, Memory.slice_bytes read, ?_, ?_, ?_⟩
    · rw [registers]
      exact left
    · intro number short plain
      rw [registers, Registers.get_setFlag_of_ne _ _ short plain]
    · intro hits collision
      have collides : (machine.screen.draw column row sprite).1 = true ↔ collision :=
        machine.screen.draw_collides_iff column row sprite
      rw [registers]
      exact Registers.setFlag_tells _ collides

/-- The last row of a sprite of 33 puts out what the first has lit. A sprite of one row goes round
the right edge and wipes the register that held its place. -/
theorem tall_sprite_strikes_itself :
    let tall := Screen.blank.draw 0 31 (List.replicate 33 0x80)
    let machine := { powerOn {} (.cycle #[]) with registers := ⟨Vector.replicate 16 0x3F⟩ }
    let later := (machine.call (.execute 0xDFF1)).machine
    tall.1 = true ∧ tall.2.lit ⟨0, 31⟩ = false ∧
      machine.begun? (.execute 0xDFF1) = some (.draw 0xF 0xF 1) ∧
      (machine.call (.execute 0xDFF1)).result = .ok .nothing ∧
      later.registers.get 0xF = 0 ∧ later.registers.get 0xE = 0x3F ∧
      later.screen.lit ⟨2, 31⟩ = true := by
  intro tall machine later
  have dark : ∀ cell, Screen.blank.lit cell = false := by simp [Screen.blank, Screen.lit]
  obtain ⟨screens, _, machines⟩ := sprites_flip_the_cells_they_hit
  obtain ⟨lit, _, collision, _⟩ := screens Screen.blank 0 31 (List.replicate 33 0x80)
  have twice : hits 0 31 (List.replicate 33 0x80) ⟨0, 31⟩ = 2 := by decide
  obtain ⟨sprite, bytes, left, spared, _, free⟩ :=
    machines machine (.execute 0xDFF1) 0xF 0xF 1 rfl rfl
  have first : Memory.initial.bytes[0]? = some 0xF0 := by
    rw [Vector.getElem?_eq_getElem (by decide), Memory.initial_getElem]
    rfl
  have row : sprite = [0xF0] := by
    have read : sprite.map some = [0xF0].map some := bytes.trans (congrArg ([·]) first)
    exact List.map_injective_iff.mpr (Option.some_injective _) read
  subst row
  have single : ∀ cell, ¬ (1 ≤ hits 63 63 [0xF0] cell ∧ Screen.blank.lit cell = true ∨
      2 ≤ hits 63 63 [0xF0] cell) := by
    rintro cell (⟨_, lit⟩ | twice)
    · cases (dark cell).symm.trans lit
    · have once : hits 63 63 [0xF0] cell ≤ 1 := hits_le_one (by decide)
      omega
  have shown : later.screen = (Screen.blank.draw 0x3F 0x3F [0xF0]).2 :=
    congrArg Machine.screen left
  refine ⟨collision.mpr ⟨⟨0, 31⟩, .inr ?_⟩, ?_, rfl, rfl, ?_, ?_, ?_⟩
  · exact twice.ge
  · rw [lit, dark]
    exact congrArg (fun count => false ^^ decide (count % 2 = 1)) twice
  · apply free
    rintro ⟨cell, struck⟩
    exact single cell struck
  · exact spared 0xE (by decide) (by decide)
  · rw [shown, (screens Screen.blank 0x3F 0x3F [0xF0]).1, dark]
    decide

end Machine

end Chip8
