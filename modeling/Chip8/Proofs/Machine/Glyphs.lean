import Chip8.Proofs.Instruction.Encoding
import Chip8.Proofs.Machine.Targets
import Chip8.Proofs.Memory.History
import Chip8.Proofs.Screen.Sprites

/-!
The font stays at the bottom of memory as long as no store begins inside it: programs are loaded
far above it, and a store that would go round the end of memory is refused before it writes. While
the font is there, pointing `I` at a digit and drawing five rows shows the glyph of the digit.
-/

namespace Chip8

namespace Memory

def glyph (digit : Nat) : List UInt8 := (font.extract (5 * digit) (5 * digit + 5)).toList

def HoldsFont (memory : Memory) : Prop :=
  ∀ place (inFont : place < 80), memory.bytes[place] = font[place]

theorem initial_holdsFont : initial.HoldsFont := by
  intro place inFont
  rw [initial_getElem place (by omega), dif_pos inFont]

theorem length_glyph {digit : Nat} (short : digit ≤ 15) : (glyph digit).length = 5 := by
  simp [glyph]
  omega

section Font

variable {memory : Memory}

/-- Programs are loaded above the font. -/
theorem HoldsFont.load {filled : Memory} {entry : Address} {program : List UInt8}
    (held : memory.HoldsFont) (accepted : memory.load program = .ok (entry, filled)) :
    filled.HoldsFont := by
  intro place inFont
  by_cases fits : 0x200 + program.length ≤ 4096
  · rw [load_of_fits memory fits] at accepted
    cases accepted
    have below : ¬ 0x200 ≤ place := by omega
    simp only [overlay_getElem, if_neg below]
    exact held place inFont
  · rw [load_of_oversized memory (by omega)] at accepted
    cases accepted

theorem HoldsFont.slice_glyph (held : memory.HoldsFont) {address : Address} {digit : Nat}
    (short : digit ≤ 15) (start : address.toNat = 5 * digit) :
    memory.slice address 5 = .ok (glyph digit) := by
  have checked : checkRange address 5 = .ok () := checkRange_of_inside (by omega)
  rw [slice, checked, start]
  refine congrArg Except.ok (List.ext_getElem ?_ ?_)
  · simp [glyph]
    omega
  · intro line within _
    have last : line < 5 := by
      simp at within
      omega
    have here := held (5 * digit + line) (by omega)
    simpa only [glyph, Vector.getElem_toList, Vector.getElem_extract] using here

end Font

end Memory

namespace Machine

def StoresAboveFont (machine : Machine) (call : Call) : Prop :=
  ∀ instruction, machine.begun? call = some instruction → 0 < instruction.storeSize →
    0x50 ≤ machine.index.toNat

/-- Every store of a history is begun with `I` above the font. -/
def SparesFont (machine : Machine) : List Call → Prop
  | [] => True
  | call :: rest =>
      machine.StoresAboveFont call ∧ (machine.call call).machine.SparesFont rest

section Steps

variable {machine : Machine}

theorem font_of_apply {instruction : Instruction} (held : machine.memory.HoldsFont)
    (clear : machine.fault? instruction = none)
    (spared : 0 < instruction.storeSize → 0x50 ≤ machine.index.toNat) :
    (machine.apply instruction).machine.memory.HoldsFont := by
  intro place inFont
  have outside : place < machine.index.toNat ∨
      machine.index.toNat + instruction.storeSize ≤ place := by
    omega
  have inside : place < 4096 := by omega
  have kept := @apply_byte machine instruction ⟨place, inside⟩ clear outside
  exact kept.trans (held place inFont)

/-- A fault leaves memory alone, so only an instruction that is carried out has to spare the
font. -/
theorem Executed.font {call : Call} {result : Except Fault Reply} {left : Machine}
    (record : Executed machine call result left) (held : machine.memory.HoldsFont)
    (spared : machine.StoresAboveFont call) : left.memory.HoldsFont := by
  cases record with
  | faulted running issued found =>
      change (machine.poised call).memory.HoldsFont
      rw [poised_memory]
      exact held
  | carriedOut running issued clear =>
      have above := spared _ (begun?_eq_some.mpr ⟨running, issued⟩)
      rw [← poised_index machine call] at above
      rw [← poised_memory machine call] at held
      exact font_of_apply held clear above
  | _ => exact held

theorem font_of_call {call : Call} (held : machine.memory.HoldsFont)
    (spared : machine.StoresAboveFont call) : (machine.call call).machine.memory.HoldsFont := by
  have untouched : .memory ∉ call.writes →
      (machine.call call).machine.memory = machine.memory := call_agree machine
  cases call with
  | step => exact (executed machine rfl).font held spared
  | execute opcode => exact (executed machine rfl).font held spared
  | perform instruction => exact (executed machine rfl).font held spared
  | reset => exact Memory.initial_holdsFont
  | load program =>
      rw [call, Outcome.map_machine, load]
      split
      next entry filled accepted => exact held.load accepted
      next => exact held
  | _ =>
      rw [untouched (by simp [Call.writes])]
      exact held

theorem font_after {calls : List Call} (held : machine.memory.HoldsFont)
    (spared : machine.SparesFont calls) : (machine.after calls).memory.HoldsFont := by
  induction calls generalizing machine with
  | nil => exact held
  | cons call rest induction => exact induction (font_of_call held spared.1) spared.2

end Steps

section Digits

variable {machine : Machine}

theorem glyph_toNat (digit : UInt8) :
    (digit.toUInt16 * Memory.glyphHeight.toUInt16).toNat = 5 * digit.toNat := by
  have bound := digit.toNat_lt
  have height : Memory.glyphHeight.toUInt16.toNat = 5 := by decide
  rw [UInt16.toNat_mul, UInt8.toNat_toUInt16, height, Nat.mul_comm]
  exact Nat.mod_eq_of_lt (by omega)

theorem perform_draw_of_slice (a b : UInt8) {height : UInt8} {sprite : List UInt8}
    (running : machine.mode = .running)
    (read : machine.memory.slice machine.index height.toNat = .ok sprite) :
    let painted := machine.screen.draw (machine.registers.get a) (machine.registers.get b) sprite
    (machine.perform (.draw a b height)).result = .ok () ∧
      (machine.perform (.draw a b height)).machine = { machine with
        screen := painted.2
        registers := machine.registers.setFlag painted.1 } := by
  intro painted
  have clear : machine.fault? (.draw a b height) = none := by
    cases verdict : machine.fault? (.draw a b height) with
    | none => rfl
    | some fault => cases (slice_of_rangeFault verdict).symm.trans read
  rw [perform_of_no_fault running clear, apply, drawAtIndex, read]
  exact ⟨rfl, rfl⟩

end Digits

theorem font_shows_the_digits (config : Config) (random : WordSource) (calls : List Call)
    (spared : (powerOn config random).SparesFont calls) :
    let machine := (powerOn config random).after calls
    (∀ place (inFont : place < 0x50), machine.memory.bytes[place] = Memory.font[place]) ∧
    (machine.mode = .running → ∀ x a b : UInt8, (machine.registers.get x).toNat ≤ 15 →
      let digit := (machine.registers.get x).toNat
      let column := machine.registers.get a
      let row := machine.registers.get b
      let pointed := machine.perform (.pointAtGlyph x)
      let drawn := pointed.machine.perform (.draw a b 5)
      let painted := machine.screen.draw column row (Memory.glyph digit)
      (x.toNat < 16 → machine.execute (.ofByte 0xF x 0x29) = pointed) ∧
      (a.toNat < 16 → b.toNat < 16 →
        pointed.machine.execute (.ofNibbles 0xD a b 5) = drawn) ∧
      pointed.result = .ok () ∧ drawn.result = .ok () ∧
      (∃ index : Address, index.toNat = 5 * digit ∧ drawn.machine = { machine with
        index
        screen := painted.2
        registers := drawn.machine.registers }) ∧
      (∀ cell, painted.2.lit cell = (machine.screen.lit cell ^^
        decide (Covers column.toNat row.toNat (Memory.glyph digit) cell))) ∧
      (∀ number : UInt8, number.toNat < 16 → number ≠ 0xF →
        drawn.machine.registers.get number = machine.registers.get number) ∧
      let collision := ∃ cell, machine.screen.lit cell = true ∧ painted.2.lit cell = false
      (painted.1 = true ↔ collision) ∧
      (collision → drawn.machine.registers.get 0xF = 1) ∧
      (¬ collision → drawn.machine.registers.get 0xF = 0)) := by
  intro machine
  have held : machine.memory.HoldsFont := font_after Memory.initial_holdsFont spared
  refine ⟨held, ?_⟩
  intro running x a b short digit column row pointed drawn painted
  have pointing : pointed = .done { machine with
      index := (machine.registers.get x).toUInt16 * Memory.glyphHeight.toUInt16 } () :=
    perform_of_no_fault running rfl
  have active : pointed.machine.mode = .running := by
    rw [pointing]
    exact running
  have read : pointed.machine.memory.slice pointed.machine.index (5 : UInt8).toNat =
      .ok (Memory.glyph digit) := by
    rw [pointing]
    exact held.slice_glyph short (glyph_toNat _)
  obtain ⟨result, left⟩ := perform_draw_of_slice a b active read
  have low : (Memory.glyph digit).length ≤ 32 := by
    rw [Memory.length_glyph short]
    decide
  have registers : drawn.machine.registers = machine.registers.setFlag painted.1 := by
    change (pointed.machine.perform (.draw a b 5)).machine.registers = _
    rw [left, pointing]
    rfl
  refine ⟨?named, ?nibbled, ?_, result, ⟨_, glyph_toNat _, ?machine⟩, ?lit, ?others, ?flag⟩
  case named =>
    intro named
    have decoded := @Instruction.decode_encode (.pointAtGlyph x) named nofun
    exact congrArg machine.perform decoded
  case nibbled =>
    intro first second
    have decoded := @Instruction.decode_encode (.draw a b 5) ⟨first, second, by decide⟩ nofun
    exact congrArg pointed.machine.perform decoded
  · rw [pointing]
    rfl
  case machine =>
    rw [registers, left, pointing]
    rfl
  case lit =>
    exact fun cell => machine.screen.lit_draw_of_low column row low cell
  case others =>
    intro number within plain
    rw [registers, Registers.get_setFlag_of_ne _ _ within plain]
  case flag =>
    intro collision
    have struck : painted.1 = true ↔ collision := machine.screen.draw_hit_iff_of_low column row low
    rw [registers]
    exact ⟨struck, Registers.setFlag_tells _ struck⟩

/-- Ten is stored far above the font and drawn over a screen that is dark: the glyph of `A` has four
pixels in its first row, nothing is struck, and `VF` says so whatever it held. -/
theorem stored_ten_shows_as_a_letter :
    let calls : List Call :=
      [.perform (.setIndex 0x300), .perform (.setByte 3 10), .perform (.storeDecimal 3),
        .perform (.setByte 0xF 7)]
    let machine := (powerOn {} (.cycle #[])).after calls
    let pointed := machine.perform (.pointAtGlyph 3)
    let drawn := (pointed.machine.perform (.draw 3 3 5)).machine
    (powerOn {} (.cycle #[])).SparesFont calls ∧ machine.memory.bytes[0x32] = 0xF0 ∧
      drawn.index.toNat = 0x32 ∧ drawn.screen.lit ⟨13, 10⟩ = true ∧
      drawn.screen.lit ⟨14, 10⟩ = false ∧ machine.registers.get 0xF = 7 ∧
      drawn.registers.get 0xF = 0 ∧ drawn.registers.get 3 = 10 := by
  intro calls machine pointed drawn
  have spared : (powerOn {} (.cycle #[])).SparesFont calls := by
    refine ⟨?_, ?_, ?_, ?_, trivial⟩
    · intro instruction begun stores
      cases begun
      cases stores
    · intro instruction begun stores
      cases begun
      cases stores
    · intro instruction begun stores
      decide
    · intro instruction begun stores
      cases begun
      cases stores
  obtain ⟨held, shown⟩ := font_shows_the_digits {} (.cycle #[]) calls spared
  obtain ⟨_, _, _, _, ⟨index, start, left⟩, lit, others, _, _, free⟩ := shown rfl 3 3 3 (by decide)
  have pixels : ∀ cell, drawn.screen.lit cell =
      (Screen.blank.lit cell ^^ decide (Covers 10 10 (Memory.glyph 10) cell)) := by
    intro cell
    exact (congrArg (fun machine : Machine => machine.screen.lit cell) left).trans (lit cell)
  have dark : ∀ cell, Screen.blank.lit cell = false := by simp [Screen.blank, Screen.lit]
  refine ⟨spared, held 0x32 (by decide), ?_, ?_, ?_, rfl, ?_, ?_⟩
  · exact (congrArg (fun machine : Machine => machine.index.toNat) left).trans start
  · rw [pixels, dark]
    decide
  · rw [pixels, dark]
    decide
  · apply free
    rintro ⟨cell, struck, _⟩
    cases (dark cell).symm.trans struck
  · exact others 3 (by decide) (by decide)

end Machine

end Chip8
