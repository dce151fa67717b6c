import Chip8.Proofs.Safety.Checked
import Chip8.Screen

/-!
Checked evaluation of drawing, pixel by pixel and row by row. The coordinates are bytes and the
lines of a sprite are counted in a type of 64 bits, so that their sums have room, and both are
taken round the edges before they name a cell.
-/

namespace Chip8

open Checked

def Cell.checked (column row : Nat) : Checked Cell :=
  if inside : row < 32 ∧ column < 64 then .ok ⟨⟨column, inside.2⟩, ⟨row, inside.1⟩⟩
  else .error .outside

theorem Cell.checked_wrapped (column row : Nat) :
    checked (column % 64) (row % 32) = .ok (wrapped column row) :=
  dif_pos ⟨Nat.mod_lt _ (by decide), Nat.mod_lt _ (by decide)⟩

namespace Screen

def flipNext (painted : Bool × Screen) (cell : Cell) : Bool × Screen :=
  (painted.1 || painted.2.lit cell, painted.2.flip cell)

theorem flipAll_eq_foldl (screen : Screen) (cells : List Cell) :
    screen.flipAll cells = cells.foldl flipNext (false, screen) := rfl

def paintPixelChecked (column row : Nat) (bits : UInt8) (painted : Bool × Screen) (offset : Nat) :
    Checked (Bool × Screen) := do
  let distance ← difference 7 offset
  let shifted ← shiftRight 8 bits.toNat distance
  if shifted &&& 1 = 0 then
    return painted
  let across ← sum 64 column offset
  let cell ← Cell.checked (across % 64) row
  return flipNext painted cell

def paintRowsChecked (column row line : Nat) :
    List UInt8 → Bool × Screen → Checked (Bool × Screen)
  | [], painted => return painted
  | bits :: rest, painted => do
      let down ← sum 64 row line
      let next ← (List.range 8).foldlM (paintPixelChecked column (down % 32) bits) painted
      paintRowsChecked column row (line + 1) rest next

def drawChecked (screen : Screen) (x y : UInt8) (sprite : List UInt8) :
    Checked (Bool × Screen) := do
  let painted ← paintRowsChecked x.toNat y.toNat 0 sprite (false, screen)
  return (painted.1, { painted.2 with dirty := true })

def isLitChecked (screen : Screen) (column row : Nat) : Checked Bool := do
  if column < 64 ∧ row < 32 then
    let cell ← Cell.checked column row
    return screen.lit cell
  return false

theorem lowest_bit_clear_iff (value distance : Nat) :
    value >>> distance &&& 1 = 0 ↔ value.testBit distance = false := by
  rw [Nat.testBit, Nat.and_comm, bne_eq_false_iff_eq]

section Safe

variable {column : Nat} (short : column < 256) (row : Nat) (bits : UInt8)

include short

theorem paintPixelChecked_eq (painted : Bool × Screen) {offset : Nat} (inside : offset < 8) :
    paintPixelChecked column (row % 32) bits painted offset =
      .ok (if bits.toNat.testBit (7 - offset) then
        flipNext painted (Cell.wrapped (column + offset) row) else painted) := by
  rw [paintPixelChecked, difference_of_le (by omega), ok_bind, shiftRight_of_lt _ (by omega),
    ok_bind, sum_of_lt (by omega), ok_bind, Cell.checked_wrapped]
  simp only [lowest_bit_clear_iff]
  cases bits.toNat.testBit (7 - offset) <;> rfl

theorem paintPixelsChecked_eq (painted : Bool × Screen) {offsets : List Nat}
    (inside : ∀ offset ∈ offsets, offset < 8) :
    offsets.foldlM (paintPixelChecked column (row % 32) bits) painted =
      .ok (((offsets.filter fun offset => bits.toNat.testBit (7 - offset)).map fun offset =>
        Cell.wrapped (column + offset) row).foldl flipNext painted) := by
  induction offsets generalizing painted with
  | nil => rfl
  | cons offset rest induction =>
      have first := inside offset List.mem_cons_self
      have others := fun later member => inside later (List.mem_cons_of_mem _ member)
      rw [List.foldlM_cons, paintPixelChecked_eq short row bits painted first, ok_bind,
        induction _ others, List.filter_cons]
      split
      next => rfl
      next => rfl

theorem paintRowsChecked_eq (painted : Bool × Screen) (line : Nat) (sprite : List UInt8)
    (room : row + line + sprite.length < 2 ^ 64) :
    paintRowsChecked column row line sprite painted =
      .ok ((spriteCells column (row + line) sprite).foldl flipNext painted) := by
  induction sprite generalizing painted line with
  | nil => rfl
  | cons bits rest induction =>
      rw [List.length_cons] at room
      have offsets : ∀ offset ∈ List.range 8, offset < 8 := fun _ => List.mem_range.mp
      rw [paintRowsChecked, sum_of_lt (by omega), ok_bind,
        paintPixelsChecked_eq short (row + line) bits painted offsets, ok_bind,
        induction _ (line + 1) (by omega), spriteCells, List.foldl_append]
      rfl

end Safe

theorem drawChecked_eq (screen : Screen) (x y : UInt8) {sprite : List UInt8}
    (short : sprite.length < 2 ^ 53) :
    screen.drawChecked x y sprite = .ok (screen.draw x y sprite) := by
  have column := x.toNat_lt
  have row := y.toNat_lt
  rw [drawChecked, paintRowsChecked_eq column y.toNat _ 0 sprite (by omega), ok_bind, draw,
    flipAll_eq_foldl]
  rfl

theorem isLitChecked_eq (screen : Screen) (column row : Nat) :
    screen.isLitChecked column row = .ok (screen.isLit column row) := by
  rw [isLitChecked, isLit]
  by_cases inside : column < 64 ∧ row < 32
  · rw [if_pos inside, dif_pos inside, Cell.checked, dif_pos inside.symm]
    rfl
  · rw [if_neg inside, dif_neg inside]
    rfl

end Screen

end Chip8
