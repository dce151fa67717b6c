import Chip8.Proofs.Screen.Torus

/-!
The screen has no edges. If the picture is shifted round it and a sprite is drawn where its place
has gone, the result is the shifted picture of the draw, with the same collision. A sprite is drawn
row by row, so that its upper and its lower part can be drawn one after the other.
-/

namespace Chip8

namespace Cell

/-- The cell so many columns to the right and so many rows further down, round the edges. -/
def moved (cell : Cell) (columns rows : Nat) : Cell :=
  wrapped (cell.column.val + columns) (cell.row.val + rows)

section Moves

variable (cell : Cell) (columns rows : Nat)

theorem moved_wrapped (column row : Nat) :
    (wrapped column row).moved columns rows = wrapped (column + columns) (row + rows) := by
  simp only [moved, wrapped, Nat.mod_add_mod]

theorem wrapped_index : wrapped cell.index.val (cell.index.val / 64) = cell := by
  simp only [wrapped_eq_iff, index]
  omega

theorem moved_zero : cell.moved 0 0 = cell := by
  rw [moved, wrapped_eq_iff]
  omega

/-- A column to the left is 63 columns to the right, and a row up is 31 rows down. -/
theorem moved_there_and_back :
    (cell.moved columns rows).moved (63 * columns) (31 * rows) = cell := by
  rw [moved, wrapped_eq_iff]
  simp only [moved, wrapped]
  omega

theorem moved_back_and_there :
    (cell.moved (63 * columns) (31 * rows)).moved columns rows = cell := by
  rw [moved, wrapped_eq_iff]
  simp only [moved, wrapped]
  omega

theorem moved_inj {first second : Cell} :
    first.moved columns rows = second.moved columns rows ↔ first = second := by
  refine ⟨fun same => ?_, fun same => same ▸ rfl⟩
  rw [← moved_there_and_back first columns rows, same, moved_there_and_back]

end Moves

end Cell

section Cells

variable {column row shiftedColumn shiftedRow : Nat} {columns rows : Nat}

theorem rowCells_moved (bits : UInt8) (across : shiftedColumn % 64 = (column + columns) % 64)
    (down : shiftedRow % 32 = (row + rows) % 32) :
    rowCells shiftedColumn shiftedRow bits =
      (rowCells column row bits).map fun cell => cell.moved columns rows := by
  rw [rowCells, rowCells, List.map_map]
  refine List.map_congr_left fun offset _ => ?_
  rw [Function.comp_apply, Cell.moved_wrapped, wrapped_inj]
  omega

theorem spriteCells_moved (sprite : List UInt8)
    (across : shiftedColumn % 64 = (column + columns) % 64)
    (down : shiftedRow % 32 = (row + rows) % 32) :
    spriteCells shiftedColumn shiftedRow sprite =
      (spriteCells column row sprite).map fun cell => cell.moved columns rows := by
  induction sprite generalizing row shiftedRow with
  | nil => rfl
  | cons bits rest induction =>
      have next : (shiftedRow + 1) % 32 = (row + 1 + rows) % 32 := by omega
      rw [spriteCells, spriteCells, List.map_append, rowCells_moved bits across down,
        induction next]

theorem spriteCells_congr (sprite : List UInt8) (across : shiftedColumn % 64 = column % 64)
    (down : shiftedRow % 32 = row % 32) :
    spriteCells shiftedColumn shiftedRow sprite = spriteCells column row sprite := by
  have unmoved : spriteCells shiftedColumn shiftedRow sprite =
      (spriteCells column row sprite).map fun cell => cell.moved 0 0 :=
    spriteCells_moved sprite across down
  simpa only [Cell.moved_zero, List.map_id'] using unmoved

theorem spriteCells_append (column row : Nat) (upper lower : List UInt8) :
    spriteCells column row (upper ++ lower) =
      spriteCells column row upper ++ spriteCells column (row + upper.length) lower := by
  induction upper generalizing row with
  | nil => rfl
  | cons bits rest induction =>
      have below : row + 1 + rest.length = row + (bits :: rest).length := by
        rw [List.length_cons, Nat.add_assoc, Nat.add_comm 1]
      rw [List.cons_append, spriteCells, spriteCells, induction, below, List.append_assoc]

end Cells

namespace Screen

def shifted (screen : Screen) (columns rows : Nat) : Screen :=
  { screen with pixels := .ofFn fun place =>
      screen.lit ((Cell.wrapped place.val (place.val / 64)).moved (63 * columns) (31 * rows)) }

section Shifts

variable (screen : Screen) (columns rows : Nat)

theorem dirty_shifted : (screen.shifted columns rows).dirty = screen.dirty := by
  rw [shifted]

theorem lit_shifted (cell : Cell) :
    (screen.shifted columns rows).lit (cell.moved columns rows) = screen.lit cell := by
  have place : (screen.shifted columns rows).lit (cell.moved columns rows) =
      screen.lit ((Cell.wrapped (cell.moved columns rows).index.val
        ((cell.moved columns rows).index.val / 64)).moved (63 * columns) (31 * rows)) := by
    simp [lit, shifted]
  rw [place, Cell.wrapped_index, Cell.moved_there_and_back]

theorem shifted_zero : screen.shifted 0 0 = screen := by
  refine ext_lit (fun cell => ?_) (dirty_shifted screen 0 0)
  have unmoved := lit_shifted screen 0 0 cell
  rwa [Cell.moved_zero] at unmoved

theorem flip_shifted (cell : Cell) :
    (screen.shifted columns rows).flip (cell.moved columns rows) =
      (screen.flip cell).shifted columns rows := by
  refine ext_lit (fun other => ?_) rfl
  rw [← Cell.moved_back_and_there other columns rows, lit_flip, lit_shifted, lit_shifted,
    lit_flip]
  simp only [Cell.moved_inj]

theorem flipAll_shifted (cells : List Cell) :
    (screen.shifted columns rows).flipAll (cells.map fun cell => cell.moved columns rows) =
      ((screen.flipAll cells).1, (screen.flipAll cells).2.shifted columns rows) := by
  induction cells generalizing screen with
  | nil => rfl
  | cons cell rest induction =>
      rw [List.map_cons, flipAll_cons, flip_shifted, induction, lit_shifted, flipAll_cons]

theorem flipAll_append (earlier later : List Cell) :
    screen.flipAll (earlier ++ later) =
      let first := screen.flipAll earlier
      let second := first.2.flipAll later
      (first.1 || second.1, second.2) := by
  induction earlier generalizing screen with
  | nil => exact Prod.ext (Bool.false_or _).symm rfl
  | cons cell rest induction =>
      rw [List.cons_append, flipAll_cons, induction, flipAll_cons]
      exact Prod.ext (Bool.or_assoc _ _ _).symm rfl

theorem flipAll_marked (dirty : Bool) (cells : List Cell) :
    ({ screen with dirty } : Screen).flipAll cells =
      ((screen.flipAll cells).1, { (screen.flipAll cells).2 with dirty }) := by
  induction cells generalizing screen with
  | nil => rfl
  | cons cell rest induction =>
      rw [flipAll_cons, flipAll_cons]
      exact congrArg (fun flipped : Bool × Screen => (screen.lit cell || flipped.1, flipped.2))
        (induction (screen.flip cell))

end Shifts

section Draws

variable (screen : Screen) {x y : UInt8}

theorem draw_shifted (sprite : List UInt8) {columns rows : Nat} {shiftedX shiftedY : UInt8}
    (across : shiftedX.toNat % 64 = (x.toNat + columns) % 64)
    (down : shiftedY.toNat % 32 = (y.toNat + rows) % 32) :
    (screen.shifted columns rows).draw shiftedX shiftedY sprite =
      ((screen.draw x y sprite).1, (screen.draw x y sprite).2.shifted columns rows) := by
  rw [draw, spriteCells_moved sprite across down, flipAll_shifted]
  rfl

theorem draw_congr (sprite : List UInt8) {otherX otherY : UInt8}
    (across : otherX.toNat % 64 = x.toNat % 64) (down : otherY.toNat % 32 = y.toNat % 32) :
    screen.draw otherX otherY sprite = screen.draw x y sprite := by
  have unmoved : (screen.shifted 0 0).draw otherX otherY sprite =
      ((screen.draw x y sprite).1, (screen.draw x y sprite).2.shifted 0 0) :=
    draw_shifted screen sprite across down
  rwa [shifted_zero, shifted_zero] at unmoved

theorem draw_append (x : UInt8) (upper lower : List UInt8) {below : UInt8}
    (down : below.toNat % 32 = (y.toNat + upper.length) % 32) :
    screen.draw x y (upper ++ lower) =
      let first := screen.draw x y upper
      let second := first.2.draw x below lower
      (first.1 || second.1, second.2) := by
  have cells : spriteCells x.toNat below.toNat lower =
      spriteCells x.toNat (y.toNat + upper.length) lower := spriteCells_congr lower rfl down
  simp only [draw, spriteCells_append, flipAll_append, flipAll_marked, cells]

end Draws

/-- A shift takes every pixel along with its cell. A draw on the shifted picture, at the place that
the shift makes of the old one, is the shifted draw, so only the place modulo the size of the screen
matters. The lower part of a sprite can be drawn by itself below the upper one. -/
theorem drawing_follows_shifts_and_splits (screen : Screen) (x y : UInt8) :
    (∀ columns rows cell,
      (screen.shifted columns rows).lit (cell.moved columns rows) = screen.lit cell) ∧
    (∀ (sprite : List UInt8) (columns rows : Nat) (shiftedX shiftedY : UInt8),
      shiftedX.toNat % 64 = (x.toNat + columns) % 64 →
      shiftedY.toNat % 32 = (y.toNat + rows) % 32 →
      (screen.shifted columns rows).draw shiftedX shiftedY sprite =
        ((screen.draw x y sprite).1, (screen.draw x y sprite).2.shifted columns rows)) ∧
    (∀ (sprite : List UInt8) (otherX otherY : UInt8),
      otherX.toNat % 64 = x.toNat % 64 → otherY.toNat % 32 = y.toNat % 32 →
      screen.draw otherX otherY sprite = screen.draw x y sprite) ∧
    ∀ upper lower : List UInt8,
      let first := screen.draw x y upper
      let second := first.2.draw x ((y.toNat + upper.length) % 32).toUInt8 lower
      screen.draw x y (upper ++ lower) = (first.1 || second.1, second.2) := by
  refine ⟨lit_shifted screen, ?shifted, ?congruent, ?split⟩
  case shifted =>
    intro sprite columns rows shiftedX shiftedY across down
    exact draw_shifted screen sprite across down
  case congruent =>
    intro sprite otherX otherY across down
    exact draw_congr screen sprite across down
  case split =>
    intro upper lower
    have below : ((y.toNat + upper.length) % 32).toUInt8.toNat % 32 =
        (y.toNat + upper.length) % 32 := by
      rw [UInt8.toNat_ofNat']
      omega
    exact draw_append screen x upper lower below

/-- A sprite over the right edge meets a lit pixel with its second row. It meets the same one when
the picture is shifted until that row is beyond the lower edge too, and when the row is drawn by
itself. -/
theorem edge_collides_wherever_it_is_shifted :
    let screen := (blank.draw 3 1 [0x80]).2
    let drawn := screen.draw 60 0 [0xC0, 0x81]
    let upper := screen.draw 60 0 [0xC0]
    (196 : UInt8).toNat % 64 = ((60 : UInt8).toNat + 200) % 64 ∧
      (63 : UInt8).toNat % 32 = ((0 : UInt8).toNat + 31) % 32 ∧ drawn.1 = true ∧
      (screen.shifted 200 31).draw 196 63 [0xC0, 0x81] = (true, drawn.2.shifted 200 31) ∧
      (124 : UInt8).toNat % 64 = (60 : UInt8).toNat % 64 ∧
      (32 : UInt8).toNat % 32 = (0 : UInt8).toNat % 32 ∧
      screen.draw 124 32 [0xC0, 0x81] = drawn ∧
      upper.1 = false ∧ upper.2.draw 60 1 [0x81] = drawn := by
  intro screen drawn upper
  obtain ⟨_, shifts, congruent, splits⟩ := drawing_follows_shifts_and_splits screen 60 0
  have across : (196 : UInt8).toNat % 64 = ((60 : UInt8).toNat + 200) % 64 := by decide
  have down : (63 : UInt8).toNat % 32 = ((0 : UInt8).toNat + 31) % 32 := by decide
  have round : (124 : UInt8).toNat % 64 = (60 : UInt8).toNat % 64 := by decide
  have under : (32 : UInt8).toNat % 32 = (0 : UInt8).toNat % 32 := by decide
  have hit : drawn.1 = true := rfl
  have missed : upper.1 = false := rfl
  have moved := shifts [0xC0, 0x81] 200 31 196 63 across down
  have parts : drawn = (upper.1 || (upper.2.draw 60 1 [0x81]).1, (upper.2.draw 60 1 [0x81]).2) :=
    splits [0xC0] [0x81]
  rw [missed, Bool.false_or] at parts
  refine ⟨across, down, hit, ?_, round, under, ?_, missed, parts.symm⟩
  · rw [moved, hit]
  · exact congruent [0xC0, 0x81] 124 32 round under

end Screen

end Chip8
