import Chip8.Proofs.Screen.Sprites
import Mathlib.Algebra.BigOperators.Intervals

/-!
Sprites of any height on a screen without edges. A cell is flipped once for every pixel of the
sprite that comes to lie on it, and a sprite taller than the screen puts several pixels on one cell. Their
number settles what a draw does to the cell, and what a second draw of the same sprite undoes.
-/

namespace Chip8

/-- The pixels of a sprite that lie on a cell, each as its line and its distance from the left. -/
def pixelsOn (column row : Nat) (sprite : List UInt8) (cell : Cell) : Finset (Nat × Nat) :=
  (Finset.range sprite.length ×ˢ Finset.range 8).filter fun (line, offset) =>
    (sprite.getD line 0).toNat.testBit (7 - offset) = true ∧
      (column + offset) % 64 = cell.column.val ∧ (row + line) % 32 = cell.row.val

/-- How many pixels of a sprite with its upper left corner at a place lie on a cell. -/
def hits (column row : Nat) (sprite : List UInt8) (cell : Cell) : Nat :=
  (pixelsOn column row sprite cell).card

section Cells

variable {column row : Nat} {bits : UInt8} {sprite : List UInt8} {cell : Cell}

theorem wrapped_eq_iff : Cell.wrapped column row = cell ↔
    column % 64 = cell.column.val ∧ row % 32 = cell.row.val := by
  rcases cell with ⟨cellColumn, cellRow⟩
  simp only [Cell.wrapped, Cell.mk.injEq, Fin.ext_iff]

theorem count_rowCells : (rowCells column row bits).count cell =
    ((Finset.range 8).filter fun offset => bits.toNat.testBit (7 - offset) = true ∧
      (column + offset) % 64 = cell.column.val ∧ row % 32 = cell.row.val).card := by
  have counted : (rowCells column row bits).count cell =
      (List.range 8).countP fun offset => bits.toNat.testBit (7 - offset) = true ∧
        (column + offset) % 64 = cell.column.val ∧ row % 32 = cell.row.val := by
    rw [rowCells, List.count_eq_countP, List.countP_map, List.countP_filter]
    refine List.countP_congr fun offset _ => ?_
    simp [wrapped_eq_iff, and_comm]
  rw [counted, List.countP_eq_length_filter]
  rfl

theorem hits_eq_sum : hits column row sprite cell = ∑ line ∈ Finset.range sprite.length,
    (rowCells column (row + line) (sprite.getD line 0)).count cell := by
  simp only [hits, pixelsOn, count_rowCells, Finset.card_filter, Finset.sum_product]

theorem count_spriteCells : (spriteCells column row sprite).count cell =
    hits column row sprite cell := by
  induction sprite generalizing row with
  | nil => rfl
  | cons bits rest induction =>
      -- behind the first row begins a shorter sprite, one row lower
      have lower : ∀ line, row + 1 + line = row + (line + 1) := fun line => by omega
      rw [spriteCells, List.count_append, induction, hits_eq_sum, hits_eq_sum, List.length_cons,
        Finset.sum_range_succ', Nat.add_comm]
      simp only [lower, List.getD_cons_succ, List.getD_cons_zero, Nat.add_zero]

theorem hits_le_one (low : sprite.length ≤ 32) : hits column row sprite cell ≤ 1 := by
  rw [← count_spriteCells]
  exact List.nodup_iff_count_le_one.mp (spriteCells_nodup column row low) cell

/-- A row of a sprite has a pixel exactly if it is not the zero byte. -/
theorem exists_pixel_iff :
    (∃ offset < 8, bits.toNat.testBit (7 - offset) = true) ↔ bits ≠ 0 := by
  constructor
  · rintro ⟨offset, _, set⟩ rfl
    simp at set
  · intro nonzero
    have positive : bits.toNat ≠ 0 := fun zero => nonzero (UInt8.toNat_inj.mp zero)
    obtain ⟨place, set⟩ := Nat.exists_testBit_of_ne_zero positive
    have short : place < 8 := Nat.lt_of_not_ge fun long => by
      have bound : bits.toNat < 2 ^ place :=
        Nat.lt_of_lt_of_le bits.toNat_lt (Nat.pow_le_pow_right (by decide) long)
      rw [Nat.testBit_lt_two_pow bound] at set
      cases set
    refine ⟨7 - place, by omega, ?_⟩
    rwa [Nat.sub_sub_self (by omega)]

theorem exists_hits_iff :
    (∃ cell, 0 < hits column row sprite cell) ↔ ∃ bits ∈ sprite, bits ≠ 0 := by
  simp only [← count_spriteCells, List.count_pos_iff, mem_spriteCells, Covers,
    List.getD_eq_getElem?_getD]
  constructor
  · rintro ⟨cell, line, within, offset, inside, set, _⟩
    rw [List.getElem?_eq_getElem within, Option.getD_some] at set
    exact ⟨sprite[line], List.getElem_mem within, exists_pixel_iff.mp ⟨offset, inside, set⟩⟩
  · rintro ⟨bits, member, nonzero⟩
    obtain ⟨line, within, rfl⟩ := List.getElem_of_mem member
    obtain ⟨offset, inside, set⟩ := exists_pixel_iff.mpr nonzero
    refine ⟨_, line, within, offset, inside, ?_, rfl⟩
    rw [List.getElem?_eq_getElem within]
    exact set

end Cells

namespace Pixel

variable (lit : Bool) (flips : Nat)

theorem flipped_double : flipped lit (flips + flips) = lit := by
  have even : (flips + flips) % 2 = 0 := by omega
  simp [flipped, even]

theorem struck_iff : Struck lit flips ↔ 1 ≤ flips ∧ lit = true ∨ 2 ≤ flips := by
  unfold Struck
  cases lit <;> simp <;> omega

/-- The second draw of a sprite finds each of its pixels inverted, or strikes what it has lit. -/
theorem struck_flipped_iff :
    Struck (flipped lit flips) flips ↔ 1 ≤ flips ∧ (lit = false ∨ 2 ≤ flips) := by
  unfold Struck flipped
  by_cases once : flips = 1
  · subst once
    cases lit <;> simp
  · cases lit <;> simp <;> omega

theorem struck_or_struck_iff :
    Struck lit flips ∨ 1 ≤ flips ∧ (lit = false ∨ 2 ≤ flips) ↔ 0 < flips := by
  unfold Struck
  cases lit <;> simp <;> omega

end Pixel

namespace Screen

section Draws

variable (screen : Screen) (x y : UInt8) (sprite : List UInt8)

theorem lit_draw_of_hits (cell : Cell) : (screen.draw x y sprite).2.lit cell =
    Pixel.flipped (screen.lit cell) (hits x.toNat y.toNat sprite cell) := by
  rw [lit_draw screen ⟨x, y, sprite⟩, Drawing.cells, count_spriteCells]

theorem draw_hit_iff_of_hits : (screen.draw x y sprite).1 = true ↔
    ∃ cell, Pixel.Struck (screen.lit cell) (hits x.toNat y.toNat sprite cell) := by
  simp only [draw_hit_iff screen ⟨x, y, sprite⟩, Drawing.cells, count_spriteCells]

/-- A flip finds a lit pixel where one was on before, or where two pixels of the sprite meet. -/
theorem draw_collides_iff : (screen.draw x y sprite).1 = true ↔ ∃ cell,
    1 ≤ hits x.toNat y.toNat sprite cell ∧ screen.lit cell = true ∨
      2 ≤ hits x.toNat y.toNat sprite cell := by
  simp only [draw_hit_iff_of_hits, Pixel.struck_iff]

end Draws

/-- A second draw takes back what the first has done. It meets a lit pixel exactly where the first
has lit one or where two pixels of the sprite meet, so that the two draws together tell whether the
sprite has any pixels. -/
theorem second_draw_cancels (screen : Screen) (x y : UInt8) (sprite : List UInt8) :
    let first := screen.draw x y sprite
    let second := first.2.draw x y sprite
    let hits := hits x.toNat y.toNat sprite
    (∀ cell, second.2.lit cell = screen.lit cell) ∧
    (second.1 = true ↔
      ∃ cell, 1 ≤ hits cell ∧ (screen.lit cell = false ∨ 2 ≤ hits cell)) ∧
    ((first.1 || second.1) = true ↔ ∃ bits ∈ sprite, bits ≠ 0) ∧
    ((∀ cell, screen.lit cell = false) → (second.1 = true ↔ ∃ bits ∈ sprite, bits ≠ 0)) := by
  intro first second hits
  have again : second.1 = true ↔
      ∃ cell, 1 ≤ hits cell ∧ (screen.lit cell = false ∨ 2 ≤ hits cell) := by
    simp only [second, draw_hit_iff_of_hits, first, lit_draw_of_hits, Pixel.struck_flipped_iff,
      hits]
  have either : (first.1 || second.1) = true ↔ ∃ cell, 0 < hits cell := by
    rw [Bool.or_eq_true, again, draw_hit_iff_of_hits, ← exists_or]
    refine exists_congr fun cell => ?_
    exact Pixel.struck_or_struck_iff _ _
  refine ⟨?_, again, ?_, ?_⟩
  · intro cell
    rw [lit_draw_of_hits, lit_draw_of_hits, ← Pixel.flipped_add, Pixel.flipped_double]
  · rw [either]
    exact exists_hits_iff
  · intro dark
    rw [again, ← exists_hits_iff]
    simp only [dark, true_or, and_true]
    rfl

/-- The last row of a sprite of 33 meets the first one. Drawn twice over the corner of a dark screen
it leaves nothing there. -/
theorem tall_sprite_is_taken_back :
    let sprite := List.replicate 33 0x81
    let second := (blank.draw 60 30 sprite).2.draw 60 30 sprite
    (∀ cell, blank.lit cell = false) ∧ second.1 = true ∧ ∀ cell, second.2.lit cell = false := by
  intro sprite second
  obtain ⟨kept, _, _, answered⟩ := second_draw_cancels blank 60 30 sprite
  have dark : ∀ cell, blank.lit cell = false := by simp [blank, lit]
  have painted : ∃ bits ∈ sprite, bits ≠ 0 := ⟨0x81, by simp [sprite], by decide⟩
  exact ⟨dark, (answered dark).mpr painted, fun cell => (kept cell).trans (dark cell)⟩

end Screen

end Chip8
