import Chip8.Proofs.Screen.Drawing
import Mathlib.Data.List.Nodup

/-!
Sprites that are no taller than the screen. They never come round to a row that they have painted,
so that each of their pixels flips a cell of its own, and a draw inverts exactly the cells that the
sprite covers.
-/

namespace Chip8

/-- A sprite with its upper left corner at a place has a pixel at a cell. Rows and columns go round
the edges of the screen, and the highest bit of a row is at the left. -/
def Covers (column row : Nat) (sprite : List UInt8) (cell : Cell) : Prop :=
  ∃ line < sprite.length, ∃ offset < 8, (sprite.getD line 0).toNat.testBit (7 - offset) = true ∧
    Cell.wrapped (column + offset) (row + line) = cell

instance (column row : Nat) (sprite : List UInt8) (cell : Cell) :
    Decidable (Covers column row sprite cell) := by
  unfold Covers
  infer_instance

section Cells

variable {column row : Nat} {bits : UInt8} {sprite : List UInt8} {cell : Cell}

theorem mem_rowCells : cell ∈ rowCells column row bits ↔
    ∃ offset < 8, bits.toNat.testBit (7 - offset) = true ∧
      Cell.wrapped (column + offset) row = cell := by
  simp only [rowCells, List.mem_map, List.mem_filter, List.mem_range, and_assoc]

theorem mem_spriteCells : cell ∈ spriteCells column row sprite ↔ Covers column row sprite cell := by
  induction sprite generalizing row with
  | nil => simp [spriteCells, Covers]
  | cons bits rest induction =>
      rw [spriteCells, List.mem_append, mem_rowCells, induction]
      constructor
      · rintro (⟨offset, inside, set, place⟩ | ⟨line, within, offset, inside, set, place⟩)
        · exact ⟨0, Nat.zero_lt_succ _, offset, inside, set, place⟩
        · refine ⟨line + 1, Nat.succ_lt_succ within, offset, inside, set, ?_⟩
          rw [← place, Nat.add_right_comm, Nat.add_assoc row]
      · rintro ⟨line, within, offset, inside, set, place⟩
        cases line with
        | zero => exact .inl ⟨offset, inside, set, place⟩
        | succ line =>
            refine .inr ⟨line, Nat.lt_of_succ_lt_succ within, offset, inside, set, ?_⟩
            rw [← place, Nat.add_right_comm, Nat.add_assoc row]

theorem wrapped_inj {first second third fourth : Nat} :
    Cell.wrapped first second = Cell.wrapped third fourth ↔
      first % 64 = third % 64 ∧ second % 32 = fourth % 32 := by
  simp [Cell.wrapped]

theorem rowCells_nodup (column row : Nat) (bits : UInt8) : (rowCells column row bits).Nodup := by
  refine List.Nodup.map_on ?_ (List.nodup_range.filter _)
  intro first firstMember second secondMember same
  have firstShort := List.mem_range.mp (List.mem_of_mem_filter firstMember)
  have secondShort := List.mem_range.mp (List.mem_of_mem_filter secondMember)
  have columns := (wrapped_inj.mp same).1
  omega

theorem spriteCells_nodup (column row : Nat) {sprite : List UInt8} (low : sprite.length ≤ 32) :
    (spriteCells column row sprite).Nodup := by
  induction sprite generalizing row with
  | nil => exact List.nodup_nil
  | cons bits rest induction =>
      rw [List.length_cons] at low
      rw [spriteCells, List.nodup_append]
      refine ⟨rowCells_nodup column row bits, induction (row + 1) (by omega), ?_⟩
      intro first firstMember second secondMember same
      obtain ⟨_, _, _, here⟩ := mem_rowCells.mp firstMember
      obtain ⟨line, within, _, _, _, there⟩ := mem_spriteCells.mp secondMember
      have rows := (wrapped_inj.mp (here.trans (same.trans there.symm))).2
      -- a sprite of at most 32 rows does not come round to its first
      omega

end Cells

namespace Screen

variable (screen : Screen) (x y : UInt8) {sprite : List UInt8}

theorem count_of_low (low : sprite.length ≤ 32) (cell : Cell) :
    (Drawing.cells ⟨x, y, sprite⟩).count cell =
      if Covers x.toNat y.toNat sprite cell then 1 else 0 := by
  have once : (Drawing.cells ⟨x, y, sprite⟩).Nodup := spriteCells_nodup x.toNat y.toNat low
  split
  next covered => exact List.count_eq_one_of_mem once (mem_spriteCells.mpr covered)
  next free => exact List.count_eq_zero_of_not_mem fun member => free (mem_spriteCells.mp member)

theorem lit_draw_of_low (low : sprite.length ≤ 32) (cell : Cell) :
    (screen.draw x y sprite).2.lit cell =
      (screen.lit cell ^^ decide (Covers x.toNat y.toNat sprite cell)) := by
  rw [lit_draw screen ⟨x, y, sprite⟩, count_of_low x y low]
  by_cases covered : Covers x.toNat y.toNat sprite cell
  · simp [Pixel.flipped, covered]
  · simp [Pixel.flipped, covered]

theorem draw_hit_iff_of_low (low : sprite.length ≤ 32) :
    (screen.draw x y sprite).1 = true ↔
      ∃ cell, screen.lit cell = true ∧ (screen.draw x y sprite).2.lit cell = false := by
  rw [draw_hit_iff screen ⟨x, y, sprite⟩]
  apply exists_congr
  intro cell
  rw [lit_draw_of_low screen x y low, count_of_low x y low]
  by_cases covered : Covers x.toNat y.toNat sprite cell
  · cases screen.lit cell <;> simp [Pixel.Struck, covered]
  · simp [Pixel.Struck, covered]

end Screen

end Chip8
