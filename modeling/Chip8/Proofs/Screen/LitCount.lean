import Chip8.Proofs.Screen.Drawing
import Mathlib.Algebra.GroupWithZero.Nat

/-!
The number of lit pixels as the balance of a run of flips: a flip that finds its pixel dark adds
one, a flip that finds it lit takes one away. A draw therefore collides exactly if the number grows
by less than the set bits of the sprite, whether a pixel was lit before or the sprite meets itself.
-/

namespace Chip8

def setBits (sprite : List UInt8) : Nat :=
  (sprite.map fun bits => (List.range 8).countP bits.toNat.testBit).sum

namespace Cell

variable (column row : Nat)

/-- The columns of a row run against the places of the bits, which leaves their number alone. -/
theorem length_rowCells (bits : UInt8) :
    (rowCells column row bits).length = (List.range 8).countP bits.toNat.testBit := by
  have mirrored : (List.range 8).map (7 - ·) = (List.range 8).reverse := by decide
  calc (rowCells column row bits).length
      = (List.range 8).countP (bits.toNat.testBit ∘ (7 - ·)) := by
        rw [rowCells, List.length_map, ← List.countP_eq_length_filter]
        rfl
    _ = (List.range 8).reverse.countP bits.toNat.testBit := by rw [← List.countP_map, mirrored]
    _ = (List.range 8).countP bits.toNat.testBit := List.countP_reverse

theorem length_spriteCells (sprite : List UInt8) :
    (spriteCells column row sprite).length = setBits sprite := by
  induction sprite generalizing row with
  | nil => rfl
  | cons bits rest induction =>
      rw [spriteCells, List.length_append, length_rowCells, induction, setBits, setBits,
        List.map_cons, List.sum_cons]

end Cell

namespace Screen

/-- How many flips of a list, made in order, find their cell lit and turn it off. -/
def quenched (screen : Screen) : List Cell → Nat
  | [] => 0
  | cell :: rest => (screen.lit cell).toNat + (screen.flip cell).quenched rest

def quenchedByAll (screen : Screen) : List Drawing → Nat
  | [] => 0
  | drawing :: rest =>
      screen.quenched drawing.cells +
        (screen.draw drawing.x drawing.y drawing.sprite).2.quenchedByAll rest

section Flips

variable (screen : Screen)

/-- One flip changes the number of lit cells by one, up or down as the cell was dark or lit. -/
theorem litCount_flip (cell : Cell) :
    (screen.flip cell).litCount + 2 * (screen.lit cell).toNat = screen.litCount + 1 := by
  have inside : cell.index.val < screen.pixels.toList.length := by simp
  have here : screen.pixels.toList[cell.index.val] = screen.lit cell := by simp [lit]
  have counted : (screen.flip cell).litCount = screen.litCount -
      (if screen.lit cell = true then 1 else 0) + if screen.lit cell = false then 1 else 0 := by
    simp only [litCount, flip, Vector.toList_set]
    rw [List.count_set inside, here]
    simp
  cases state : screen.lit cell with
  | false => simp [counted, state]
  | true =>
      -- The count cannot have stopped at zero: the cell that goes out is one of those counted.
      have member : true ∈ screen.pixels.toList := by
        rw [← state, ← here]
        exact List.getElem_mem inside
      have positive : 0 < screen.litCount := List.count_pos_iff.mpr member
      have spent : (screen.flip cell).litCount = screen.litCount - 1 := by simp [counted, state]
      rw [spent, Bool.toNat_true]
      omega

theorem litCount_flipAll (cells : List Cell) :
    (screen.flipAll cells).2.litCount + 2 * screen.quenched cells =
      screen.litCount + cells.length := by
  rw [flipAll_screen]
  induction cells generalizing screen with
  | nil => rfl
  | cons cell rest induction =>
      have first := litCount_flip screen cell
      have others := induction (screen.flip cell)
      rw [List.foldl_cons, quenched, List.length_cons]
      omega

theorem flipAll_misses_iff (cells : List Cell) :
    (screen.flipAll cells).1 = false ↔ screen.quenched cells = 0 := by
  induction cells generalizing screen with
  | nil => exact ⟨fun _ => rfl, fun _ => rfl⟩
  | cons cell rest induction =>
      rw [flipAll_cons, Bool.or_eq_false_iff, induction, quenched, Nat.add_eq_zero_iff,
        Bool.toNat_eq_zero]

end Flips

section Draws

variable (screen : Screen)

theorem litCount_draw (drawing : Drawing) :
    (screen.draw drawing.x drawing.y drawing.sprite).2.litCount +
        2 * screen.quenched drawing.cells = screen.litCount + setBits drawing.sprite := by
  rw [← Cell.length_spriteCells drawing.x.toNat drawing.y.toNat]
  exact litCount_flipAll screen drawing.cells

theorem draw_misses_iff (drawing : Drawing) :
    (screen.draw drawing.x drawing.y drawing.sprite).1 = false ↔
      screen.quenched drawing.cells = 0 :=
  flipAll_misses_iff screen drawing.cells

theorem litCount_drawAll (draws : List Drawing) :
    (screen.drawAll draws).2.litCount + 2 * screen.quenchedByAll draws =
      screen.litCount + (draws.map fun drawing => setBits drawing.sprite).sum := by
  induction draws generalizing screen with
  | nil => rfl
  | cons drawing rest induction =>
      have first := litCount_draw screen drawing
      have others := induction (screen.draw drawing.x drawing.y drawing.sprite).2
      simp only [drawAll, quenchedByAll, List.map_cons, List.sum_cons]
      omega

theorem drawAll_misses_iff (draws : List Drawing) :
    (∀ hit ∈ (screen.drawAll draws).1, hit = false) ↔ screen.quenchedByAll draws = 0 := by
  induction draws generalizing screen with
  | nil => simp [drawAll, quenchedByAll]
  | cons drawing rest induction =>
      rw [drawAll, List.forall_mem_cons, induction, draw_misses_iff, quenchedByAll,
        Nat.add_eq_zero_iff]

theorem litCount_of_dark (dark : ∀ cell, screen.lit cell = false) : screen.litCount = 0 := by
  refine List.count_eq_zero.mpr fun member => ?_
  obtain ⟨place, inside, found⟩ := List.getElem_of_mem member
  obtain ⟨cell, index⟩ := Cell.exists_index place (by simpa using inside)
  have here : screen.lit cell = true := by simpa [lit, index] using found
  rw [dark cell] at here
  cases here

end Draws

/-- The lit pixels after a draw are those before it and the set bits of the sprite, less two for
every flip that turned one off, so their number alone tells whether a draw has collided. Over a list
of draws it tells whether any has, and on a dark screen it need not be known before. -/
theorem lit_count_accounts_for_collisions (screen : Screen) :
    (∀ (x y : UInt8) (sprite : List UInt8),
      let drawn := screen.draw x y sprite
      drawn.2.litCount + 2 * screen.quenched (spriteCells x.toNat y.toNat sprite) =
        screen.litCount + setBits sprite ∧
      (drawn.1 = false ↔ drawn.2.litCount = screen.litCount + setBits sprite)) ∧
    ∀ draws : List Drawing,
      let drawn := screen.drawAll draws
      let total := (draws.map fun drawing => setBits drawing.sprite).sum
      ((∀ hit ∈ drawn.1, hit = false) ↔ drawn.2.litCount = screen.litCount + total) ∧
      ((∀ cell, screen.lit cell = false) →
        ((∀ hit ∈ drawn.1, hit = false) ↔ drawn.2.litCount = total)) := by
  refine ⟨?_, ?_⟩
  · intro x y sprite drawn
    have balance : drawn.2.litCount + 2 * screen.quenched (spriteCells x.toNat y.toNat sprite) =
        screen.litCount + setBits sprite := litCount_draw screen ⟨x, y, sprite⟩
    refine ⟨balance, (draw_misses_iff screen ⟨x, y, sprite⟩).trans ?_⟩
    simp only [Drawing.cells]
    omega
  · intro draws drawn total
    have balance : drawn.2.litCount + 2 * screen.quenchedByAll draws =
        screen.litCount + total := litCount_drawAll screen draws
    have grown : (∀ hit ∈ drawn.1, hit = false) ↔
        drawn.2.litCount = screen.litCount + total := by
      rw [drawAll_misses_iff]
      omega
    refine ⟨grown, fun dark => ?_⟩
    rw [grown, litCount_of_dark screen dark, Nat.zero_add]

/-- Two sprites that lie side by side round the right edge, and a count of three without looking at
a single pixel. -/
theorem neighbours_across_the_edge_are_all_lit :
    let draws : List Drawing := [⟨63, 31, [0xC0]⟩, ⟨1, 31, [0x80]⟩]
    let drawn := blank.drawAll draws
    (∀ cell, blank.lit cell = false) ∧ drawn.1 = [false, false] ∧ drawn.2.litCount = 3 := by
  intro draws
  have dark : ∀ cell, blank.lit cell = false := by simp [blank, lit]
  have apart : (blank.drawAll draws).1 = [false, false] := by decide +kernel
  have missed : ∀ hit ∈ (blank.drawAll draws).1, hit = false := by simp [apart]
  have total : (draws.map fun drawing => setBits drawing.sprite).sum = 3 := by decide
  obtain ⟨_, overAll⟩ := lit_count_accounts_for_collisions blank
  exact ⟨dark, apart, (((overAll draws).2 dark).mp missed).trans total⟩

end Screen

end Chip8
