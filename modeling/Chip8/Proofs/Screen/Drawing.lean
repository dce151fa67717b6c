import Chip8.Screen

/-!
What drawing does to a pixel. Only the number of times that it is flipped counts: an odd number
inverts it, and it goes from lit to dark on the way if it was lit and is flipped at all, or if it is
flipped twice. Neither depends on the order of the flips, so neither depends on the order of draws.
-/

namespace Chip8

namespace Pixel

def flipped (lit : Bool) (flips : Nat) : Bool := lit ^^ decide (flips % 2 = 1)

/-- A pixel goes from lit to dark at least once in a number of flips. -/
def Struck (lit : Bool) (flips : Nat) : Prop := 0 < flips ∧ 2 ≤ flips + lit.toNat

theorem flipped_add (lit : Bool) (earlier later : Nat) :
    flipped lit (earlier + later) = flipped (flipped lit earlier) later := by
  unfold flipped
  rw [Bool.xor_assoc]
  congr 1
  rcases Nat.mod_two_eq_zero_or_one earlier with first | first <;>
    rcases Nat.mod_two_eq_zero_or_one later with second | second <;>
      simp [Nat.add_mod, first, second]

theorem struck_add (lit : Bool) (earlier later : Nat) :
    Struck lit (earlier + later) ↔ Struck lit earlier ∨ Struck (flipped lit earlier) later := by
  unfold Struck flipped
  rcases Nat.mod_two_eq_zero_or_one earlier with even | odd
  · cases lit <;> simp [even] <;> omega
  · cases lit <;> simp [odd] <;> omega

end Pixel

namespace Cell

theorem exists_index (place : Nat) (inside : place < 2048) :
    ∃ cell : Cell, cell.index = ⟨place, inside⟩ := by
  refine ⟨⟨⟨place % 64, Nat.mod_lt _ (by decide)⟩, ⟨place / 64, by omega⟩⟩, Fin.ext ?_⟩
  exact Nat.div_add_mod' place 64

theorem count_cons (place : Cell) (rest : List Cell) (cell : Cell) :
    (place :: rest).count cell = [place].count cell + rest.count cell := by
  rw [← List.count_append, List.singleton_append]

theorem flipped_once (lit : Bool) (place cell : Cell) :
    Pixel.flipped lit ([place].count cell) = (lit ^^ decide (place = cell)) := by
  by_cases same : place = cell
  · simp [Pixel.flipped, same]
  · simp [Pixel.flipped, same]

theorem struck_once (lit : Bool) (place cell : Cell) :
    Pixel.Struck lit ([place].count cell) ↔ place = cell ∧ lit = true := by
  by_cases same : place = cell
  · cases lit <;> simp [Pixel.Struck, same]
  · simp [Pixel.Struck, same]

end Cell

structure Drawing where
  x : UInt8
  y : UInt8
  sprite : List UInt8
  deriving DecidableEq, Repr

def Drawing.cells (drawing : Drawing) : List Cell :=
  spriteCells drawing.x.toNat drawing.y.toNat drawing.sprite

namespace Screen

def drawAll (screen : Screen) : List Drawing → List Bool × Screen
  | [] => ([], screen)
  | drawing :: rest =>
      let drawn := screen.draw drawing.x drawing.y drawing.sprite
      let others := drawn.2.drawAll rest
      (drawn.1 :: others.1, others.2)

theorem ext_lit {first second : Screen} (pixels : ∀ cell, first.lit cell = second.lit cell)
    (dirty : first.dirty = second.dirty) : first = second := by
  rcases first with ⟨firstPixels, firstDirty⟩
  rcases second with ⟨secondPixels, secondDirty⟩
  have same : firstPixels = secondPixels := by
    ext place inside
    obtain ⟨cell, index⟩ := Cell.exists_index place inside
    have here := pixels cell
    simp only [lit, index] at here
    exact here
  cases same
  cases dirty
  rfl

theorem lit_flipAll (screen : Screen) (cells : List Cell) (cell : Cell) :
    (screen.flipAll cells).2.lit cell = Pixel.flipped (screen.lit cell) (cells.count cell) := by
  rw [flipAll_screen]
  induction cells generalizing screen with
  | nil => simp [Pixel.flipped]
  | cons place rest induction =>
      rw [List.foldl_cons, induction, lit_flip, Cell.count_cons, Pixel.flipped_add,
        Cell.flipped_once]

theorem flipAll_hit_iff (screen : Screen) (cells : List Cell) :
    (screen.flipAll cells).1 = true ↔
      ∃ cell, Pixel.Struck (screen.lit cell) (cells.count cell) := by
  induction cells generalizing screen with
  | nil => simp [flipAll, Pixel.Struck]
  | cons place rest induction =>
      have split : ∀ cell, Pixel.Struck (screen.lit cell) ((place :: rest).count cell) ↔
          place = cell ∧ screen.lit cell = true ∨
            Pixel.Struck ((screen.flip place).lit cell) (rest.count cell) := by
        intro cell
        rw [Cell.count_cons, Pixel.struck_add, Cell.struck_once, Cell.flipped_once, lit_flip]
      simp only [split, exists_or, exists_eq_left']
      rw [flipAll_cons, Bool.or_eq_true, induction]

section Draws

variable (screen : Screen)

theorem lit_draw (drawing : Drawing) (cell : Cell) :
    (screen.draw drawing.x drawing.y drawing.sprite).2.lit cell =
      Pixel.flipped (screen.lit cell) (drawing.cells.count cell) :=
  lit_flipAll screen drawing.cells cell

theorem draw_hit_iff (drawing : Drawing) :
    (screen.draw drawing.x drawing.y drawing.sprite).1 = true ↔
      ∃ cell, Pixel.Struck (screen.lit cell) (drawing.cells.count cell) :=
  flipAll_hit_iff screen drawing.cells

theorem lit_drawAll (draws : List Drawing) (cell : Cell) :
    (screen.drawAll draws).2.lit cell =
      Pixel.flipped (screen.lit cell) ((draws.flatMap Drawing.cells).count cell) := by
  induction draws generalizing screen with
  | nil => simp [drawAll, Pixel.flipped]
  | cons drawing rest induction =>
      rw [drawAll, induction, lit_draw, List.flatMap_cons, List.count_append, Pixel.flipped_add]

theorem drawAll_hit_iff (draws : List Drawing) :
    (screen.drawAll draws).1.any id = true ↔
      ∃ cell, Pixel.Struck (screen.lit cell) ((draws.flatMap Drawing.cells).count cell) := by
  induction draws generalizing screen with
  | nil => simp [drawAll, Pixel.Struck]
  | cons drawing rest induction =>
      rw [drawAll, List.any_cons, id, Bool.or_eq_true, induction, draw_hit_iff, ← exists_or]
      simp only [lit_draw, List.flatMap_cons, List.count_append, Pixel.struck_add]

theorem dirty_drawAll (draws : List Drawing) :
    (screen.drawAll draws).2.dirty = (screen.dirty || !draws.isEmpty) := by
  induction draws generalizing screen with
  | nil => simp [drawAll]
  | cons drawing rest induction =>
      rw [drawAll, induction]
      simp [draw]

end Draws

theorem draws_in_any_order (screen : Screen) (draws others : List Drawing)
    (permuted : draws.Perm others) :
    (screen.drawAll draws).2 = (screen.drawAll others).2 ∧
      (screen.drawAll draws).1.any id = (screen.drawAll others).1.any id := by
  have count : ∀ cell, (draws.flatMap Drawing.cells).count cell =
      (others.flatMap Drawing.cells).count cell :=
    fun cell => (permuted.flatMap_right Drawing.cells).count_eq cell
  refine ⟨?_, ?_⟩
  · apply ext_lit
    · intro cell
      rw [lit_drawAll, lit_drawAll, count]
    · rw [dirty_drawAll, dirty_drawAll, permuted.isEmpty_eq]
  · rw [Bool.eq_iff_iff, drawAll_hit_iff, drawAll_hit_iff]
    simp only [count]

/-- The same two draws in both orders: the collision is always with the later one. -/
theorem later_draw_collides :
    let dot : Drawing := ⟨0, 0, [0x80]⟩
    let bar : Drawing := ⟨0, 0, [0xC0]⟩
    (blank.drawAll [dot, bar]).1 = [false, true] ∧ (blank.drawAll [bar, dot]).1 = [false, true] ∧
      (blank.drawAll [dot, bar]).2 = (blank.drawAll [bar, dot]).2 := by
  intro dot bar
  refine ⟨rfl, rfl, (draws_in_any_order blank [dot, bar] [bar, dot] (.swap bar dot [])).1⟩

end Screen

end Chip8
