/-!
The screen: 64 by 32 pixels, each lit or dark, and a mark that says whether a picture taken
earlier may be out of date. Sprites flip pixels and wrap round both edges.
-/

namespace Chip8

/-- A place on the screen. Columns count from the left and rows from the top. -/
structure Cell where
  column : Fin 64
  row : Fin 32
  deriving DecidableEq, Repr

namespace Cell

def index (cell : Cell) : Fin 2048 :=
  ⟨cell.row.val * 64 + cell.column.val, by omega⟩

theorem index_inj {first second : Cell} : first.index = second.index ↔ first = second := by
  constructor
  · intro same
    rcases first with ⟨⟨column, _⟩, ⟨row, _⟩⟩
    rcases second with ⟨⟨column', _⟩, ⟨row', _⟩⟩
    simp only [index, Fin.mk.injEq] at same
    simp only [mk.injEq, Fin.mk.injEq]
    omega
  · exact congrArg index

def wrapped (column row : Nat) : Cell :=
  ⟨⟨column % 64, Nat.mod_lt _ (by decide)⟩, ⟨row % 32, Nat.mod_lt _ (by decide)⟩⟩

end Cell

/-- The cells that one row of a sprite flips: the highest bit of the byte is at the left. -/
def rowCells (column row : Nat) (bits : UInt8) : List Cell :=
  ((List.range 8).filter fun offset => bits.toNat.testBit (7 - offset)).map fun offset =>
    Cell.wrapped (column + offset) row

/-- The cells that a sprite flips, row by row. A sprite taller than the screen comes round to
cells it has flipped before. -/
def spriteCells (column row : Nat) : List UInt8 → List Cell
  | [] => []
  | bits :: rest => rowCells column row bits ++ spriteCells column (row + 1) rest

structure Screen where
  pixels : Vector Bool 2048
  dirty : Bool
  deriving DecidableEq, Repr

namespace Screen

/-- A new screen has not been shown, so it counts as changed. -/
def blank : Screen where
  pixels := Vector.replicate 2048 false
  dirty := true

def lit (screen : Screen) (cell : Cell) : Bool := screen.pixels[cell.index]

/-- Coordinates off the screen read as dark. -/
def isLit (screen : Screen) (column row : Nat) : Bool :=
  if inside : column < 64 ∧ row < 32 then screen.lit ⟨⟨column, inside.1⟩, ⟨row, inside.2⟩⟩
  else false

def flip (screen : Screen) (cell : Cell) : Screen :=
  { screen with pixels := screen.pixels.set cell.index (!screen.lit cell) }

def flipAll (screen : Screen) (cells : List Cell) : Bool × Screen :=
  cells.foldl (fun (hit, current) cell => (hit || current.lit cell, current.flip cell))
    (false, screen)

/-- The result is the collision: some pixel went from lit to dark. -/
def draw (screen : Screen) (x y : UInt8) (sprite : List UInt8) : Bool × Screen :=
  let flipped := screen.flipAll (spriteCells x.toNat y.toNat sprite)
  (flipped.1, { flipped.2 with dirty := true })

def clear (_ : Screen) : Screen := blank

def takeDirty (screen : Screen) : Bool × Screen :=
  (screen.dirty, { screen with dirty := false })

def litCount (screen : Screen) : Nat := screen.pixels.toList.count true

theorem lit_flip (screen : Screen) (flipped cell : Cell) :
    (screen.flip flipped).lit cell = (screen.lit cell ^^ decide (flipped = cell)) := by
  by_cases same : flipped = cell
  · subst same
    simp [lit, flip]
  · have apart : flipped.index.val ≠ cell.index.val := fun equal =>
      same (Cell.index_inj.mp (Fin.ext equal))
    simp [lit, flip, same, Vector.getElem_set_ne _ _ apart]

/-- The first cell adds its collision, and the others go on from the flipped screen. -/
theorem flipAll_cons (screen : Screen) (cell : Cell) (rest : List Cell) :
    screen.flipAll (cell :: rest) =
      (screen.lit cell || ((screen.flip cell).flipAll rest).1,
        ((screen.flip cell).flipAll rest).2) := by
  -- a collision that is noted before has no influence on what comes later
  have general : ∀ (cells : List Cell) (hit : Bool) (current : Screen),
      cells.foldl (fun (state : Bool × Screen) cell =>
        (state.1 || state.2.lit cell, state.2.flip cell)) (hit, current) =
          (hit || (current.flipAll cells).1, (current.flipAll cells).2) := by
    intro cells
    induction cells with
    | nil => intro hit _; exact Prod.ext (Bool.or_false hit).symm rfl
    | cons cell rest induction =>
        intro hit current
        have others := induction (false || current.lit cell) (current.flip cell)
        rw [flipAll, List.foldl_cons, List.foldl_cons, induction, others, Bool.false_or,
          Bool.or_assoc]
  exact general rest (false || screen.lit cell) (screen.flip cell)

theorem flipAll_screen (screen : Screen) (cells : List Cell) :
    (screen.flipAll cells).2 = cells.foldl flip screen := by
  induction cells generalizing screen with
  | nil => rfl
  | cons cell rest induction => rw [flipAll_cons, List.foldl_cons, induction]

end Screen

end Chip8
