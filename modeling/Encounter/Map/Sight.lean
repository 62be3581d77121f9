import Encounter.Map.Grid
import Encounter.Number.Binary64

/-!
# Line of sight

The line between two positions visits one cell for each step along its longer axis. Each coordinate
is interpolated in numbers of the 64-bit binary format, first the product and then the quotient,
and rounded to a whole number, a half going to the even neighbour. A position sees another one
within its range if no cell between the two blocks vision; the two ends do not matter.
-/

set_option autoImplicit false

namespace Encounter.Sight

/-- A number of the binary format rounded to a whole number, a half to the even neighbour. -/
def roundToWhole (number : Nat × Int) : Nat :=
  let (num, den) := Binary64.scale number.1 1 (-number.2)
  roundHalfEven num den

/-- `delta · step / steps` for a whole `delta`, each operation rounded to the binary format, and
the result rounded to a whole number. -/
def interpolate (delta : Int) (step steps : Nat) : Int :=
  let product := Binary64.nearest (delta.natAbs * step) 1
  let magnitude : Int := roundToWhole (Binary64.divRound product (steps, 0))
  if delta < 0 then -magnitude else magnitude

/-- The difference of two coordinates. -/
def delta (a b : Int32) : Int :=
  b.toInt - a.toInt

/-- The length of the line: the steps along its longer axis. -/
def steps (a b : Position) : Nat :=
  max (delta a.x b.x).natAbs (delta a.y b.y).natAbs

/-- The cell of the line that is `step` steps from its start. -/
def cell (a b : Position) (step : Nat) : Position :=
  ⟨Int32.ofInt (a.x.toInt + interpolate (delta a.x b.x) step (steps a b)),
   Int32.ofInt (a.y.toInt + interpolate (delta a.y b.y) step (steps a b))⟩

/-- At most `count` cells of the line, from the given step on, both ends left out. -/
def cellsFrom (a b : Position) (step count : Nat) : List Position :=
  (List.range' step (min count (steps a b - step))).map (cell a b)

/-- The cells of the line strictly between its ends. -/
def line (a b : Position) : List Position :=
  (List.range' 1 (steps a b - 1)).map (cell a b)

/-- Does the predicate hold of `count` cells from the given step on? -/
def allCells (a b : Position) (clear : Position → Bool) : Nat → Nat → Bool
  | _, 0 => true
  | step, count + 1 => clear (cell a b step) && allCells a b clear (step + 1) count

/-- Checking cell by cell is checking the line. -/
theorem allCells_eq_all (a b : Position) (clear : Position → Bool) (step count : Nat) :
    allCells a b clear step count = ((List.range' step count).map (cell a b)).all clear := by
  induction count generalizing step with
  | zero => rfl
  | succ count ih => simp [allCells, ih, List.range'_succ]

/-- Does sight pass over the cell? -/
def isClear (g : Grid) (p : Position) : Bool :=
  match g.tile? p with
  | some tile => !tile.tags.blocksVision
  | none => false

end Sight

/-- Does one who stands at `a` see the position `b` within the range? -/
def Grid.canSee (g : Grid) (a b : Position) (range : UInt32) : Bool :=
  a.manhattan b ≤ range && Sight.allCells a b (Sight.isClear g) 1 (Sight.steps a b - 1)

end Encounter
