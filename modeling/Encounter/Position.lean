import Encounter.Number.Saturation

/-!
# Positions

A position is a pair of signed 32-bit coordinates; the grid decides which of them are on the map.
Distances and offsets stop at the limits of their width.
-/

set_option autoImplicit false

namespace Encounter

/-- A coordinate pair. -/
structure Position where
  x : Int32
  y : Int32
  deriving DecidableEq, Repr, Inhabited

namespace Position

/-- The steps along the axes from one position to another. -/
def distance (a b : Position) : Nat :=
  (a.x.toInt - b.x.toInt).natAbs + (a.y.toInt - b.y.toInt).natAbs

/-- The distance along the axes, at most `2 ^ 32 - 1`. -/
def manhattan (a b : Position) : UInt32 :=
  saturateU32 (a.distance b)

/-- The position moved by a step, stopping at the limits of the coordinates. -/
def offset (p : Position) (dx dy : Int32) : Position :=
  ⟨saturate32 (p.x.toInt + dx.toInt), saturate32 (p.y.toInt + dy.toInt)⟩

/-- Does `a` come before `b`, by `x` and then by `y`? -/
def precedes (a b : Position) : Bool :=
  a.x < b.x ∨ (a.x = b.x ∧ a.y < b.y)

/-- The text of a position. -/
def text (p : Position) : String :=
  "(" ++ toString p.x ++ "," ++ toString p.y ++ ")"

end Position

end Encounter
