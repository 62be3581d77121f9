import Encounter.Map.Tile
import Encounter.Position

/-!
# The grid

A grid is a rectangle of tiles, kept row by row. Positions off the grid have no tile: they carry no
tag, hold nobody, and nothing walks onto them. Neighbours are the four sides of a square or the six
sides of a hexagon.
-/

set_option autoImplicit false

namespace Encounter

/-- Which cells are neighbours. -/
inductive GridKind where
  | square
  | hex
  deriving DecidableEq, Repr, Inhabited

/-- The steps to the neighbours of a cell, in the order in which they are listed. -/
def GridKind.neighbourSteps : GridKind → List (Int × Int)
  | .square => [(0, -1), (0, 1), (-1, 0), (1, 0)]
  | .hex => [(1, 0), (-1, 0), (0, -1), (0, 1), (-1, 1), (1, -1)]

/-- A rectangle of tiles, row by row. -/
structure Grid where
  width : UInt32
  height : UInt32
  kind : GridKind
  tiles : Array Tile
  size_tiles : tiles.size = width.toNat * height.toNat
  deriving DecidableEq

namespace Grid

/-- A grid of plain floor. -/
def new (width height : UInt32) (kind : GridKind) : Grid where
  width := width
  height := height
  kind := kind
  tiles := Array.replicate (width.toNat * height.toNat) {}
  size_tiles := Array.size_replicate

instance : Inhabited Grid := ⟨new 0 0 .square⟩

/-- Is the position on the grid? -/
def contains (g : Grid) (p : Position) : Bool :=
  0 ≤ p.x.toInt ∧ 0 ≤ p.y.toInt ∧ p.x.toInt < g.width.toNat ∧ p.y.toInt < g.height.toNat

/-- The place of a position in the row-by-row order; a number below the size for a position on the
grid. -/
def place (g : Grid) (p : Position) : Nat :=
  p.y.toInt.toNat * g.width.toNat + p.x.toInt.toNat

/-- The tile at a position. -/
def tile? (g : Grid) (p : Position) : Option Tile :=
  if g.contains p then g.tiles[g.place p]? else none

/-- Changes the tile at a position; a position off the grid has none to change. -/
def modifyTile (g : Grid) (p : Position) (f : Tile → Tile) : Grid :=
  if g.contains p then
    { g with tiles := g.tiles.modify (g.place p) f
             size_tiles := by rw [Array.size_modify, g.size_tiles] }
  else g

/-! ## Tags -/

/-- Does the tile at the position carry the tag? -/
def hasTag (g : Grid) (p : Position) (tag : TileTag) : Bool :=
  match g.tile? p with
  | some tile => tile.tags.has tag
  | none => false

/-- Puts a tag on a tile. Tells whether there is such a tile. -/
def addTag (g : Grid) (p : Position) (tag : TileTag) : Bool × Grid :=
  (g.contains p, g.modifyTile p fun tile => { tile with tags := tile.tags.set tag true })

/-- Takes a tag off a tile. Tells whether the tile had it. -/
def removeTag (g : Grid) (p : Position) (tag : TileTag) : Bool × Grid :=
  (g.hasTag p tag, g.modifyTile p fun tile => { tile with tags := tile.tags.set tag false })

/-- Can nothing walk onto the position? -/
def blocksMovement (g : Grid) (p : Position) : Bool :=
  match g.tile? p with
  | some tile => tile.tags.blocksMovement
  | none => true

/-! ## Neighbours -/

/-- The position a step away, if its coordinates are in range. -/
def stepFrom? (p : Position) (step : Int × Int) : Option Position :=
  let x := p.x.toInt + step.1
  let y := p.y.toInt + step.2
  if -0x80000000 ≤ x ∧ x < 0x80000000 ∧ -0x80000000 ≤ y ∧ y < 0x80000000 then
    some ⟨Int32.ofInt x, Int32.ofInt y⟩
  else none

/-- The neighbours of a position that are on the grid. -/
def adjacent (g : Grid) (p : Position) : List Position :=
  (g.kind.neighbourSteps.filterMap (stepFrom? p)).filter g.contains

/-! ## Occupants -/

/-- The entities on a tile, in the order of their arrival. -/
def occupants (g : Grid) (p : Position) : List EntityId :=
  match g.tile? p with
  | some tile => tile.occupants
  | none => []

/-- Puts an entity on a tile, behind those that are there; one that is there already keeps its
place. -/
def addOccupant (g : Grid) (p : Position) (entity : EntityId) : Grid :=
  g.modifyTile p fun tile =>
    if entity ∈ tile.occupants then tile
    else { tile with occupants := tile.occupants ++ [entity] }

/-- Takes an entity off a tile. -/
def removeOccupant (g : Grid) (p : Position) (entity : EntityId) : Grid :=
  g.modifyTile p fun tile =>
    { tile with occupants := tile.occupants.filter (· ≠ entity) }

end Grid

end Encounter
