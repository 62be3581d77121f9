import Encounter.Map.Grid

/-!
# Places in 64-bit words

`Grid.contains` and `Grid.place` reckon with whole numbers. Here the same is reckoned in the words
that hold the numbers: coordinates are compared as unsigned 32-bit words once they are known not to
be negative, and the place in the row-by-row order is an unsigned 64-bit word. A product or sum that
leaves the 64 bits has no result.

Tags are put on and taken off in place: the cell is found by its place, and the answer is what was
found there.
-/

set_option autoImplicit false

namespace Encounter

/-- The unsigned 64-bit integer of a value, if there is one. -/
def exactU64? (n : Nat) : Option UInt64 :=
  if n ≤ 0xffffffffffffffff then some (.ofNat n) else none

namespace Grid

/-- How many tiles a grid of that size has. -/
def count? (width height : UInt32) : Option UInt64 :=
  exactU64? (width.toUInt64.toNat * height.toUInt64.toNat)

/-- Is the position on the grid? -/
def isValid (g : Grid) (p : Position) : Bool :=
  0 ≤ p.x && 0 ≤ p.y && p.x.toUInt32 < g.width && p.y.toUInt32 < g.height

/-- The place of a position on the grid in the row-by-row order. -/
def index? (g : Grid) (p : Position) : Option UInt64 :=
  if g.isValid p then do
    let row ← exactU64? (p.y.toInt64.toUInt64.toNat * g.width.toUInt64.toNat)
    exactU64? (row.toNat + p.x.toInt64.toUInt64.toNat)
  else none

/-! ## In place -/

/-- Lends the tile at a position to `f`, which gives an answer and the tile to put back. Without a
cell there is no answer. -/
def lend? {α : Type} (g : Grid) (p : Position) (f : Tile → α × Tile) : Option (α × Grid) :=
  match g.index? p with
  | none => none
  | some i =>
    if h : i.toNat < g.tiles.size then
      let (answer, tile) := f g.tiles[i.toNat]
      some (answer, { g with tiles := g.tiles.set i.toNat tile
                             size_tiles := by rw [Array.size_set, g.size_tiles] })
    else none

/-- Puts a tag on a tile. Tells whether there was a tile to lend. -/
def tagInPlace (g : Grid) (p : Position) (tag : TileTag) : Bool × Grid :=
  match g.lend? p fun tile => ((), { tile with tags := tile.tags.set tag true }) with
  | some (_, g) => (true, g)
  | none => (false, g)

/-- Takes a tag off a tile. Tells whether there was a tile to lend that had it. -/
def untagInPlace (g : Grid) (p : Position) (tag : TileTag) : Bool × Grid :=
  match g.lend? p fun tile =>
    (tile.tags.has tag, { tile with tags := tile.tags.set tag false }) with
  | some (had, g) => (had, g)
  | none => (false, g)

end Grid

end Encounter
