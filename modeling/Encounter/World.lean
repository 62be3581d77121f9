import Encounter.Entity
import Encounter.Failure
import Encounter.Map.Sight

/-!
# The world

A world is a grid and the entities in it, each under its own number. A tile lists the entities that
stand on it and an entity knows its position; the operations here keep the two in step. One that is
refused gives no new world.
-/

set_option autoImplicit false

namespace Encounter

/-- A grid and the entities in it. -/
structure World where
  id : WorldId
  grid : Grid
  entities : Std.ExtTreeMap EntityId Entity
  /-- Where the search for a free number starts. -/
  nextId : UInt32

namespace World

/-- A world without entities. -/
def new (id : WorldId) (grid : Grid) : World :=
  ⟨id, grid, ∅, 1⟩

instance : Inhabited World := ⟨new default default⟩

/-- The entity of a number. -/
def entity? (w : World) (id : EntityId) : Option Entity :=
  w.entities[id]?

/-- Changes an entity; an unknown number changes nothing. -/
def modifyEntity (w : World) (id : EntityId) (f : Entity → Entity) : World :=
  { w with entities := w.entities.modify id f }

/-- Changes the grid. -/
def modifyGrid (w : World) (f : Grid → Grid) : World :=
  { w with grid := f w.grid }

/-! ## Numbers -/

/-- Is every number taken? -/
def isFull (w : World) : Bool :=
  UInt32.size ≤ w.entities.size

/-- The first number from `next` on, wrapping around, that nobody has. Among as many numbers as
there are entities and one more there is one, so `tries` need not exceed the number of entities. -/
def freeId (entities : Std.ExtTreeMap EntityId Entity) : Nat → UInt32 → UInt32
  | 0, next => next
  | tries + 1, next =>
    if entities.contains ⟨next⟩ then freeId entities tries (next + 1) else next

/-- Hands out a number that no entity has. -/
def allocate (w : World) : EntityId × World :=
  let id := freeId w.entities w.entities.size w.nextId
  (⟨id⟩, { w with nextId := id + 1 })

/-- Creates an entity that is not placed yet. -/
def spawn (w : World) (name : String) (kind : EntityKind) : EntityId × World :=
  let (id, w) := w.allocate
  (id, { w with entities := w.entities.insert id { id, name, kind } })

/-! ## Placement -/

/-- Adds an entity under its own number, on its tile if it has a position. -/
def insert (w : World) (e : Entity) : Except Failure (EntityId × World) :=
  if w.entities.contains e.id then .error (.duplicateEntity e.id)
  else
    let nextId := if e.id.raw = 0xffffffff then w.nextId else max w.nextId (e.id.raw + 1)
    let entities := w.entities.insert e.id e
    match e.position with
    | none => .ok (e.id, { w with entities, nextId })
    | some p =>
      if w.grid.contains p then
        .ok (e.id, { w with entities, nextId, grid := w.grid.addOccupant p e.id })
      else .error (.invalidPlacement e.name p)

/-- Takes an entity out of the world and off its tile. -/
def remove? (w : World) (id : EntityId) : Option (Entity × World) :=
  match w.entity? id with
  | none => none
  | some e =>
    let grid := match e.position with
      | some p => w.grid.removeOccupant p id
      | none => w.grid
    some (e, { w with entities := w.entities.erase id, grid })

/-- Puts an entity on a tile, off the one it stood on. The tile has to be on the grid. -/
def place (w : World) (id : EntityId) (p : Position) : Except Failure World :=
  match w.entity? id with
  | none => .error (.unknownEntity id)
  | some e =>
    if w.grid.contains p then
      let grid := match e.position with
        | some old => w.grid.removeOccupant old id
        | none => w.grid
      .ok { w with
        entities := w.entities.insert id { e with position := some p }
        grid := grid.addOccupant p id }
    else .error (.invalidPlacement e.name p)

/-- Moves an entity; a move off the grid is refused without being a failure. Tells whether the
entity moved. -/
def move (w : World) (id : EntityId) (p : Position) : Except Failure (Bool × World) :=
  if !w.entities.contains id then .error (.unknownEntity id)
  else if !w.grid.contains p then .ok (false, w)
  else (w.place id p).map fun w => (true, w)

/-! ## Views -/

/-- All entities, by number. -/
def toList (w : World) : List Entity :=
  w.entities.values

/-- The placed entities with their positions, by number. -/
def placed (w : World) : List (EntityId × Position) :=
  w.toList.filterMap fun e => e.position.map fun p => (e.id, p)

/-- The entities on a tile, in the order of their arrival. -/
def entitiesAt (w : World) (p : Position) : List EntityId :=
  w.grid.occupants p

end World

end Encounter
