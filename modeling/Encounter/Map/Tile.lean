import Encounter.Id

/-!
# Tiles

A tile has a terrain, tags that say how it plays, the entities that stand on it in the order of
their arrival, and two free texts.
-/

set_option autoImplicit false

namespace Encounter

/-- What a tile can be tagged with. -/
inductive TileTag where
  | blocksMovement
  | blocksVision
  | startZone
  | trapZone
  deriving DecidableEq, Repr, Inhabited

/-- The tags in the order in which they are listed. -/
def TileTag.all : List TileTag :=
  [.blocksMovement, .blocksVision, .startZone, .trapZone]

/-- The ground of a tile. -/
inductive Terrain where
  | grass
  | water
  | mountain
  | floor
  | wall
  | custom
  deriving DecidableEq, Repr

instance : Inhabited Terrain := ⟨.floor⟩

/-- A set of tags. -/
structure TileTags where
  blocksMovement : Bool := false
  blocksVision : Bool := false
  startZone : Bool := false
  trapZone : Bool := false
  deriving DecidableEq, Repr, Inhabited

namespace TileTags

/-- Is the tag in the set? -/
def has (tags : TileTags) : TileTag → Bool
  | .blocksMovement => tags.blocksMovement
  | .blocksVision => tags.blocksVision
  | .startZone => tags.startZone
  | .trapZone => tags.trapZone

/-- The set with the tag put in or taken out. -/
def set (tags : TileTags) (tag : TileTag) (value : Bool) : TileTags :=
  match tag with
  | .blocksMovement => { tags with blocksMovement := value }
  | .blocksVision => { tags with blocksVision := value }
  | .startZone => { tags with startZone := value }
  | .trapZone => { tags with trapZone := value }

/-- The tags of the set, in the order in which they are listed. -/
def toList (tags : TileTags) : List TileTag :=
  TileTag.all.filter tags.has

theorem has_set (tags : TileTags) (tag other : TileTag) (value : Bool) :
    (tags.set tag value).has other = if other = tag then value else tags.has other := by
  cases tag <;> cases other <;> rfl

end TileTags

/-- One cell of the map. -/
structure Tile where
  terrain : Terrain := .floor
  tags : TileTags := {}
  /-- The entities on the tile, in the order of their arrival. -/
  occupants : List EntityId := []
  note : Option String := none
  userLabel : Option String := none
  deriving DecidableEq, Repr, Inhabited

end Encounter
