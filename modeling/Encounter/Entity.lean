import Encounter.Id
import Encounter.Position

/-!
# Entities

An entity is anyone or anything on the map: its name and kind, where it is, how far it notices
events, its hit points, its skill modifiers and the triggers that it carries.
-/

set_option autoImplicit false

namespace Encounter

/-- Broad categories of entities. -/
inductive EntityKind where
  | player
  | npc
  | enemy
  | trap
  | object
  deriving DecidableEq, Repr, Inhabited

/-- Each kind under its name. -/
def EntityKind.names : List (String × EntityKind) :=
  [("player", .player), ("npc", .npc), ("enemy", .enemy), ("trap", .trap), ("object", .object)]

/-- The name of a kind. -/
def EntityKind.name : EntityKind → String
  | .player => "player"
  | .npc => "npc"
  | .enemy => "enemy"
  | .trap => "trap"
  | .object => "object"

/-- Hit points. -/
structure Vitals where
  current : Int64
  maximum : Int64
  deriving DecidableEq, Repr, Inhabited

/-- Full health. -/
def Vitals.full (maximum : Int64) : Vitals :=
  ⟨maximum, maximum⟩

/-- Is the owner still standing? -/
def Vitals.isAlive (v : Vitals) : Bool :=
  0 < v.current

/-- Takes damage off the current hit points, which never end below zero. -/
def Vitals.damage (v : Vitals) (amount : Int64) : Vitals :=
  { v with current := max 0 (saturate64 (v.current.toInt - amount.toInt)) }

/-- Skill modifiers by name. -/
abbrev Stats := Std.ExtTreeMap String Int64

/-- Someone or something on the map. -/
structure Entity where
  id : EntityId
  name : String
  kind : EntityKind
  /-- Where the entity stands, once it is placed. -/
  position : Option Position := none
  /-- How far the entity notices events; without a limit it notices all. -/
  vision : Option UInt32 := none
  /-- Hit points; an entity without them takes no damage. -/
  vitals : Option Vitals := none
  stats : Stats := ∅
  /-- The triggers of the entity, in the order in which they were attached. -/
  triggers : List TriggerId := []
  deriving DecidableEq, Repr, Inhabited

namespace Entity

/-- Can the entity take damage? -/
def hasVitals (e : Entity) : Bool :=
  e.vitals.isSome

/-- Damages the entity; one without hit points stays as it is. -/
def takeDamage (e : Entity) (amount : Int64) : Entity :=
  { e with vitals := e.vitals.map (·.damage amount) }

/-- Adds a trigger behind the others, unless the entity has it. -/
def attach (e : Entity) (id : TriggerId) : Entity :=
  if id ∈ e.triggers then e else { e with triggers := e.triggers ++ [id] }

/-- Takes a trigger off the entity. -/
def detach (e : Entity) (id : TriggerId) : Entity :=
  { e with triggers := e.triggers.filter (· ≠ id) }

end Entity

end Encounter
