import Encounter.Listeners
import Encounter.Settings
import Encounter.Trigger.Roster
import Encounter.Trigger.Shelf
import Encounter.Trigger.Vocabulary
import Encounter.Turn.Action
import Encounter.Turn.Clock
import Encounter.Turn.Order
import Encounter.World

/-!
# The engine

One engine holds all of one encounter: the world, who listens to what, the triggers with their
roster and owners, the clock, the turn order with its actors, the waiting interruptions, the
vocabulary of records and the dice. Code that others supply is named by values of a type `κ`; what
it does is up to a host.
-/

set_option autoImplicit false

namespace Encounter

/-- What is to be done when an entry of an agenda is due. -/
inductive Task (κ : Type) where
  /-- Run code. -/
  | run (code : κ)
  /-- Emit an event. -/
  | emit (event : String)
  deriving DecidableEq, Repr

/-- A task and the payload it is done with. -/
structure Deferred (κ : Type) where
  task : Task κ
  payload : Payload

/-- All of one encounter. -/
structure Engine (κ : Type) where
  settings : Settings
  world : World
  listeners : Listeners κ
  shelf : Shelf κ
  roster : Roster
  /-- Which entity a trigger is attached to. -/
  owners : Std.ExtTreeMap TriggerId EntityId
  clock : Clock (Deferred κ)
  order : TurnOrder (Deferred κ)
  /-- Who decides for an entity. -/
  actors : Std.ExtTreeMap EntityId κ
  /-- The interruptions that wait, first in first out. -/
  waiting : List (Interruption κ)
  vocabulary : Vocabulary κ
  roller : Roller
  /-- Is there a gamemaster to be alerted? -/
  gamemaster : Bool
  /-- Is there an audio output? -/
  audio : Bool

namespace Engine

variable {κ : Type}

/-- The number of a world that is given none. -/
def defaultWorld : WorldId :=
  ⟨1⟩

/-- The engine of a new encounter in the world of the given number. -/
def new (world : WorldId) (settings : Settings) : Engine κ where
  settings := settings
  world := .new world settings.grid
  listeners := .empty
  shelf := .new
  roster := .empty
  owners := ∅
  clock := .new settings.turnPolicy
  order := .new []
  actors := ∅
  waiting := []
  vocabulary := .builtin
  roller := .new settings.seed
  gamemaster := false
  audio := false

instance : Inhabited (Engine κ) := ⟨new defaultWorld {}⟩

/-- The current turn, for a payload of this engine's world. -/
def turnFor (e : Engine κ) (world : Option WorldId) : Option UInt64 :=
  if world = some e.world.id then some e.clock.turn else none

/-- Puts a task down for `turns` turns from now. -/
def schedule (e : Engine κ) (turns : UInt64) (task : Task κ) (payload : Payload) : Engine κ :=
  { e with clock := e.clock.schedule turns ⟨task, payload⟩ }

/-- Puts a task down for `rounds` rounds after the current one. -/
def scheduleRounds (e : Engine κ) (rounds : UInt64) (task : Task κ) (payload : Payload) :
    Engine κ :=
  { e with order := e.order.schedule rounds ⟨task, payload⟩ }

/-- Damages an entity. -/
def damage (e : Engine κ) (entity : EntityId) (amount : Int64) : Engine κ :=
  { e with world := e.world.modifyEntity entity (·.takeDamage amount) }

/-- The triggers of an entity that listen to an event, in the order in which they were attached. A
firing trigger is off the shelf, so its subscription tells. -/
def triggersFor (e : Engine κ) (entity : EntityId) (event : String) : List TriggerId :=
  match e.world.entity? entity with
  | none => []
  | some owner => owner.triggers.filter fun id =>
    match e.shelf.get? id with
    | some t => t.event = event
    | none => e.shelf.isOut id && e.listeners.isSubscribed event (.trigger id)

/-- Does an entity notice what happens at a position away from where it stands? One without a range
notices everything. -/
def notices (e : Engine κ) (position : Position) (entity : EntityId × Position) : Bool :=
  entity.2 ≠ position &&
    match (e.world.entity? entity.1).bind (·.vision) with
    | none => true
    | some range => e.world.grid.canSee position entity.2 range

/-- Who is served by an event at a position: those who stand there, in the order of their arrival,
and then by number the other placed entities that notice it. -/
def receivers (e : Engine κ) (position : Position) : List EntityId :=
  e.world.entitiesAt position ++ (e.world.placed.filter (e.notices position)).map (·.1)

/-- The position at which an event with this payload is delivered; none if it goes to all
listeners. -/
def deliveryPosition? (e : Engine κ) (p : Payload) : Option Position :=
  if p.world = some e.world.id then p.position else none

end Engine

end Encounter
