import Encounter.Engine.Basic
import Encounter.Trigger.Preset

/-!
# The life of a trigger

A trigger that is registered gets a slot on the shelf, becomes live on the roster and listens to its
event; one that belongs to an entity is on that entity's list too, and the owners name the entity.
The operations here keep these five tables in step. One that is refused gives no new engine.
-/

set_option autoImplicit false

namespace Encounter.Engine

variable {κ : Type}

/-- Makes a trigger live and lets it listen to its event; one that is so already stays as it is. A
firing trigger is left alone. -/
def activate (e : Engine κ) (id : TriggerId) : Engine κ :=
  match e.shelf.get? id with
  | none => e
  | some t => { e with
      roster := e.roster.add id t.head.source
      listeners := (e.listeners.subscribe t.event (.trigger id)).2 }

/-- Puts a trigger on the shelf. -/
def store (e : Engine κ) (t : Trigger κ) : TriggerId × Engine κ :=
  let (id, shelf) := e.shelf.insert t
  (id, { e with shelf })

/-- The world with a trigger put on the list of an entity and taken off the list of another one that
owned it. -/
def handOver (e : Engine κ) (entity : EntityId) (id : TriggerId) : World :=
  let world := e.world.modifyEntity entity (·.attach id)
  match e.owners[id]? with
  | some owner => if owner = entity then world else world.modifyEntity owner (·.detach id)
  | none => world

/-- Gives a trigger to an entity, away from the one that owned it before. -/
def attach (e : Engine κ) (entity : EntityId) (id : TriggerId) : Except Failure (Engine κ) :=
  if !e.shelf.contains id then .error (.unknownTrigger id)
  else if (e.world.entity? entity).isNone then .error (.unknownEntity entity)
  else
    let owned := { e with
      world := e.handOver entity id
      owners := e.owners.insert id entity }
    .ok (owned.activate id)

/-- Registers a trigger of an entity. A trigger without an origin comes from the entity's name. -/
def register (e : Engine κ) (entity : EntityId) (t : Trigger κ) :
    Except Failure (TriggerId × Engine κ) :=
  match e.world.entity? entity with
  | none => .error (.unknownEntity entity)
  | some owner => do
    let source := t.head.source.getD owner.name
    let (id, e) := e.store (t.withSource source)
    let e ← e.attach entity id
    pure (id, e)

/-- Registers a trigger that belongs to nobody; only events without a position reach it. -/
def registerGlobal (e : Engine κ) (t : Trigger κ) : TriggerId × Engine κ :=
  let (id, e) := e.store t
  (id, e.activate id)

/-- Registers several triggers of an entity, in order. -/
def registerAll (e : Engine κ) (entity : EntityId) :
    List (Trigger κ) → Except Failure (List TriggerId × Engine κ)
  | [] => .ok ([], e)
  | t :: rest => do
    let (id, e) ← e.register entity t
    let (ids, e) ← e.registerAll entity rest
    pure (id :: ids, e)

/-- Gives an entity the presets of its kind. -/
def addPresets (e : Engine κ) (entity : EntityId) : Except Failure (List TriggerId × Engine κ) :=
  match e.world.entity? entity with
  | none => .error (.unknownEntity entity)
  | some owner => e.registerAll entity owner.kind.presets

/-- The world with a trigger taken off the list of its owner. -/
def detach (e : Engine κ) (id : TriggerId) : World :=
  match e.owners[id]? with
  | some owner => e.world.modifyEntity owner (·.detach id)
  | none => e.world

/-- Removes a trigger from all tables and gives it back. One that is firing finishes its run; there
is nothing to give back then. -/
def removeTrigger (e : Engine κ) (id : TriggerId) :
    Except Failure (Option (Trigger κ) × Engine κ) :=
  if !e.shelf.contains id then .error (.unknownTrigger id)
  else
    let (t, shelf) := e.shelf.remove id
    .ok (t, { e with
      listeners := e.listeners.unsubscribeAll (.trigger id)
      roster := e.roster.remove id
      world := e.detach id
      owners := e.owners.erase id
      shelf })

/-- Removes those of the triggers that there are. -/
def removeTriggers (e : Engine κ) (ids : List TriggerId) : Engine κ :=
  ids.foldl (fun e id => match e.removeTrigger id with
    | .ok (_, e) => e
    | .error _ => e) e

/-- The triggers of an entity: those on its list, and by number the others that it owns. -/
def triggersOf (e : Engine κ) (entity : EntityId) : List TriggerId :=
  let listed := ((e.world.entity? entity).map (·.triggers)).getD []
  listed ++ (e.owners.toList.filter fun (id, owner) => owner = entity && id ∉ listed).map (·.1)

/-- Takes an entity out of the encounter: out of the world, out of the turn order, and with its
triggers and its actor. -/
def removeEntity (e : Engine κ) (entity : EntityId) : Except Failure (Entity × Engine κ) :=
  let rest := e.removeTriggers (e.triggersOf entity)
  match rest.world.remove? entity with
  | none => .error (.unknownEntity entity)
  | some (removed, world) =>
    .ok (removed, { rest with
      world
      actors := rest.actors.erase entity
      order := rest.order.remove entity })

/-- Removes every live trigger and every subscription. -/
def resetEvents (e : Engine κ) : Engine κ :=
  let e := e.removeTriggers e.roster.toList
  { e with listeners := e.listeners.reset }

end Encounter.Engine
