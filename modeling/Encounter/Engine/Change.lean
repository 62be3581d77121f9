import Encounter.Engine.Save

/-!
# Changes

All that can be done to an engine in one step, without running any code. `Change.apply` says how
the engine answers and what becomes of it; a change that is refused leaves the engine as it was.
-/

set_option autoImplicit false

namespace Encounter

/-- A change of an engine that is answered with an `α`. -/
inductive Change (κ : Type) : Type → Type where
  /-- Hands out a number for an entity. -/
  | allocate : Change κ EntityId
  /-- Creates an entity. -/
  | spawn (name : String) (kind : EntityKind) : Change κ EntityId
  /-- Adds an entity that has its number already. -/
  | insert (record : Entity) : Change κ (Except Failure EntityId)
  /-- Rewrites an entity. -/
  | edit (entity : EntityId) (f : Entity → Entity) : Change κ Unit
  /-- Damages an entity. -/
  | damage (entity : EntityId) (amount : Int64) : Change κ Unit
  /-- Puts an entity on a tile. -/
  | place (entity : EntityId) (position : Position) : Change κ (Except Failure Unit)
  /-- Moves an entity, unless the tile is off the grid. -/
  | move (entity : EntityId) (goal : Position) : Change κ (Except Failure Bool)
  /-- Takes an entity out of the encounter. -/
  | removeEntity (entity : EntityId) : Change κ (Except Failure Entity)
  /-- Puts a tag on a tile. -/
  | addTag (position : Position) (tag : TileTag) : Change κ Bool
  /-- Takes a tag off a tile. -/
  | removeTag (position : Position) (tag : TileTag) : Change κ Bool
  /-- Rewrites a tile. -/
  | editTile (position : Position) (f : Tile → Tile) : Change κ Unit
  /-- Registers a trigger of an entity. -/
  | register (entity : EntityId) (trigger : Trigger κ) : Change κ (Except Failure TriggerId)
  /-- Registers a trigger that belongs to nobody. -/
  | registerGlobal (trigger : Trigger κ) : Change κ TriggerId
  /-- Gives a trigger to an entity. -/
  | attach (entity : EntityId) (trigger : TriggerId) : Change κ (Except Failure Unit)
  /-- Removes a trigger. -/
  | removeTrigger (trigger : TriggerId) : Change κ (Except Failure (Option (Trigger κ)))
  /-- Rewrites a trigger, unless it is firing. -/
  | editTrigger (trigger : TriggerId) (f : Trigger κ → Trigger κ) : Change κ Unit
  /-- Gives an entity the presets of its kind. -/
  | addPresets (entity : EntityId) : Change κ (Except Failure (List TriggerId))
  /-- Creates an entity from its record. -/
  | load (record : Json) : Change κ (Except Failure EntityId)
  /-- Removes every live trigger and every subscription. -/
  | resetEvents : Change κ Unit
  /-- Adds a maker of conditions. -/
  | addConditionType (tag : String) (maker : Maker (Condition κ)) : Change κ (Except Failure Unit)
  /-- Adds a maker of reactions. -/
  | addReactionType (tag : String) (maker : Maker (Reaction κ)) : Change κ (Except Failure Unit)
  /-- Names the code of a condition. -/
  | nameCondition (name : String) (code : κ) : Change κ (Except Failure (Condition κ))
  /-- Names the code of a reaction. -/
  | nameReaction (name : String) (code : κ) : Change κ (Except Failure (Reaction κ))
  /-- Stores the code of a handler. -/
  | addHandler (code : κ) : Change κ HandlerId
  /-- Drops a handler and its subscriptions. -/
  | removeHandler (handler : HandlerId) : Change κ Unit
  /-- Subscribes a handler to an event. -/
  | subscribe (event : String) (handler : HandlerId) : Change κ Bool
  /-- Ends the subscription of a handler to an event. -/
  | unsubscribe (event : String) (handler : HandlerId) : Change κ Unit
  /-- Puts a task down for some turns from now. -/
  | schedule (turns : UInt64) (task : Task κ) (payload : Payload) : Change κ Unit
  /-- Puts a task down for some rounds after the current one. -/
  | scheduleRounds (rounds : UInt64) (task : Task κ) (payload : Payload) : Change κ Unit
  /-- Replaces the participants of the turn order. -/
  | setOrder (participants : List EntityId) : Change κ Unit
  /-- Lets code decide for an entity. -/
  | setActor (entity : EntityId) (code : κ) : Change κ Unit
  /-- Lets nobody decide for an entity. -/
  | removeActor (entity : EntityId) : Change κ Unit
  /-- Puts an interruption behind those that wait. -/
  | enqueue (interruption : Interruption κ) : Change κ Unit
  /-- Takes out the interruption that has waited longest. -/
  | dequeue : Change κ (Option (Interruption κ))
  /-- Rolls a die. -/
  | rollDie (sides : UInt32) : Change κ Int64
  /-- Rolls a die of twenty sides. -/
  | rollD20 (mode : RollMode) : Change κ Int64
  /-- Rolls dice. -/
  | rollDice (dice : Dice) : Change κ Int64
  /-- Continues from a saved state of the dice. -/
  | restoreDice (state : RollerState) : Change κ Unit
  /-- Says whether there is a gamemaster. -/
  | setGamemaster (present : Bool) : Change κ Unit
  /-- Says whether there is an audio output. -/
  | setAudio (present : Bool) : Change κ Unit

namespace Engine

variable {κ α : Type}

/-- The answer to a change that can be refused. A refused one gives no new engine, and the old one
stays. -/
def orRefuse (e : Engine κ) : Except Failure (α × Engine κ) → Except Failure α × Engine κ
  | .ok (a, e) => (.ok a, e)
  | .error failure => (.error failure, e)

/-- Puts an operation on the world to work in the engine. -/
def onWorld (e : Engine κ) (result : α × World) : α × Engine κ :=
  (result.1, { e with world := result.2 })

/-- Puts an operation on the world that can be refused to work in the engine. -/
def onWorldOrRefuse (e : Engine κ) (result : Except Failure (α × World)) :
    Except Failure α × Engine κ :=
  e.orRefuse (result.map e.onWorld)

/-- Puts an operation on the grid to work in the engine. -/
def onGrid (e : Engine κ) (result : α × Grid) : α × Engine κ :=
  e.onWorld (result.1, { e.world with grid := result.2 })

/-- Puts a roll to work in the engine. -/
def onRoller (e : Engine κ) (result : α × Roller) : α × Engine κ :=
  (result.1, { e with roller := result.2 })

/-- Puts a new table of functions to work in the engine. -/
def onFunctions (e : Engine κ) (result : α × Functions κ) : α × Engine κ :=
  (result.1, { e with vocabulary := { e.vocabulary with functions := result.2 } })

/-- Puts new listeners to work in the engine. -/
def onListeners (e : Engine κ) (result : α × Listeners κ) : α × Engine κ :=
  (result.1, { e with listeners := result.2 })

/-- Takes out the interruption that has waited longest. -/
def dequeue (e : Engine κ) : Option (Interruption κ) × Engine κ :=
  match e.waiting with
  | [] => (none, e)
  | first :: waiting => (some first, { e with waiting })

end Engine

open Engine in
/-- What the engine answers to a change, and what becomes of it. -/
def Change.apply {κ α : Type} (change : Change κ α) (e : Engine κ) : α × Engine κ :=
  match change with
  | allocate => e.onWorld e.world.allocate
  | spawn name kind => e.onWorld (e.world.spawn name kind)
  | insert record => e.onWorldOrRefuse (e.world.insert record)
  | edit entity f => ((), { e with world := e.world.modifyEntity entity f })
  | damage entity amount => ((), e.damage entity amount)
  | place entity position => e.onWorldOrRefuse ((e.world.place entity position).map ((), ·))
  | move entity position => e.onWorldOrRefuse (e.world.move entity position)
  | removeEntity entity => e.orRefuse (e.removeEntity entity)
  | addTag position tag => e.onGrid (e.world.grid.addTag position tag)
  | removeTag position tag => e.onGrid (e.world.grid.removeTag position tag)
  | editTile position f => e.onGrid ((), e.world.grid.modifyTile position f)
  | register entity trigger => e.orRefuse (e.register entity trigger)
  | registerGlobal trigger => e.registerGlobal trigger
  | attach entity trigger => e.orRefuse ((e.attach entity trigger).map ((), ·))
  | removeTrigger trigger => e.orRefuse (e.removeTrigger trigger)
  | editTrigger trigger f => ((), { e with shelf := e.shelf.modify trigger f })
  | addPresets entity => e.orRefuse (e.addPresets entity)
  | load record => e.orRefuse ((e.load record).map fun ((entity, _), e) => (entity, e))
  | resetEvents => ((), e.resetEvents)
  | addConditionType tag maker =>
    e.orRefuse ((e.vocabulary.conditions.register tag maker).map fun conditions =>
      ((), { e with vocabulary := { e.vocabulary with conditions } }))
  | addReactionType tag maker =>
    e.orRefuse ((e.vocabulary.reactions.register tag maker).map fun reactions =>
      ((), { e with vocabulary := { e.vocabulary with reactions } }))
  | nameCondition name code =>
    e.orRefuse ((e.vocabulary.functions.addCondition name code).map e.onFunctions)
  | nameReaction name code =>
    e.orRefuse ((e.vocabulary.functions.addReaction name code).map e.onFunctions)
  | addHandler code => e.onListeners (e.listeners.addHandler code)
  | removeHandler handler => e.onListeners ((), e.listeners.removeHandler handler)
  | subscribe event handler => e.onListeners (e.listeners.subscribe event (.handler handler))
  | unsubscribe event handler =>
    e.onListeners ((), e.listeners.unsubscribe event (.handler handler))
  | schedule turns task payload => ((), e.schedule turns task payload)
  | scheduleRounds rounds task payload => ((), e.scheduleRounds rounds task payload)
  | setOrder participants => ((), { e with order := e.order.setParticipants participants })
  | setActor entity code => ((), { e with actors := e.actors.insert entity code })
  | removeActor entity => ((), { e with actors := e.actors.erase entity })
  | enqueue interruption => ((), { e with waiting := e.waiting ++ [interruption] })
  | dequeue => e.dequeue
  | rollDie sides => e.onRoller (e.roller.rollDie sides)
  | rollD20 mode => e.onRoller (e.roller.rollD20 mode)
  | rollDice dice => e.onRoller (dice.roll e.roller)
  | restoreDice state => ((), { e with roller := .ofState state })
  | setGamemaster gamemaster => ((), { e with gamemaster })
  | setAudio audio => ((), { e with audio })

end Encounter
