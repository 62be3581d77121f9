import Encounter.Engine.Change

/-!
# Changes in place

The operations that can be refused, carried out on one engine that is rewritten step by step. There
is no old engine to go back to: what the steps before a refusal have done stays done. That they have
done nothing is a theorem, `Change.inPlace_eq_apply`.
-/

set_option autoImplicit false

namespace Encounter

/-- Steps that rewrite an engine. After a refusal it is left as the steps before have made it. -/
abbrev Edit (κ : Type) :=
  EStateM Failure (Engine κ)

namespace Edit

variable {κ α : Type}

/-- Rewrites the world. -/
def onWorld (f : World → World) : Edit κ Unit :=
  modify fun e => { e with world := f e.world }

/-- The entity of a number, or a refusal. -/
def entity (x : EntityId) : Edit κ Entity := do
  match (← get).world.entity? x with
  | some record => pure record
  | none => throw (.unknownEntity x)

/-! ## Entities and tiles -/

/-- Adds an entity that has its number already. -/
def insert (record : Entity) : Edit κ EntityId := do
  if (← get).world.entities.contains record.id then throw (.duplicateEntity record.id)
  match record.position with
  | none => pure ()
  | some p =>
    if !(← get).world.grid.contains p then throw (.invalidPlacement record.name p)
    onWorld (·.modifyGrid (·.addOccupant p record.id))
  if record.id.raw ≠ 0xffffffff then
    onWorld fun w => { w with nextId := max w.nextId (record.id.raw + 1) }
  onWorld fun w => { w with entities := w.entities.insert record.id record }
  pure record.id

/-- Puts an entity on a tile. -/
def place (x : EntityId) (p : Position) : Edit κ Unit := do
  let record ← entity x
  if !(← get).world.grid.contains p then throw (.invalidPlacement record.name p)
  onWorld fun w => { w with entities := w.entities.insert x { record with position := some p } }
  match record.position with
  | some old => onWorld (·.modifyGrid (·.removeOccupant old x))
  | none => pure ()
  onWorld (·.modifyGrid (·.addOccupant p x))

/-- Moves an entity, unless the tile is off the grid. -/
def move (x : EntityId) (p : Position) : Edit κ Bool := do
  if !(← get).world.entities.contains x then throw (.unknownEntity x)
  if !(← get).world.grid.contains p then return false
  place x p
  return true

/-! ## Triggers -/

/-- Gives a trigger to an entity, away from the one that owned it before. -/
def attach (x : EntityId) (id : TriggerId) : Edit κ Unit := do
  if !(← get).shelf.contains id then throw (.unknownTrigger id)
  let _ ← entity x
  onWorld (·.modifyEntity x (·.attach id))
  let previous := (← get).owners[id]?
  modify fun e => { e with owners := e.owners.insert id x }
  match previous with
  | none => pure ()
  | some owner => if owner ≠ x then onWorld (·.modifyEntity owner (·.detach id))
  modify (·.activate id)

/-- Registers a trigger of an entity. -/
def register (x : EntityId) (t : Trigger κ) : Edit κ TriggerId := do
  let owner ← entity x
  let source := t.head.source.getD owner.name
  let id ← modifyGet (·.store (t.withSource source))
  attach x id
  pure id

/-- Registers several triggers of an entity, in order. -/
def registerAll (x : EntityId) : List (Trigger κ) → Edit κ (List TriggerId)
  | [] => pure []
  | t :: rest => do
    let id ← register x t
    let ids ← registerAll x rest
    pure (id :: ids)

/-- Gives an entity the presets of its kind. -/
def addPresets (x : EntityId) : Edit κ (List TriggerId) := do
  let record ← entity x
  registerAll x record.kind.presets

/-- Removes a trigger from all tables and gives it back, unless it is firing. -/
def removeTrigger (id : TriggerId) : Edit κ (Option (Trigger κ)) := do
  if !(← get).shelf.contains id then throw (.unknownTrigger id)
  modify fun e => { e with listeners := e.listeners.unsubscribeAll (.trigger id) }
  modify fun e => { e with roster := e.roster.remove id }
  let owner := (← get).owners[id]?
  modify fun e => { e with owners := e.owners.erase id }
  match owner with
  | none => pure ()
  | some owner => onWorld (·.modifyEntity owner (·.detach id))
  modifyGet fun e => ((e.shelf.remove id).1, { e with shelf := (e.shelf.remove id).2 })

/-- Removes those of the triggers that there are. -/
def removeTriggers : List TriggerId → Edit κ Unit
  | [] => pure ()
  | id :: rest => do
    if (← get).shelf.contains id then
      let _ ← removeTrigger id
    removeTriggers rest

/-- Takes an entity out of the encounter, with its triggers and its actor. -/
def removeEntity (x : EntityId) : Edit κ Entity := do
  let _ ← entity x
  removeTriggers ((← get).triggersOf x)
  modify fun e => { e with actors := e.actors.erase x }
  modify fun e => { e with order := e.order.remove x }
  match (← get).world.remove? x with
  | none => throw (.unknownEntity x)
  | some (removed, world) =>
    onWorld fun _ => world
    pure removed

/-! ## Records and registrations -/

/-- Creates an entity from its record and registers its triggers. -/
def load (record : Json) : Edit κ EntityId := do
  match SavedEntity.read record with
  | .error fault => throw (.malformed "entity" (.fault fault))
  | .ok saved =>
    let e ← get
    match e.vocabulary.readTriggers e.settings.maxChainDepth saved.triggers with
    | .error failure => throw failure
    | .ok triggers =>
      let x ← modifyGet fun e => e.onWorld (e.world.spawn saved.name saved.kind)
      onWorld (·.modifyEntity x fun entity => { entity with stats := saved.stats })
      let _ ← registerAll x triggers
      pure x

/-- Rewrites the vocabulary, if that is not refused. -/
def onVocabulary (f : Vocabulary κ → Except Failure (α × Vocabulary κ)) : Edit κ α := do
  match f (← get).vocabulary with
  | .error failure => throw failure
  | .ok (a, vocabulary) =>
    modify fun e => { e with vocabulary }
    pure a

end Edit

/-- The answer to an operation carried out in place, and what becomes of the engine. -/
def Engine.afterEdit {κ α : Type} (e : Engine κ) (edit : Edit κ α) : Except Failure α × Engine κ :=
  match edit e with
  | .ok a e => (.ok a, e)
  | .error failure e => (.error failure, e)

/-- What the engine answers to a change that is carried out in place, and what becomes of it. The
changes that cannot be refused are made at once. -/
def Change.inPlace {κ α : Type} (change : Change κ α) (e : Engine κ) : α × Engine κ :=
  match change with
  | insert record => e.afterEdit (Edit.insert record)
  | place entity position => e.afterEdit (Edit.place entity position)
  | move entity position => e.afterEdit (Edit.move entity position)
  | removeEntity entity => e.afterEdit (Edit.removeEntity entity)
  | register entity trigger => e.afterEdit (Edit.register entity trigger)
  | attach entity trigger => e.afterEdit (Edit.attach entity trigger)
  | removeTrigger trigger => e.afterEdit (Edit.removeTrigger trigger)
  | addPresets entity => e.afterEdit (Edit.addPresets entity)
  | load record => e.afterEdit (Edit.load record)
  | addConditionType tag maker => e.afterEdit <| Edit.onVocabulary fun v =>
    (v.conditions.register tag maker).map fun conditions => ((), { v with conditions })
  | addReactionType tag maker => e.afterEdit <| Edit.onVocabulary fun v =>
    (v.reactions.register tag maker).map fun reactions => ((), { v with reactions })
  | nameCondition name code => e.afterEdit <| Edit.onVocabulary fun v =>
    (v.functions.addCondition name code).map fun (c, functions) => (c, { v with functions })
  | nameReaction name code => e.afterEdit <| Edit.onVocabulary fun v =>
    (v.functions.addReaction name code).map fun (r, functions) => (r, { v with functions })
  | change => change.apply e

/-- Is the answer a refusal? A move that is not made is one too. -/
def Change.refuses {κ α : Type} : Change κ α → α → Bool
  | .insert _, answer => !answer.isOk
  | .place _ _, answer => !answer.isOk
  | .move _ _, .ok moved => !moved
  | .move _ _, .error _ => true
  | .removeEntity _, answer => !answer.isOk
  | .register _ _, answer => !answer.isOk
  | .attach _ _, answer => !answer.isOk
  | .removeTrigger _, answer => !answer.isOk
  | .addPresets _, answer => !answer.isOk
  | .load _, answer => !answer.isOk
  | .addConditionType _ _, answer => !answer.isOk
  | .addReactionType _ _, answer => !answer.isOk
  | .nameCondition _ _, answer => !answer.isOk
  | .nameReaction _ _, answer => !answer.isOk
  | _, _ => false

end Encounter
