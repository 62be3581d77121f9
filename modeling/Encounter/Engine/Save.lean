import Encounter.Engine.Lifecycle
import Encounter.Save.Entity
import Encounter.Save.Trigger

/-!
# Saving and loading entities

An entity is saved with its triggers. Loading reads every trigger before anything is created, so a
bad record creates nothing.
-/

set_option autoImplicit false

namespace Encounter.Engine

variable {κ : Type}

/-- Reads the record of a trigger with the vocabulary of the engine. -/
def readTrigger (e : Engine κ) (record : Json) : Except Failure (Trigger κ) :=
  e.vocabulary.readTrigger e.settings.maxChainDepth record

/-- Creates an entity from its record and registers its triggers. Gives the numbers of both. -/
def load (e : Engine κ) (record : Json) : Except Failure ((EntityId × List TriggerId) × Engine κ) :=
  match SavedEntity.read record with
  | .error fault => .error (.malformed "entity" (.fault fault))
  | .ok saved => do
    let triggers ← e.vocabulary.readTriggers e.settings.maxChainDepth saved.triggers
    let (id, world) := e.world.spawn saved.name saved.kind
    let world := world.modifyEntity id fun entity => { entity with stats := saved.stats }
    let (ids, e) ← registerAll { e with world } id triggers
    pure ((id, ids), e)

/-- The records of triggers on the shelf. -/
def saveTriggers (e : Engine κ) : List TriggerId → Except Failure (List Json)
  | [] => .ok []
  | id :: rest =>
    match e.shelf.get? id with
    | none => .error (.unknownTrigger id)
    | some t => do
      let records ← e.saveTriggers rest
      pure (t.toJson :: records)

/-- The record of an entity. An entity with a firing trigger has none. -/
def save (e : Engine κ) (id : EntityId) : Except Failure Json :=
  match e.world.entity? id with
  | none => .error (.unknownEntity id)
  | some entity => do
    let triggers ← e.saveTriggers entity.triggers
    pure (SavedEntity.toJson ⟨entity.name, entity.kind, entity.stats, triggers⟩)

end Encounter.Engine
