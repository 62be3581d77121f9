import Encounter.Save.Plain

/-!
# Records of entities

What a saved game keeps of an entity: its name, its kind, its skill modifiers and the records of
its triggers. Where it stands and what hit points it has are not part of it.
-/

set_option autoImplicit false

namespace Encounter

open Json (Reader RecordReader readString readAny readVariant readList)
open Json.RecordReader (required withDefault)

/-- The record of an entity, its triggers still as records. -/
structure SavedEntity where
  name : String
  kind : EntityKind
  stats : Stats
  triggers : List Json

/-- A saved entity as a record. -/
def SavedEntity.toJson (s : SavedEntity) : Json :=
  .record [("entity_type", .string s.kind.name), ("name", .string s.name),
    ("stats", s.stats.toJson), ("triggers", .list s.triggers)]

/-- Reads the record of an entity. -/
def SavedEntity.read : Reader SavedEntity :=
  RecordReader.read "EntityRecord" <|
    .mk <$> required "name" readString
      <*> required "entity_type" (readVariant EntityKind.names)
      <*> withDefault "stats" Json.readStats ∅
      <*> withDefault "triggers" (readList readAny) []

end Encounter
