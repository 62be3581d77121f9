import Encounter.Engine.Basic
import Encounter.Save.Trigger

/-!
# Reports

What can be seen of tiles, entities, triggers and a whole engine, as JSON for people and tools to
look at. Nothing is read back from a report.
-/

set_option autoImplicit false

namespace Encounter

variable {κ : Type}

/-- A position as a pair. -/
def Position.report (p : Position) : Json :=
  .list [.int p.x.toInt, .int p.y.toInt]

/-- Hit points, and whether their owner is still standing. -/
def Vitals.report (v : Vitals) : Json :=
  .ofEntries [("current", .ofInt64 v.current), ("max", .ofInt64 v.maximum),
    ("alive", .bool v.isAlive)]

/-- All that there is to see of a tile. -/
def Tile.report (t : Tile) : Json :=
  .ofEntries [("terrain", .string t.terrain.name),
    ("tags", .list (t.tags.toList.map fun tag => .string tag.name)),
    ("occupants", .list (t.occupants.map fun id => .ofUInt32 id.raw)),
    ("note", .ofOption .string t.note), ("user_label", .ofOption .string t.userLabel)]

/-- All that there is to see of an entity. -/
def Entity.report (e : Entity) : Json :=
  .ofEntries [("id", .ofUInt32 e.id.raw), ("name", .string e.name), ("kind", .string e.kind.name),
    ("position", .ofOption Position.report e.position), ("vision", .ofOption .ofUInt32 e.vision),
    ("vitals", .ofOption Vitals.report e.vitals), ("stats", e.stats.toJson),
    ("triggers", .list (e.triggers.map fun id => .ofUInt32 id.raw))]

/-- The record of a trigger, with its length and the last recorded fire of each link. -/
def Trigger.report (t : Trigger κ) : Json :=
  .ofEntries [("record", t.toJson), ("chain_len", .int t.length),
    ("last_fired", .list (t.links.map fun l => .ofOption .ofUInt64 l.lastFired))]

/-- Who listens to what. -/
def Listeners.report (l : Listeners κ) : Json :=
  .ofEntries (l.toList.map fun (event, subscribers) =>
    (event, .list (subscribers.map fun s => .string s.text)))

namespace Engine

/-- The live triggers with their origins and owners; of a firing one there is nothing to see. -/
def reportTriggers (e : Engine κ) : List Json :=
  e.roster.toList.map fun id =>
    .ofEntries [("id", .ofUInt32 id.raw), ("source", .string (e.roster.origin id)),
      ("owner", .ofOption (fun owner => .ofUInt32 owner.raw) e.owners[id]?),
      ("trigger", .ofOption Trigger.report (e.shelf.get? id))]

/-- The descriptions of the waiting interruptions; `describe` words the custom ones. -/
def reportWaiting (describe : κ → String) (e : Engine κ) : Json :=
  .list (e.waiting.map fun i => .string (i.describe describe))

/-- All that there is to see of an engine. -/
def report (describe : κ → String) (e : Engine κ) : Json :=
  .ofEntries [("entities", .list (e.world.toList.map Entity.report)),
    ("placed", .list (e.world.placed.map fun (id, p) =>
      .list [.ofUInt32 id.raw, .int p.x.toInt, .int p.y.toInt])),
    ("bus", e.listeners.report),
    ("triggers", .list e.reportTriggers),
    ("participants", .list (e.order.participants.map fun id => .ofUInt32 id.raw)),
    ("queue", e.reportWaiting describe)]

/-- The counters of an engine: the turn and what is to come on later ones, the round and what is to
come in later ones, whose turn it is, and how many interruptions wait, triggers are live and random
words are taken. -/
def reportCounters (e : Engine κ) : Json :=
  .list [.ofUInt64 e.clock.turn, .int e.clock.agenda.size, .ofUInt64 e.order.round,
    .int e.order.agenda.size, .ofOption (fun id => .ofUInt32 id.raw) e.order.current?,
    .int e.waiting.length, .int e.roster.size, .string (toString e.roller.position)]

end Engine

end Encounter
