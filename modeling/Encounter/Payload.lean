import Encounter.Dice.Roller
import Encounter.Entity
import Encounter.Json.Basic

/-!
# Payloads

What travels with an event: where it happened, who caused it and whom it befalls, the skill
modifiers that checks use, and free values. Those who receive an event share its payload, so each
sees what the ones before it changed.
-/

set_option autoImplicit false

namespace Encounter

/-- Free values by name. -/
abbrev Values := Std.ExtTreeMap String Json

/-- The data of an event. -/
structure Payload where
  world : Option WorldId := none
  position : Option Position := none
  source : Option EntityId := none
  target : Option EntityId := none
  stats : Stats := ∅
  rollMode : RollMode := .normal
  values : Values := ∅
  deriving Inhabited

namespace Payload

/-- The value under a name. -/
def value? (p : Payload) (name : String) : Option Json :=
  p.values[name]?

/-- Sets the value under a name. -/
def setValue (p : Payload) (name : String) (value : Json) : Payload :=
  { p with values := p.values.insert name value }

/-- Sets a skill modifier. -/
def setStat (p : Payload) (skill : String) (modifier : Int64) : Payload :=
  { p with stats := p.stats.insert skill modifier }

/-- Does the payload name the given world? -/
def isForWorld (p : Payload) (world : WorldId) : Bool :=
  p.world = some world

end Payload

end Encounter
