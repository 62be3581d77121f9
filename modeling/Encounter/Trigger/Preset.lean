import Encounter.Trigger.Basic

/-!
# Presets

The triggers that a new entity of a kind starts with.
-/

set_option autoImplicit false

namespace Encounter

/-- Someone spoke to the entity. -/
def talkedTo : String :=
  "TALKED_TO"

/-- A player came within reach of the entity. -/
def playerInRange : String :=
  "PLAYER_IN_RANGE"

/-- Something stepped on the entity's tile. -/
def steppedOn : String :=
  "STEPPED_ON"

/-- The triggers of a new entity of the kind. -/
def EntityKind.presets {κ : Type} : EntityKind → List (Trigger κ)
  | .npc => [.new talkedTo .always (.alert "NPC was talked to")]
  | .enemy => [.new playerInRange .always (.damage "slashing" 1)]
  | .trap => [.new steppedOn (.perception 12) (.damage "piercing" 6)]
  | .player => []
  | .object => []

end Encounter
