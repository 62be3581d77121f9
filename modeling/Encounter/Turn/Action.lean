import Encounter.Dice.Expression
import Encounter.Id
import Encounter.Position

/-!
# Actions and interruptions

What an entity does on its turn, and what others may put in its way. Besides the built-in ones
there are custom ones; `κ` is the type of whatever stands for their code.
-/

set_option autoImplicit false

namespace Encounter

/-- Emitted when a valid action has been chosen. -/
def actionProposed : String :=
  "ACTION_PROPOSED"

/-- Emitted after an action has been carried out. -/
def actionExecuted : String :=
  "ACTION_EXECUTED"

/-- Emitted on the tile that an entity has moved to. -/
def onEnter : String :=
  "ON_ENTER"

/-- Emitted when a contest has been settled. -/
def reactionResolved : String :=
  "REACTION_RESOLVED"

/-- The name of the payload value that holds the description of an action. -/
def actionName : String :=
  "action"

/-- Something an entity does on its turn. -/
inductive Action (κ : Type) where
  /-- Moves an entity to a tile. -/
  | move (entity : EntityId) (goal : Position)
  /-- Rolls damage against a target. -/
  | strike (attacker target : EntityId) (damage : Dice) (type : String)
  | custom (code : κ)
  deriving DecidableEq, Repr

/-- Something that interrupts an action, waiting to be settled. -/
inductive Interruption (κ : Type) where
  /-- An entity reacts to an action, given by its description. -/
  | contest (reactor : EntityId) (action : String)
  | custom (code : κ)
  deriving DecidableEq, Repr

variable {κ : Type}

/-- The description of an action; `describe` words the custom ones. -/
def Action.describe (describe : κ → String) : Action κ → String
  | .move entity goal => entity.text ++ " moves to " ++ goal.text
  | .strike attacker target damage type =>
    attacker.text ++ " strikes " ++ target.text ++ " for " ++ damage.text ++ " " ++ type
  | .custom code => describe code

/-- The description of an interruption; `describe` words the custom ones. -/
def Interruption.describe (describe : κ → String) : Interruption κ → String
  | .contest reactor action => reactor.text ++ " reacts to " ++ action
  | .custom code => describe code

/-- What came of a turn. -/
inductive TurnOutcome where
  /-- The action was carried out. -/
  | executed
  /-- Interruptions were settled instead. -/
  | contested
  /-- The action was not valid. -/
  | rejected (reason : String)
  /-- Nobody acted. -/
  | idle
  deriving DecidableEq, Repr

end Encounter
