import Encounter.Turn.Agenda

/-!
# The clock

A turn counter and the agenda of what is to happen on later turns. The clock decides what is due;
whoever advances it carries that out.
-/

set_option autoImplicit false

namespace Encounter

/-- A turn counter with an agenda. -/
structure Clock (α : Type) where
  turn : UInt64
  agenda : Agenda α
  deriving DecidableEq, Repr, Inhabited

namespace Clock

variable {α : Type}

/-- A clock at turn zero. -/
def new (policy : DuePolicy) : Clock α :=
  ⟨0, .empty policy⟩

/-- Puts an item down for `turns` turns from now. -/
def schedule (c : Clock α) (turns : UInt64) (item : α) : Clock α :=
  { c with agenda := c.agenda.push (c.turn + turns) item }

/-- Moves to the next turn and takes out what is due there. -/
def advance (c : Clock α) : List (AgendaEntry α) × Clock α :=
  let turn := c.turn + 1
  let (due, agenda) := c.agenda.takeDue turn
  (due, ⟨turn, agenda⟩)

end Clock

end Encounter
