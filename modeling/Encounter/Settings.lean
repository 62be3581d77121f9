import Encounter.Map.Grid
import Encounter.Turn.Agenda

/-!
# Settings

What an encounter is set up with. Every setting has a default.
-/

set_option autoImplicit false

namespace Encounter

/-- The settings of one encounter. -/
structure Settings where
  width : UInt32 := 10
  height : UInt32 := 10
  gridKind : GridKind := .square
  /-- The seed of the dice. -/
  seed : UInt64 := 0
  /-- How the clock decides what is due. -/
  turnPolicy : DuePolicy := .exactTurn
  /-- The greatest number of links in a chain that is read from a record. -/
  maxChainDepth : UInt64 := 32
  deriving DecidableEq, Repr, Inhabited

/-- The grid that the settings ask for. -/
def Settings.grid (s : Settings) : Grid :=
  .new s.width s.height s.gridKind

end Encounter
