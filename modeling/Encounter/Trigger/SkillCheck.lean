import Encounter.Payload

/-!
# Skill checks

A check rolls a die of twenty sides, adds the modifier of a skill and compares the total with a
difficulty. A check can be set to pass or to fail without a roll; passing wins.
-/

set_option autoImplicit false

namespace Encounter

/-- A roll of twenty against a difficulty. -/
structure SkillCheck where
  skill : String
  difficulty : Int64
  autoPass : Bool := false
  autoFail : Bool := false
  deriving DecidableEq, Repr, Inhabited

namespace SkillCheck

/-- The modifier of the checked skill; a skill without one counts as zero. -/
def modifier (check : SkillCheck) (stats : Stats) : Int64 :=
  stats[check.skill]?.getD 0

/-- Makes the check. The total stops at the limits of 64 bits. -/
def attempt (check : SkillCheck) (stats : Stats) (mode : RollMode) (r : Roller) : Bool × Roller :=
  if check.autoPass then (true, r)
  else if check.autoFail then (false, r)
  else
    let (roll, r) := r.rollD20 mode
    (check.difficulty ≤ saturate64 (roll.toInt + (check.modifier stats).toInt), r)

end SkillCheck

end Encounter
