import Encounter.Dice.Expression

/-!
# Dice totals in 64 bits

`Dice.roll`, `minTotal` and `maxTotal` reckon with whole numbers and come back to 64 bits once, when
the modifier is added. Here the same totals are reckoned step by step in signed 64-bit integers. The
modifier is added with saturation; any other sum or product that leaves the range has no result.
-/

set_option autoImplicit false

namespace Encounter

/-- The signed 64-bit integer of a value, if there is one. -/
def exact64? (i : Int) : Option Int64 :=
  if -0x8000000000000000 ≤ i ∧ i ≤ 0x7fffffffffffffff then some (.ofInt i) else none

namespace Dice

/-- Adds the modifier to a sum, with saturation. -/
def addModifier (dice : Dice) (sum : Int64) : Int64 :=
  saturate64 (sum.toInt + dice.modifier.toInt)

/-- Adds `count` rolls of one die to a sum, in the order in which they are rolled. -/
def sumRolls? (sides : UInt32) : Nat → Int64 → Roller → Option (Int64 × Roller)
  | 0, sum, r => some (sum, r)
  | count + 1, sum, r =>
    let (face, r) := r.rollDie sides
    (exact64? (sum.toInt + face.toInt)).bind fun sum => sumRolls? sides count sum r

/-- Rolls the dice and adds the modifier. -/
def roll? (dice : Dice) (r : Roller) : Option (Int64 × Roller) :=
  (sumRolls? dice.sides dice.rolled 0 r).map fun (sum, r) => (dice.addModifier sum, r)

/-- The total when every die shows one. -/
def minTotal? (dice : Dice) : Option Int64 :=
  (exact64? dice.rolled).map dice.addModifier

/-- The total when every die shows its highest face. -/
def maxTotal? (dice : Dice) : Option Int64 := do
  let count ← exact64? dice.rolled
  let sides ← exact64? dice.sides.toNat
  let sum ← exact64? (count.toInt * sides.toInt)
  pure (dice.addModifier sum)

end Dice

end Encounter
