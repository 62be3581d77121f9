import Encounter.Dice.Roller
import Encounter.Number.Saturation
import Encounter.Text.Blank
import Encounter.Text.Numeral

/-!
# Dice expressions

`2d6+3` stands for two dice of six sides and three on top. `Dice.parse` reads such a text, ignoring
white space and letter case; `Dice.text` writes it; `Dice.roll` rolls it, and `minTotal` and
`maxTotal` bound what it rolls. Totals stop at the limits of 64 bits.
-/

set_option autoImplicit false

namespace Encounter

/-- A number of equal dice and a number added to their sum. -/
structure Dice where
  count : UInt32
  sides : UInt32
  modifier : Int64
  deriving DecidableEq, Repr, Inhabited

/-- Why a text is no dice expression. -/
inductive DiceError where
  | badFormat (input : String)
  | badCount
  | badSides
  deriving DecidableEq, Repr

/-- The words for a dice error. -/
def DiceError.message : DiceError → String
  | .badFormat input => "Invalid dice expression: " ++ input
  | .badCount => "Dice count must be between 1 and 1000"
  | .badSides => "Die size must be at least 2"

namespace Dice

/-- The greatest number of dice that an expression rolls. -/
def maxCount : UInt32 :=
  1000

/-! ## Text -/

/-- Lower case as far as dice expressions go: no letter but `D` has a lower-case form in which
`d`, a digit or a sign occurs. -/
def lower (c : Char) : Char :=
  if c = 'D' then 'd' else c

/-- The parts of a text of the form of a dice expression. -/
structure Parts where
  count : List Char
  sides : List Char
  modifier : Option (List Char)
  deriving DecidableEq

/-- Cuts a text into digits, `d`, digits and an optional signed run of digits. -/
def parts? (s : List Char) : Option Parts :=
  let count := s.takeWhile Text.isDigit
  match s.dropWhile Text.isDigit with
  | 'd' :: rest =>
    let sides := rest.takeWhile Text.isDigit
    if sides.isEmpty then none
    else match rest.dropWhile Text.isDigit with
      | [] => some ⟨count, sides, none⟩
      | sign :: digits =>
        if (sign = '+' ∨ sign = '-') ∧ !digits.isEmpty ∧ digits.all Text.isDigit then
          some ⟨count, sides, some (sign :: digits)⟩
        else none
  | _ => none

/-- The numbers that the parts stand for, if they are in the range of their types. A missing count
is one, a missing modifier zero. -/
def Parts.toDice? (parts : Parts) : Option Dice := do
  let count ← if parts.count.isEmpty then some 1 else Text.uint32? parts.count
  let sides ← Text.uint32? parts.sides
  let modifier ← match parts.modifier with
    | some signed => Text.int64? signed
    | none => some 0
  pure ⟨count, sides, modifier⟩

/-- Reads a dice expression. -/
def parse (input : String) : Except DiceError Dice :=
  match (parts? ((Text.withoutBlanks input.toList).map lower)).bind Parts.toDice? with
  | none => .error (.badFormat input)
  | some dice =>
    if dice.count = 0 ∨ maxCount < dice.count then .error .badCount
    else if dice.sides < 2 then .error .badSides
    else .ok dice

/-- The text of a dice expression; a modifier of zero is left out. -/
def text (dice : Dice) : String :=
  let base := toString dice.count ++ "d" ++ toString dice.sides
  if dice.modifier = 0 then base
  else if 0 < dice.modifier then base ++ "+" ++ toString dice.modifier
  else base ++ toString dice.modifier

/-! ## Rolls -/

/-- The number of dice that are rolled. -/
def rolled (dice : Dice) : Nat :=
  (min dice.count maxCount).toNat

/-- The sum of `count` rolls of one die. -/
def sumRolls (sides : UInt32) : Nat → Roller → Int × Roller
  | 0, r => (0, r)
  | count + 1, r =>
    let (face, r) := r.rollDie sides
    let (sum, r) := sumRolls sides count r
    (face.toInt + sum, r)

/-- Rolls the dice and adds the modifier. -/
def roll (dice : Dice) (r : Roller) : Int64 × Roller :=
  let (sum, r) := sumRolls dice.sides dice.rolled r
  (saturate64 (sum + dice.modifier.toInt), r)

/-- The total when every die shows one. -/
def minTotal (dice : Dice) : Int64 :=
  saturate64 (dice.rolled + dice.modifier.toInt)

/-- The total when every die shows its highest face. -/
def maxTotal (dice : Dice) : Int64 :=
  saturate64 (dice.rolled * dice.sides.toNat + dice.modifier.toInt)

end Dice

end Encounter
