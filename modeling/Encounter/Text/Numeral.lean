/-!
# Numerals

Whole numbers written with the digits `0` to `9`, leading zeros allowed: `numeral?` reads a
non-empty run of digits, `signed?` one with an optional sign in front of it.
-/

set_option autoImplicit false

namespace Encounter.Text

/-- Is the character one of `0` to `9`? -/
def isDigit (c : Char) : Bool :=
  '0' ≤ c ∧ c ≤ '9'

/-- The value of a digit. -/
def digitValue (c : Char) : Nat :=
  c.toNat - '0'.toNat

/-- The value of a run of digits, the first one counting most. -/
def digitsValue (s : List Char) : Nat :=
  s.foldl (fun total c => 10 * total + digitValue c) 0

/-- The value of a text that holds digits only, and at least one. -/
def numeral? (s : List Char) : Option Nat :=
  if s.isEmpty then none
  else if s.all isDigit then some (digitsValue s)
  else none

/-- The value of a numeral with an optional sign before it. -/
def signed? : List Char → Option Int
  | '+' :: s => (numeral? s).map fun n => (n : Int)
  | '-' :: s => (numeral? s).map fun n => -(n : Int)
  | s => (numeral? s).map fun n => (n : Int)

/-- The signed 64-bit integer that the numeral stands for, if it is in range. -/
def int64? (s : List Char) : Option Int64 :=
  match signed? s with
  | some i =>
    if -0x8000000000000000 ≤ i ∧ i < 0x8000000000000000 then some (Int64.ofInt i) else none
  | none => none

/-- The unsigned 32-bit integer that the numeral stands for, if it is in range. -/
def uint32? (s : List Char) : Option UInt32 :=
  match numeral? s with
  | some n => if n < 0x100000000 then some (UInt32.ofNat n) else none
  | none => none

end Encounter.Text
