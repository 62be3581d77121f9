import Encounter.Number.Binary64

/-!
# Shortest decimal text

`Binary64.shortest` finds the fewest decimal digits that read back as the number, and of those the
nearest to it, the even one of two that are equally near. `Binary64.text` writes them: positional
notation between `10 ^ -5` and `10 ^ 16`, always with a fraction, and a signed exponent outside of
that range.
-/

set_option autoImplicit false

namespace Encounter.Binary64

/-- The number of decimal digits before the point; at most zero for a number below one. -/
def decimalSize (x : Binary64) : Int :=
  let (num, den) := x.toRatio
  ((Nat.toDigits 10 (num * Nat.pow 10 400 / den)).length : Int) - 400

/-- Does `digits · 10 ^ place` round to the magnitude of `x`? The ends of the interval belong to it
when the mantissa is even; below a power of two the interval is half as wide. -/
def rounds (x : Binary64) (digits : Nat) (place : Int) : Bool :=
  let below := if x.mantissa = 0x10000000000000 ∧ leastExponent < x.exponent then 1 else 2
  let two := Nat.pow 2 x.exponent.toNat * Nat.pow 10 (-place).toNat
  let point := 4 * digits * Nat.pow 10 place.toNat * Nat.pow 2 (-x.exponent).toNat
  let low := (4 * x.mantissa - below) * two
  let high := (4 * x.mantissa + 2) * two
  if x.mantissa % 2 = 0 then low ≤ point ∧ point ≤ high else low < point ∧ point < high

/-- The point of the grid of step `10 ^ place` that rounds to `x`, if there is one; of two the
nearer, and the even one if both are equally near. -/
def onGrid? (x : Binary64) (place : Int) : Option Nat :=
  let (num, den) := x.toRatio
  let n := num * Nat.pow 10 (-place).toNat
  let d := den * Nat.pow 10 place.toNat
  let low := n / d
  match rounds x low place, rounds x (low + 1) place with
  | true, true => some (roundHalfEven n d)
  | true, false => some low
  | false, true => some (low + 1)
  | false, false => none

/-- The first hit on the grids of `count`, `count + 1`, … digits, trying `tries` of them. -/
def search (x : Binary64) (size : Int) : Nat → Nat → Nat × Int
  | 0, count => (x.toRatio.1 * Nat.pow 10 (count - size).toNat / x.toRatio.2, size - count)
  | tries + 1, count =>
    match onGrid? x (size - count) with
    | some digits => (digits, size - count)
    | none => search x size tries (count + 1)

/-- `digits · 10 ^ place` without the zeros at the end of the digits. -/
def dropZeros : Nat → Nat → Int → Nat × Int
  | 0, digits, place => (digits, place)
  | steps + 1, digits, place =>
    if digits ≠ 0 ∧ digits % 10 = 0 then dropZeros steps (digits / 10) (place + 1)
    else (digits, place)

/-- The fewest digits that read back as the magnitude of `x`, with the place of the last one.
Seventeen digits always suffice. -/
def shortest (x : Binary64) : Nat × Int :=
  let (digits, place) := search x x.decimalSize 17 1
  dropZeros 20 digits place

/-- The text of the magnitude, for the digits `shortest` found. -/
def positional (digits : String) (place : Int) : String :=
  let point : Int := digits.length + place
  if 0 ≤ place ∧ point ≤ 16 then
    digits ++ String.ofList (List.replicate place.toNat '0') ++ ".0"
  else if 0 < point ∧ point ≤ 16 then
    String.ofList (digits.toList.take point.toNat) ++ "." ++
      String.ofList (digits.toList.drop point.toNat)
  else if -5 < point ∧ point ≤ 0 then
    "0." ++ String.ofList (List.replicate (-point).toNat '0') ++ digits
  else
    let head := String.ofList (digits.toList.take 1)
    let tail := String.ofList (digits.toList.drop 1)
    let fraction := if tail.isEmpty then "" else "." ++ tail
    let exponent := point - 1
    head ++ fraction ++ (if 0 ≤ exponent then "e+" else "e") ++ toString exponent

/-- The shortest decimal text of `x`, with a fraction or an exponent. -/
def text (x : Binary64) : String :=
  let sign := if x.negative then "-" else ""
  if x.mantissa = 0 then sign ++ "0.0"
  else
    let (digits, place) := x.shortest
    sign ++ positional (toString digits) place

end Encounter.Binary64
