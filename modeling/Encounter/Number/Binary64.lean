/-!
# Numbers of the 64-bit binary format

A finite number of the format is `±mantissa · 2 ^ exponent` with a mantissa below `2 ^ 53`.
Everything is done in exact arithmetic on the two parts:

* `roundHalfEven`: a quotient rounded to a whole number, a half going to the even neighbour;
* `Binary64.nearest`: the number of the format nearest to a quotient;
* `Binary64.mulRound`, `Binary64.divRound`: product and quotient of two magnitudes, rounded;
* `Binary64.ofDecimal?`: the number that a decimal literal stands for;
* `Binary64.truncate`, `Binary64.sameValue`: the whole part, and equality of values.
-/

set_option autoImplicit false

namespace Encounter

/-- `num / den` rounded to the nearest whole number; a half goes to the even neighbour. -/
def roundHalfEven (num den : Nat) : Nat :=
  let whole := num / den
  let rest := num % den
  if 2 * rest < den ∨ (2 * rest = den ∧ whole % 2 = 0) then whole else whole + 1

/-- A finite number of the 64-bit binary format, `±mantissa · 2 ^ exponent`. The mantissa has its
top bit, bit 52, set unless the exponent is the least one, `-1074`. -/
structure Binary64 where
  negative : Bool
  mantissa : Nat
  exponent : Int
  deriving DecidableEq, Repr, Inhabited

namespace Binary64

/-- The least exponent of the format. -/
def leastExponent : Int := -1074

/-- The greatest exponent of the format. -/
def greatestExponent : Int := 971

/-- `num / (den · 2 ^ exponent)` as a pair of whole numbers. -/
def scale (num den : Nat) (exponent : Int) : Nat × Nat :=
  (num * Nat.pow 2 (-exponent).toNat, den * Nat.pow 2 exponent.toNat)

/-- The exponent at which `num / den` has 53 bits before the point, or the least one. -/
def exponentOf (num den : Nat) : Int :=
  let guess : Int := num.log2 - den.log2 - 53
  let (n, d) := scale num den guess
  max leastExponent (if n / d < 0x20000000000000 then guess else guess + 1)

/-- Mantissa and exponent of the number nearest to `num / den`, ties going to the even mantissa,
with no upper limit on the exponent. -/
def nearest (num den : Nat) : Nat × Int :=
  if num = 0 then (0, leastExponent)
  else
    let exponent := exponentOf num den
    let (n, d) := scale num den exponent
    let mantissa := roundHalfEven n d
    if mantissa = 0x20000000000000 then (0x10000000000000, exponent + 1) else (mantissa, exponent)

/-- The product of two magnitudes `mantissa · 2 ^ exponent`, rounded. -/
def mulRound (x y : Nat × Int) : Nat × Int :=
  let (num, den) := scale (x.1 * y.1) 1 (-(x.2 + y.2))
  nearest num den

/-- The quotient of two magnitudes, rounded. -/
def divRound (x y : Nat × Int) : Nat × Int :=
  let (num, den) := scale x.1 y.1 (y.2 - x.2)
  nearest num den

/-- The magnitude nearest to `10 ^ n`; it is a number of the format for `n` up to 308. -/
def powerOfTen (n : Nat) : Nat × Int :=
  nearest (Nat.pow 10 n) 1

/-- The magnitude of `digits · 10 ^ exponent`: the digits are rounded, and multiplied or divided by
a power of ten, with one rounding for each operation. A power below `10 ^ -308` takes two divisions,
and where these do not suffice nothing is left of digits below `2 ^ 64`. -/
def scaleByTen (digits : Nat) (exponent : Int) : Nat × Int :=
  let start := nearest digits 1
  if 0 ≤ exponent then mulRound start (powerOfTen exponent.toNat)
  else if -308 ≤ exponent then divRound start (powerOfTen (-exponent).toNat)
  else if -616 ≤ exponent then
    divRound (divRound start (powerOfTen 308)) (powerOfTen (-exponent - 308).toNat)
  else (0, leastExponent)

/-- The number for `±digits · 10 ^ exponent` with digits below `2 ^ 64`; none if it lies beyond the
greatest number. -/
def ofDecimal? (negative : Bool) (digits : Nat) (exponent : Int) : Option Binary64 :=
  if digits = 0 then some ⟨negative, 0, leastExponent⟩
  else if 308 < exponent then none
  else
    let (mantissa, exponent) := scaleByTen digits exponent
    if exponent ≤ greatestExponent then some ⟨negative, mantissa, exponent⟩ else none

/-- The magnitude of the number as a quotient of whole numbers. -/
def toRatio (x : Binary64) : Nat × Nat :=
  scale x.mantissa 1 (-x.exponent)

/-- The whole part: the number cut off at the point. -/
def truncate (x : Binary64) : Int :=
  let (num, den) := x.toRatio
  if x.negative then -(num / den : Nat) else (num / den : Nat)

/-- Do both stand for one value? Zero has two forms, every other value one. -/
def sameValue (x y : Binary64) : Bool :=
  (x.mantissa = 0 ∧ y.mantissa = 0) ∨ x = y

end Binary64

end Encounter
