/-!
# White space

The characters with the Unicode property `White_Space`, and what reading text does with them:
`String.strip` of the ends, `withoutBlanks` everywhere.
-/

set_option autoImplicit false

namespace Encounter.Text

/-- Does the character have the property `White_Space`? -/
def isBlank (c : Char) : Bool :=
  let code := c.toNat
  (0x09 ≤ code ∧ code ≤ 0x0d) ∨ code = 0x20 ∨ code = 0x85 ∨ code = 0xa0 ∨ code = 0x1680 ∨
    (0x2000 ≤ code ∧ code ≤ 0x200a) ∨ code = 0x2028 ∨ code = 0x2029 ∨ code = 0x202f ∨
    code = 0x205f ∨ code = 0x3000

/-- The text without white space at its ends. -/
def strip (s : List Char) : List Char :=
  ((s.dropWhile isBlank).reverse.dropWhile isBlank).reverse

/-- The text without any white space. -/
def withoutBlanks (s : List Char) : List Char :=
  s.filter fun c => !isBlank c

end Encounter.Text
