import Encounter.Dice.Keystream

/-!
# Rolling dice

A `Roller` is a place in the stream of a seed, so saving and restoring it is exact. A die draws
words until one falls into the range in which every face is equally likely.
-/

set_option autoImplicit false

namespace Encounter

/-- How a check is rolled: once, or the best or worst of two. -/
inductive RollMode where
  | normal
  | advantage
  | disadvantage
  deriving DecidableEq, Repr, Inhabited

/-- A place in the stream of random words that belongs to a seed. -/
structure Roller where
  seed : UInt64
  /-- The number of words taken, counted modulo the period of the stream. -/
  position : Nat
  position_lt : position < Keystream.period := by decide
  deriving DecidableEq

namespace Roller

/-- The roller at a place of the stream, counted modulo its period. -/
def atPlace (seed : UInt64) (position : Nat) : Roller :=
  ⟨seed, position % Keystream.period, Nat.mod_lt _ (by decide)⟩

/-- The roller at the start of the stream. -/
def new (seed : UInt64) : Roller :=
  ⟨seed, 0, by decide⟩

instance : Inhabited Roller := ⟨new 0⟩

/-- Takes the next word. -/
def draw (r : Roller) : UInt32 × Roller :=
  (Keystream.word r.seed r.position, atPlace r.seed (r.position + 1))

/-- The greatest remainder at which a word is accepted for a die: the greatest multiple of `sides`
by a power of two that fits 32 bits, less one. -/
def acceptance (sides : UInt32) : Nat :=
  sides.toNat <<< (31 - sides.toNat.log2) - 1

/-- Draws words until one is accepted, and gives the face it stands for, counted from zero. After a
whole period no further word can be accepted, so the search ends there. -/
def face (sides : UInt32) : Nat → Roller → Nat × Roller
  | 0, r => (0, r)
  | tries + 1, r =>
    let (word, r) := r.draw
    let product := word.toNat * sides.toNat
    if product % 0x100000000 ≤ acceptance sides then (product / 0x100000000, r)
    else face sides tries r

/-- Rolls a die with the given number of sides. A die of at most one side rolls 1 without a
draw. -/
def rollDie (r : Roller) (sides : UInt32) : Int64 × Roller :=
  if sides ≤ 1 then (1, r)
  else
    let (n, r) := face sides Keystream.period r
    (Int64.ofInt (n + 1), r)

/-- Rolls a die of twenty sides, once or twice as the mode says. -/
def rollD20 (r : Roller) (mode : RollMode) : Int64 × Roller :=
  match mode with
  | .normal => r.rollDie 20
  | .advantage =>
    let (first, r) := r.rollDie 20
    let (second, r) := r.rollDie 20
    (max first second, r)
  | .disadvantage =>
    let (first, r) := r.rollDie 20
    let (second, r) := r.rollDie 20
    (min first second, r)

end Roller

/-- What a saved game keeps of the dice. -/
structure RollerState where
  seed : UInt64
  wordPosition : Nat
  deriving DecidableEq, Repr, Inhabited

/-- The state to save. -/
def Roller.state (r : Roller) : RollerState :=
  ⟨r.seed, r.position⟩

/-- Continues from a saved state. -/
def Roller.ofState (s : RollerState) : Roller :=
  atPlace s.seed s.wordPosition

end Encounter
