import Encounter.Dice.Roller

/-!
# Dice over a source of words

`Roller` takes its words from `Keystream.word` by their place. A generator of random words keeps
something else: a few blocks made ahead, the number of words taken of them, the counter of the next
block. Here the dice are rolled over any such generator, a `WordSource`, and `WordSource.Serves`
says what the dice rely on. `Reservoir` is the generator that makes four blocks at a time.
-/

set_option autoImplicit false

namespace Encounter

/-! ## What is asked of dice -/

/-- One use of the dice. -/
inductive Throw where
  | die (sides : UInt32)
  | d20 (mode : RollMode)
  deriving DecidableEq, Repr

/-- How dice come into being: from a seed, or from the state that a saved game keeps. -/
inductive RollerOrigin where
  | fresh (seed : UInt64)
  | saved (state : RollerState)
  deriving DecidableEq, Repr

/-- The functions of the dice, for dice of any type. -/
structure RollerOps (D : Type) where
  new : UInt64 → D
  ofState : RollerState → D
  state : D → RollerState
  rollDie : D → UInt32 → Int64 × D
  rollD20 : D → RollMode → Int64 × D

namespace RollerOps

variable {D : Type} (ops : RollerOps D)

/-- The dice of an origin. -/
def make : RollerOrigin → D
  | .fresh seed => ops.new seed
  | .saved state => ops.ofState state

/-- Throws once. -/
def throw (dice : D) : Throw → Int64 × D
  | .die sides => ops.rollDie dice sides
  | .d20 mode => ops.rollD20 dice mode

/-- The dice after some throws. -/
def thrown (dice : D) : List Throw → D
  | [] => dice
  | t :: ts => thrown (ops.throw dice t).2 ts

/-- What is seen of some throws: each roll, and the state of the dice after it. -/
def outcomes (dice : D) : List Throw → List (Int64 × RollerState)
  | [] => []
  | t :: ts =>
    let (roll, dice) := ops.throw dice t
    (roll, ops.state dice) :: outcomes dice ts

end RollerOps

/-- The functions of the dice that the engine rolls. -/
def Roller.ops : RollerOps Roller :=
  ⟨new, ofState, state, rollDie, rollD20⟩

/-! ## Dice over a generator -/

/-- A generator of random words: it is made from a seed, gives its words one by one, counts them,
and can be set to any place. -/
structure WordSource (G : Type) where
  ofSeed : UInt64 → G
  next : G → UInt32 × G
  position : G → Nat
  seek : G → Nat → G

/-- Dice that take their words from a generator. -/
structure SourceRoller (G : Type) where
  words : G
  seed : UInt64

namespace WordSource

variable {G : Type} (src : WordSource G)

/-- The dice of a seed. -/
def new (seed : UInt64) : SourceRoller G :=
  ⟨src.ofSeed seed, seed⟩

/-- The state to save. -/
def state (r : SourceRoller G) : RollerState :=
  ⟨r.seed, src.position r.words⟩

/-- Continues from a saved state: a generator made from the seed is set to the saved place. -/
def ofState (s : RollerState) : SourceRoller G :=
  ⟨src.seek (src.ofSeed s.seed) s.wordPosition, s.seed⟩

/-- Takes words until one is accepted, as `Roller.face` does. -/
def face (sides : UInt32) : Nat → G → Nat × G
  | 0, g => (0, g)
  | tries + 1, g =>
    let (word, g) := src.next g
    let product := word.toNat * sides.toNat
    if product % 0x100000000 ≤ Roller.acceptance sides then (product / 0x100000000, g)
    else face sides tries g

/-- Rolls a die with the given number of sides. -/
def rollDie (r : SourceRoller G) (sides : UInt32) : Int64 × SourceRoller G :=
  if sides ≤ 1 then (1, r)
  else
    let (n, g) := src.face sides Keystream.period r.words
    (Int64.ofInt (n + 1), { r with words := g })

/-- Rolls a die of twenty sides, once or twice as the mode says. -/
def rollD20 (r : SourceRoller G) (mode : RollMode) : Int64 × SourceRoller G :=
  match mode with
  | .normal => src.rollDie r 20
  | .advantage =>
    let (first, r) := src.rollDie r 20
    let (second, r) := src.rollDie r 20
    (max first second, r)
  | .disadvantage =>
    let (first, r) := src.rollDie r 20
    let (second, r) := src.rollDie r 20
    (min first second, r)

/-- The functions of the dice over a generator. -/
def ops : RollerOps (SourceRoller G) :=
  ⟨src.new, src.ofState, src.state, src.rollDie, src.rollD20⟩

/-- What the dice rely on. `At seed place g` says that a generator stands at a place of the stream
of a seed: a new one stands at the start, a word taken is the word of that place, the place is
counted modulo the period, and every place can be set. -/
structure Serves (At : UInt64 → Nat → G → Prop) : Prop where
  ofSeed : ∀ seed, At seed 0 (src.ofSeed seed)
  word : ∀ {seed place g}, At seed place g → (src.next g).1 = Keystream.word seed place
  next : ∀ {seed place g}, At seed place g →
    At seed ((place + 1) % Keystream.period) (src.next g).2
  position : ∀ {seed place g}, At seed place g → src.position g = place
  seek : ∀ {seed place g}, At seed place g →
    ∀ target, At seed (target % Keystream.period) (src.seek g target)

end WordSource

/-! ## A generator that works ahead -/

/-- A generator that makes four blocks at a time and hands out their words. -/
structure Reservoir where
  seed : UInt64
  /-- The counter of the next block to be made. -/
  counter : UInt64
  /-- The words of the blocks made last. -/
  ready : Vector UInt32 64
  /-- How many of them are spent. -/
  taken : Nat
  taken_le : taken ≤ 64

namespace Reservoir

/-- The words of four blocks in a row. -/
def fourBlocks (seed counter : UInt64) : Vector UInt32 64 :=
  Vector.ofFn fun i => (Keystream.block seed (counter + UInt64.ofNat (i / 16))).get
    ⟨i % 16, Nat.mod_lt _ (by decide)⟩

/-- A generator of a seed. It has made no block yet and counts all of its words as spent. -/
def ofSeed (seed : UInt64) : Reservoir :=
  ⟨seed, 0, Vector.replicate 64 0, 64, Nat.le_refl _⟩

/-- Makes the next four blocks, of which some words are spent from the start. -/
def refill (r : Reservoir) (taken : Nat) (h : taken ≤ 64) : Reservoir :=
  ⟨r.seed, r.counter + 4, fourBlocks r.seed r.counter, taken, h⟩

/-- Takes a word, of new blocks where the last ones are spent. -/
def next (r : Reservoir) : UInt32 × Reservoir :=
  if h : r.taken < 64 then (r.ready[r.taken], { r with taken := r.taken + 1, taken_le := h })
  else
    let r := r.refill 1 (by decide)
    (r.ready[0], r)

/-- The place of the next word: the blocks made last began four before the counter. -/
def position (r : Reservoir) : Nat :=
  (r.counter - 4 + UInt64.ofNat (r.taken / 16)).toNat * 16 + r.taken % 16

/-- Sets a generator to a place. The block number is cut to 64 bits. -/
def seek (r : Reservoir) (place : Nat) : Reservoir :=
  { r with counter := UInt64.ofNat (place / 16) }.refill (place % 16)
    (Nat.le_of_lt (Nat.lt_of_lt_of_le (Nat.mod_lt _ (by decide)) (by decide)))

/-- The generator as a source of words. -/
def source : WordSource Reservoir :=
  ⟨ofSeed, next, position, seek⟩

end Reservoir

end Encounter
