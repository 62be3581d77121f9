/-!
# The keystream behind the dice

Dice are rolled from the words of a ChaCha stream with eight rounds. A seed gives the key; the
block counter is 64 bits wide and the stream number zero. `word` is the word at a position of the
stream, so that the stream needs no state of its own.
-/

set_option autoImplicit false

namespace Encounter.Keystream

/-! ## Key -/

/-- One step of the generator that stretches a seed. -/
def seedStep (state : UInt64) : UInt64 :=
  state * 6364136223846793005 + 11634580027462260723

/-- A word rotated to the right. -/
def rotateRight (x : UInt32) (n : UInt32) : UInt32 :=
  (x >>> n) ||| (x <<< (32 - n))

/-- A word rotated to the left. -/
def rotateLeft (x : UInt32) (n : UInt32) : UInt32 :=
  (x <<< n) ||| (x >>> (32 - n))

/-- The word that a state of the generator puts out. -/
def seedWord (state : UInt64) : UInt32 :=
  rotateRight (((state >>> 18) ^^^ state) >>> 27).toUInt32 (state >>> 59).toUInt32

/-- The first `count` words after a state of the generator. -/
def seedWords : Nat → UInt64 → List UInt32
  | 0, _ => []
  | count + 1, state =>
    let state := seedStep state
    seedWord state :: seedWords count state

/-- The eight key words of a seed. -/
def key (seed : UInt64) : List UInt32 :=
  seedWords 8 seed

/-! ## Blocks -/

/-- The sixteen words of a block. -/
abbrev Block := Vector UInt32 16

/-- The quarter round on four places of a block. -/
def quarterRound (s : Block) (a b c d : Fin 16) : Block :=
  let s := s.set a (s[a] + s[b])
  let s := s.set d (rotateLeft (s[d] ^^^ s[a]) 16)
  let s := s.set c (s[c] + s[d])
  let s := s.set b (rotateLeft (s[b] ^^^ s[c]) 12)
  let s := s.set a (s[a] + s[b])
  let s := s.set d (rotateLeft (s[d] ^^^ s[a]) 8)
  let s := s.set c (s[c] + s[d])
  s.set b (rotateLeft (s[b] ^^^ s[c]) 7)

/-- Two rounds: the columns of the block and then its diagonals. -/
def doubleRound (s : Block) : Block :=
  let s := quarterRound s 0 4 8 12
  let s := quarterRound s 1 5 9 13
  let s := quarterRound s 2 6 10 14
  let s := quarterRound s 3 7 11 15
  let s := quarterRound s 0 5 10 15
  let s := quarterRound s 1 6 11 12
  let s := quarterRound s 2 7 8 13
  quarterRound s 3 4 9 14

/-- The block before the rounds: four constants, the key, the counter and the stream number. -/
def initial (seed : UInt64) (counter : UInt64) : Block :=
  let k := key seed
  #v[0x61707865, 0x3320646e, 0x79622d32, 0x6b206574,
     k.getD 0 0, k.getD 1 0, k.getD 2 0, k.getD 3 0,
     k.getD 4 0, k.getD 5 0, k.getD 6 0, k.getD 7 0,
     counter.toUInt32, (counter >>> 32).toUInt32, 0, 0]

/-- The block of a counter: the initial block added to what eight rounds make of it. -/
def block (seed : UInt64) (counter : UInt64) : Block :=
  let start := initial seed counter
  let mixed := doubleRound (doubleRound (doubleRound (doubleRound start)))
  Vector.ofFn fun i => mixed[i] + start[i]

/-- The number of words after which the stream repeats: sixteen in each of `2 ^ 64` blocks. -/
def period : Nat :=
  16 * 0x10000000000000000

/-- The word at a position of the stream. -/
def word (seed : UInt64) (position : Nat) : UInt32 :=
  (block seed (UInt64.ofNat (position / 16))).get ⟨position % 16, Nat.mod_lt _ (by decide)⟩

end Encounter.Keystream
