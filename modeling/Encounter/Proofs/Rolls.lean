import Encounter.Dice.Checked

/-!
# What dice can show

A die shows one of its faces (`Roller.rollDie_spec`), and a die of at most one side shows one. So
the sum of `count` dice lies between `count` and `count` times the highest face that they show
(`Dice.sumRolls_spec`), which is far below the limit of 64 bits (`Dice.roll?_eq`).

`Dice.rolls_between_totals` compares the total with the two that bound it. `minTotal` always does.
`maxTotal` does unless the dice have no sides: it counts such dice as nothing, but each of them
shows one.
-/

set_option autoImplicit false

namespace Encounter

/-! ## One die -/

namespace Roller

variable {sides : UInt32}

theorem face_lt (h : sides ≠ 0) (tries : Nat) (r : Roller) :
    (face sides tries r).1 < sides.toNat := by
  have hpos : 0 < sides.toNat := Nat.pos_of_ne_zero fun h' => h (UInt32.toNat_inj.1 h')
  induction tries generalizing r with
  | zero => exact hpos
  | succ tries ih =>
    simp only [face]
    split
    · -- an accepted word is below `2 ^ 32`, so its share of the faces is below their number
      have hword : r.draw.1.toNat < 0x100000000 := r.draw.1.toNat_lt
      exact Nat.div_lt_of_lt_mul (Nat.mul_lt_mul_of_pos_right hword hpos)
    · exact ih _

/-- A die shows a face from one up to the number of its sides. -/
theorem rollDie_spec (r : Roller) (sides : UInt32) :
    1 ≤ (r.rollDie sides).1.toInt ∧ (r.rollDie sides).1.toInt ≤ max 1 sides.toNat := by
  unfold rollDie
  split
  · rw [Int64.toInt_one]
    omega
  · rename_i hsides
    have hne : sides ≠ 0 := by
      rintro rfl
      exact hsides (by decide)
    have hface := face_lt hne Keystream.period r
    have hlt := sides.toNat_lt
    have hroll : (Int64.ofInt ((face sides Keystream.period r).1 + 1)).toInt =
        (face sides Keystream.period r).1 + 1 := Int64.toInt_ofInt_of_le (by omega) (by omega)
    rw [hroll]
    omega

end Roller

/-! ## Several dice -/

namespace Dice

/-- The highest face that a die shows; one without sides shows one. -/
def topFace (sides : UInt32) : Nat :=
  max 1 sides.toNat

theorem rolled_eq (dice : Dice) : dice.rolled = min dice.count.toNat 1000 := by
  unfold rolled
  have hmin : min dice.count maxCount =
      if dice.count ≤ maxCount then dice.count else maxCount := rfl
  have hmax : maxCount.toNat = 1000 := rfl
  rw [hmin]
  split
  next h =>
    have := UInt32.le_iff_toNat_le.1 h
    omega
  next h =>
    have := mt UInt32.le_iff_toNat_le.2 h
    omega

/-- The sum of some dice lies between what they show at least and at most. -/
theorem sumRolls_spec (sides : UInt32) (count : Nat) (r : Roller) :
    (count : Int) ≤ (sumRolls sides count r).1 ∧
      (sumRolls sides count r).1 ≤ count * topFace sides := by
  induction count generalizing r with
  | zero => simp [sumRolls]
  | succ count ih =>
    have hface := r.rollDie_spec sides
    have hsum := ih (r.rollDie sides).2
    simp only [sumRolls, topFace, Int.natCast_add, Int.natCast_one, Int.add_mul] at *
    omega

/-- A thousand dice of any number of sides stay below `2 ^ 42`. -/
theorem rolled_mul_topFace_lt (dice : Dice) :
    (dice.rolled : Int) * topFace dice.sides < 0x40000000000 := by
  have hrolled : dice.rolled ≤ 1000 := by
    rw [rolled_eq]
    omega
  have htop : topFace dice.sides ≤ 0x100000000 := by
    have := dice.sides.toNat_lt
    unfold topFace
    omega
  have hmul := Nat.mul_le_mul hrolled htop
  omega

/-! ## Reckoning in 64 bits -/

theorem exact64?_eq {i : Int} (hlow : -0x8000000000000000 ≤ i) (hhigh : i ≤ 0x7fffffffffffffff) :
    exact64? i = some (.ofInt i) ∧ (Int64.ofInt i).toInt = i :=
  ⟨if_pos ⟨hlow, hhigh⟩, Int64.toInt_ofInt_of_le hlow (Int.lt_add_one_of_le hhigh)⟩

/-- No sum on the way overflows, if the highest faces do not. -/
theorem sumRolls?_eq {sides : UInt32} {count : Nat} {sum : Int64} (r : Roller)
    (hsum : 0 ≤ sum.toInt) (h : sum.toInt + count * topFace sides ≤ 0x7fffffffffffffff) :
    sumRolls? sides count sum r =
      some (.ofInt (sum.toInt + (sumRolls sides count r).1), (sumRolls sides count r).2) := by
  induction count generalizing sum r with
  | zero => simp [sumRolls?, sumRolls]
  | succ count ih =>
    obtain ⟨hlow, hhigh⟩ := r.rollDie_spec sides
    have hrest : 0 ≤ (count : Int) * topFace sides := by
      exact_mod_cast Nat.zero_le _
    simp only [Int.natCast_add, Int.natCast_one, Int.add_mul, topFace] at h hrest
    obtain ⟨hexact, hvalue⟩ := exact64?_eq (i := sum.toInt + (r.rollDie sides).1.toInt)
      (by omega) (by omega)
    simp only [sumRolls?, sumRolls, hexact, Option.bind_some]
    rw [ih _ (by omega) (by unfold topFace; omega), hvalue, Int.add_assoc]

theorem roll?_eq (dice : Dice) (r : Roller) : dice.roll? r = some (dice.roll r) := by
  have hbound := dice.rolled_mul_topFace_lt
  obtain ⟨hlow, hhigh⟩ := sumRolls_spec dice.sides dice.rolled r
  have hzero := Int64.toInt_zero
  obtain ⟨-, hvalue⟩ := exact64?_eq (i := (sumRolls dice.sides dice.rolled r).1)
    (by omega) (by omega)
  rw [roll?, sumRolls?_eq r (by omega) (by omega), hzero, Int.zero_add, Option.map_some]
  simp only [addModifier, hvalue]
  rfl

theorem minTotal?_eq (dice : Dice) : dice.minTotal? = some dice.minTotal := by
  have hrolled := dice.rolled_eq
  obtain ⟨hexact, hvalue⟩ := exact64?_eq (i := dice.rolled) (by omega) (by omega)
  rw [minTotal?, hexact, Option.map_some, addModifier, hvalue]
  rfl

theorem maxTotal?_eq (dice : Dice) : dice.maxTotal? = some dice.maxTotal := by
  have hrolled := dice.rolled_eq
  have hsides := dice.sides.toNat_lt
  have hbound := dice.rolled_mul_topFace_lt
  have hmul : dice.rolled * dice.sides.toNat ≤ dice.rolled * topFace dice.sides :=
    Nat.mul_le_mul_left _ (Nat.le_max_right _ _)
  obtain ⟨hcount, hcount'⟩ := exact64?_eq (i := dice.rolled) (by omega) (by omega)
  obtain ⟨hfaces, hfaces'⟩ := exact64?_eq (i := dice.sides.toNat) (by omega) (by omega)
  obtain ⟨hsum, hsum'⟩ := exact64?_eq (i := dice.rolled * dice.sides.toNat) (by omega) (by omega)
  simp only [maxTotal?, hcount, hfaces, Option.bind_eq_bind, Option.bind_some, hcount', hfaces',
    hsum, addModifier, hsum']
  rfl

/-! ## Totals -/

/-- Dice of at most one side always show their lowest total. -/
theorem roll_eq_minTotal {dice : Dice} (h : dice.sides ≤ 1) (r : Roller) :
    (dice.roll r).1 = dice.minTotal := by
  have hsides := UInt32.le_iff_toNat_le.1 h
  have hone : (1 : UInt32).toNat = 1 := rfl
  have htop : topFace dice.sides = 1 := by
    unfold topFace
    omega
  obtain ⟨hlow, hhigh⟩ := sumRolls_spec dice.sides dice.rolled r
  rw [htop, Int.natCast_one, Int.mul_one] at hhigh
  show saturate64 _ = saturate64 _
  rw [Int.le_antisymm hhigh hlow]

theorem minTotal_le_roll (dice : Dice) (r : Roller) : dice.minTotal ≤ (dice.roll r).1 :=
  saturate64_mono (Int.add_le_add_right (sumRolls_spec dice.sides dice.rolled r).1 _)

theorem roll_le_maxTotal {dice : Dice} (h : dice.sides ≠ 0) (r : Roller) :
    (dice.roll r).1 ≤ dice.maxTotal := by
  have htop : topFace dice.sides = dice.sides.toNat :=
    Nat.max_eq_right (Nat.pos_of_ne_zero fun h' => h (UInt32.toNat_inj.1 h'))
  have hhigh := (sumRolls_spec dice.sides dice.rolled r).2
  rw [htop] at hhigh
  exact saturate64_mono (Int.add_le_add_right hhigh _)

/-- Dice without sides count as nothing in `maxTotal`, though each of them shows one. That makes it
too low, unless no dice are rolled or the modifier leaves no room above it. -/
theorem minTotal_le_maxTotal_iff {dice : Dice} (h : dice.sides = 0) :
    dice.minTotal ≤ dice.maxTotal ↔ dice.count = 0 ∨ dice.modifier = Int64.maxValue := by
  have hrolled := dice.rolled_eq
  have hlow := dice.modifier.le_toInt
  have hhigh := dice.modifier.toInt_lt
  have hsides : dice.sides.toNat = 0 := by rw [h]; rfl
  have hcount : dice.count = 0 ↔ dice.count.toNat = 0 := UInt32.toNat_inj.symm
  rw [hcount, eq_maxValue_iff, Int64.le_iff_toInt_le, maxTotal, minTotal, toInt_saturate64,
    toInt_saturate64, hsides]
  omega

/-- A roll never falls below `minTotal`, and none of the three totals overflows 64 bits before the
modifier is added. A roll is at most `maxTotal` exactly if the dice have a side, or none is rolled,
or the modifier is the greatest one already. -/
theorem rolls_between_totals (dice : Dice) (r : Roller) :
    dice.minTotal ≤ (dice.roll r).1 ∧
    ((dice.roll r).1 ≤ dice.maxTotal ↔
      dice.sides ≠ 0 ∨ dice.count = 0 ∨ dice.modifier = Int64.maxValue) ∧
    dice.roll? r = some (dice.roll r) ∧
    dice.minTotal? = some dice.minTotal ∧ dice.maxTotal? = some dice.maxTotal := by
  refine ⟨dice.minTotal_le_roll r, ?_, dice.roll?_eq r, dice.minTotal?_eq, dice.maxTotal?_eq⟩
  by_cases hsides : dice.sides = 0
  · have hle : dice.sides ≤ 1 := by rw [hsides]; decide
    rw [roll_eq_minTotal hle, minTotal_le_maxTotal_iff hsides]
    simp [hsides]
  · simp [hsides, roll_le_maxTotal hsides r]

/-- One die without sides shows one, where `maxTotal` is zero. -/
theorem roll_exceeds_maxTotal :
    let dice : Dice := ⟨1, 0, 0⟩
    (dice.roll (.new 0)).1 = 1 ∧ dice.maxTotal = 0 ∧ ¬(dice.roll (.new 0)).1 ≤ dice.maxTotal := by
  decide

end Dice

end Encounter
