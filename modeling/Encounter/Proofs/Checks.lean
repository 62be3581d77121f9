import Encounter.Trigger.SkillCheck

/-!
# Easier checks

A check rolls a die of twenty once or twice. The first roll is the same in every mode, since it is
made with the same dice, so the mode only tells what a second one may do to it
(`Roller.rollD20_mono`). Totals that stop at the limits of 64 bits are still in order, and so a
check that is nowhere harder than one that passes, passes too (`SkillCheck.attempt_mono`).
`SkillCheck.easier_checks_pass` says this of each thing that can be made easier.
-/

set_option autoImplicit false

namespace Encounter

/-! ## The better and the worse of two rolls -/

/-- The modes in the order of what they promise. -/
def RollMode.rank : RollMode → Nat
  | .disadvantage => 0
  | .normal => 1
  | .advantage => 2

/-- With the same dice, a mode that promises more never rolls less. -/
theorem Roller.rollD20_mono {mode mode' : RollMode} (h : mode.rank ≤ mode'.rank) (r : Roller) :
    (r.rollD20 mode).1.toInt ≤ (r.rollD20 mode').1.toInt := by
  cases mode <;> cases mode' <;> simp [RollMode.rank] at h <;>
    simp only [rollD20, toInt_max, toInt_min] <;> omega

/-! ## Checks -/

namespace SkillCheck

variable {check check' : SkillCheck} {stats stats' : Stats} {mode mode' : RollMode} {r : Roller}

/-- The roll of a check with the modifier of its skill. -/
def total (check : SkillCheck) (stats : Stats) (mode : RollMode) (r : Roller) : Int64 :=
  saturate64 ((r.rollD20 mode).1.toInt + (check.modifier stats).toInt)

/-- Is the outcome settled without a roll? -/
def isAuto (check : SkillCheck) : Bool :=
  check.autoPass || check.autoFail

theorem attempt_of_auto (h : check.isAuto = true) :
    check.attempt stats mode r = (check.autoPass, r) := by
  unfold isAuto at h
  unfold attempt
  cases hpass : check.autoPass <;> simp_all

theorem attempt_of_roll (h : check.isAuto = false) :
    check.attempt stats mode r =
      (decide (check.difficulty ≤ check.total stats mode r), (r.rollD20 mode).2) := by
  rw [isAuto, Bool.or_eq_false_iff] at h
  rw [attempt, h.1, h.2]
  rfl

theorem modifier_insert (m : Int64) : check.modifier (stats.insert check.skill m) = m := by
  simp [modifier]

theorem total_mono (hmode : mode.rank ≤ mode'.rank)
    (hmodifier : check.modifier stats ≤ check'.modifier stats') :
    check.total stats mode r ≤ check'.total stats' mode' r :=
  saturate64_mono (Int.add_le_add (r.rollD20_mono hmode) (Int64.le_iff_toInt_le.1 hmodifier))

/-- A check that is nowhere harder than one that passes, passes too. -/
theorem attempt_mono (hpass : check'.autoPass = check.autoPass)
    (hfail : check'.autoFail = check.autoFail) (hmode : mode.rank ≤ mode'.rank)
    (hdifficulty : check'.difficulty ≤ check.difficulty)
    (hmodifier : check.modifier stats ≤ check'.modifier stats')
    (h : (check.attempt stats mode r).1 = true) : (check'.attempt stats' mode' r).1 = true := by
  have hauto' : check'.isAuto = check.isAuto := by rw [isAuto, isAuto, hpass, hfail]
  cases hauto : check.isAuto with
  | true =>
    rw [attempt_of_auto hauto] at h
    rw [attempt_of_auto (hauto'.trans hauto), hpass]
    exact h
  | false =>
    rw [attempt_of_roll hauto, decide_eq_true_eq] at h
    rw [attempt_of_roll (hauto'.trans hauto), decide_eq_true_eq]
    calc check'.difficulty
      _ ≤ check.difficulty := hdifficulty
      _ ≤ check.total stats mode r := h
      _ ≤ check'.total stats' mode' r := total_mono hmode hmodifier

/-- With the same dice, a check that passes with disadvantage passes without, and one that passes
without passes with advantage. In any mode, a check that passes still does if the difficulty is
lower, or the modifier of its skill is higher. -/
theorem easier_checks_pass (check : SkillCheck) (stats : Stats) (r : Roller) :
    ((check.attempt stats .disadvantage r).1 = true → (check.attempt stats .normal r).1 = true) ∧
    ((check.attempt stats .normal r).1 = true → (check.attempt stats .advantage r).1 = true) ∧
    ∀ mode, (check.attempt stats mode r).1 = true →
      (∀ difficulty ≤ check.difficulty,
        ({ check with difficulty }.attempt stats mode r).1 = true) ∧
      (∀ stats', check.modifier stats ≤ check.modifier stats' →
        (check.attempt stats' mode r).1 = true) ∧
      ∀ modifier, check.modifier stats ≤ modifier →
        (check.attempt (stats.insert check.skill modifier) mode r).1 = true := by
  refine ⟨fun h => ?_, fun h => ?_, fun mode h => ⟨fun difficulty hlower => ?_,
    fun stats' hhigher => ?_, fun modifier hhigher => ?_⟩⟩
  · exact attempt_mono rfl rfl (by decide) (Int64.le_refl _) (Int64.le_refl _) h
  · exact attempt_mono rfl rfl (by decide) (Int64.le_refl _) (Int64.le_refl _) h
  · refine attempt_mono ?_ ?_ (Nat.le_refl _) hlower (Int64.le_refl _) h <;> rfl
  · exact attempt_mono rfl rfl (Nat.le_refl _) (Int64.le_refl _) hhigher h
  · refine attempt_mono rfl rfl (Nat.le_refl _) (Int64.le_refl _) ?_ h
    rwa [modifier_insert]

/-- At the limit of 64 bits: the rolls are 14 and 15, and the lower one just reaches the greatest
difficulty. The higher one and a higher modifier would reach beyond it. -/
theorem easier_checks_pass_limit :
    let check : SkillCheck := { skill := "stealth", difficulty := 9223372036854775807 }
    let stats : Stats := (∅ : Stats).insert "stealth" 9223372036854775793
    (check.attempt stats .disadvantage (.new 0)).1 = true ∧
    (check.attempt stats .normal (.new 0)).1 = true ∧
    (check.attempt stats .advantage (.new 0)).1 = true ∧
    ({ check with difficulty := -9223372036854775808 }.attempt stats .advantage (.new 0)).1 = true ∧
    (check.attempt (stats.insert "stealth" 9223372036854775807) .advantage (.new 0)).1 = true := by
  intro check stats
  obtain ⟨hnormal, hadvantage, heasier⟩ := easier_checks_pass check stats (.new 0)
  have hpasses : (check.attempt stats .disadvantage (.new 0)).1 = true := by decide +kernel
  obtain ⟨hlower, -, hhigher⟩ := heasier .advantage (hadvantage (hnormal hpasses))
  exact ⟨hpasses, hnormal hpasses, hadvantage (hnormal hpasses), hlower _ (by decide),
    hhigher _ (by decide +kernel)⟩

end SkillCheck

end Encounter
