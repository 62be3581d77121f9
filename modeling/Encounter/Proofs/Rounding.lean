import Encounter.Number.Binary64
import Mathlib.Algebra.Order.Field.Basic
import Mathlib.Algebra.Order.Field.Power
import Mathlib.Data.Rat.Cast.Order
import Mathlib.Tactic.FieldSimp
import Mathlib.Tactic.Linarith
import Mathlib.Tactic.NormNum
import Mathlib.Tactic.Positivity
import Mathlib.Tactic.Ring

/-!
# What rounding to a half-even neighbour keeps

`NearestEven q r` says what a number is rounded to. There is one such `r` (`NearestEven.unique`),
it grows with `q` (`NearestEven.mono`), and it changes its sign with `q` (`NearestEven.neg`).
`roundHalfEven` computes it.

A number of the 64-bit format that stands for a quotient is off by half a unit of its last place at
most (`Binary64.abs_sub_magnitude_nearest`) and not at all if the quotient has few enough binary
digits (`Binary64.magnitude_nearest_of_dyadic`). So rounding such a number to a whole one gives
what rounding the quotient itself gives, as long as the quotient and its denominator are small
(`Binary64.nearestEven_of_nearest`): a half is kept exactly, and anything else is farther from a
half than the error.
-/

set_option autoImplicit false

namespace Encounter

/-! ## Rounding to a whole number -/

/-- The whole number `r` is nearest to `q`; of two that are equally near it is the even one. -/
structure NearestEven (q : ℚ) (r : ℤ) : Prop where
  near : |q - r| ≤ 1 / 2
  even : |q - r| = 1 / 2 → Even r

section
variable {q q' : ℚ} {r r' : ℤ}

theorem nearestEven_of_lt (h : |q - r| < 1 / 2) : NearestEven q r :=
  ⟨h.le, fun heq => absurd heq h.ne⟩

theorem nearestEven_intCast (r : ℤ) : NearestEven r r :=
  nearestEven_of_lt (by norm_num)

namespace NearestEven

theorem le_add_half (h : NearestEven q r) : q ≤ r + 1 / 2 := by
  have := (abs_le.1 h.near).2
  linarith

theorem sub_half_le (h : NearestEven q r) : (r : ℚ) - 1 / 2 ≤ q := by
  have := (abs_le.1 h.near).1
  linarith

theorem neg (h : NearestEven q r) : NearestEven (-q) (-r) := by
  have habs : |-q - (-r : ℤ)| = |q - r| := by
    rw [Int.cast_neg, neg_sub_neg, abs_sub_comm]
  exact ⟨habs ▸ h.near, fun heq => (h.even (habs ▸ heq)).neg⟩

theorem mono (h : NearestEven q r) (h' : NearestEven q' r') (hq : q ≤ q') : r ≤ r' := by
  by_contra hlt
  have hsucc : (r' : ℚ) + 1 ≤ r := by exact_mod_cast not_le.1 hlt
  have hlow := h.sub_half_le
  have hhigh := h'.le_add_half
  -- there is no room left: both numbers are the same half, between neighbours
  have hr : (r : ℚ) = r' + 1 := by linarith
  have heven : Even r := h.even (by rw [show q - r = -(1 / 2) by linarith]; norm_num)
  have heven' : Even r' := h'.even (by rw [show q' - r' = 1 / 2 by linarith]; norm_num)
  rw [show r = r' + 1 by exact_mod_cast hr] at heven
  exact Int.even_add_one.1 heven heven'

theorem unique (h : NearestEven q r) (h' : NearestEven q r') : r = r' :=
  le_antisymm (h.mono h' le_rfl) (h'.mono h le_rfl)

theorem eq_of_intCast {i : ℤ} (h : NearestEven i r) : r = i :=
  h.unique (nearestEven_intCast i)

/-- Whole bounds of a number are bounds of what it is rounded to. -/
theorem le_of_le {i : ℤ} (h : NearestEven q r) (hq : q ≤ i) : r ≤ i :=
  h.mono (nearestEven_intCast i) hq

theorem ge_of_ge {i : ℤ} (h : NearestEven q r) (hq : (i : ℚ) ≤ q) : i ≤ r :=
  (nearestEven_intCast i).mono h hq

/-- Numbers less than a whole step apart are rounded to neighbours at most. -/
theorem le_add_one (h : NearestEven q r) (h' : NearestEven q' r') (hq : q' < q + 1) :
    r' ≤ r + 1 := by
  have hlow := h'.sub_half_le
  have hhigh := h.le_add_half
  have hlt : (r' : ℚ) < r + 2 := by linarith
  have hlt' : r' < r + 2 := by exact_mod_cast hlt
  omega

/-- A whole shift comes through rounding, unless it is odd and meets a tie. -/
theorem add_intCast_iff {i : ℤ} (h : NearestEven q r) :
    NearestEven (q + i) (r + i : ℤ) ↔ (|q - r| = 1 / 2 → Even i) := by
  have habs : |q + i - (r + i : ℤ)| = |q - r| := by
    rw [Int.cast_add, add_sub_add_right_eq_sub]
  constructor
  · intro h' htie
    exact (Int.even_add.1 (h'.even (habs.trans htie))).1 (h.even htie)
  · intro heven
    refine ⟨habs ▸ h.near, fun htie => ?_⟩
    exact (h.even (habs ▸ htie)).add (heven (habs ▸ htie))

end NearestEven

end

section
variable {i : ℤ} {rest : ℚ}

theorem nearestEven_add_of_low (hrest : 0 ≤ rest) (h : rest < 1 / 2 ∨ rest = 1 / 2 ∧ Even i) :
    NearestEven (i + rest) i := by
  have hdiff : |(i : ℚ) + rest - i| = rest := by
    rw [add_sub_cancel_left, abs_of_nonneg hrest]
  rcases h with hlt | ⟨htie, heven⟩
  · exact nearestEven_of_lt (by rwa [hdiff])
  · exact ⟨by rw [hdiff, htie], fun _ => heven⟩

theorem nearestEven_add_of_high (hrest : rest < 1) (h : 1 / 2 < rest ∨ rest = 1 / 2 ∧ ¬Even i) :
    NearestEven (i + rest) (i + 1 : ℤ) := by
  have hdiff : |(i : ℚ) + rest - (i + 1 : ℤ)| = 1 - rest := by
    rw [Int.cast_add, Int.cast_one, add_sub_add_left_eq_sub, abs_sub_comm,
      abs_of_nonneg (by linarith)]
  rcases h with hlt | ⟨htie, hodd⟩
  · exact nearestEven_of_lt (by rw [hdiff]; linarith)
  · exact ⟨by rw [hdiff]; linarith, fun _ => Int.even_add_one.2 hodd⟩

end

/-- The quotient as its whole part and a rest. -/
theorem natCast_div_eq (num : ℕ) {den : ℕ} (hden : 0 < den) :
    (num : ℚ) / den = ((num / den : ℕ) : ℤ) + ((num % den : ℕ) : ℚ) / den := by
  have hne : (den : ℚ) ≠ 0 := by positivity
  rw [Int.cast_natCast]
  field_simp
  exact_mod_cast (Nat.div_add_mod num den).symm

theorem nearestEven_roundHalfEven (num : ℕ) {den : ℕ} (hden : 0 < den) :
    NearestEven (num / den) (roundHalfEven num den : ℕ) := by
  have hpos : (0 : ℚ) < den := by exact_mod_cast hden
  have hlt : ((num % den : ℕ) : ℚ) / den < 1 / 2 ↔ 2 * (num % den) < den := by
    rw [div_lt_div_iff₀ hpos two_pos, one_mul, mul_comm]
    exact_mod_cast Iff.rfl
  have heq : ((num % den : ℕ) : ℚ) / den = 1 / 2 ↔ 2 * (num % den) = den := by
    rw [div_eq_div_iff hpos.ne' two_ne_zero, one_mul, mul_comm]
    exact_mod_cast Iff.rfl
  have heven : Even ((num / den : ℕ) : ℤ) ↔ num / den % 2 = 0 := by
    rw [Int.even_coe_nat, Nat.even_iff]
  rw [natCast_div_eq num hden]
  unfold roundHalfEven
  dsimp only
  split
  next hdown =>
    refine nearestEven_add_of_low (by positivity) ?_
    rwa [hlt, heq, heven]
  next hup =>
    refine nearestEven_add_of_high ((div_lt_one hpos).2 ?_) ?_
    · exact_mod_cast Nat.mod_lt num hden
    · rw [← not_le, le_iff_lt_or_eq, hlt, heq, heven]
      tauto

namespace Binary64

/-! ## The nearest number of the format -/

/-- The value of a magnitude `mantissa · 2 ^ exponent`. -/
def magnitude (x : ℕ × ℤ) : ℚ :=
  x.1 * 2 ^ x.2

theorem scale_den_pos {num den : ℕ} (hden : 0 < den) (e : ℤ) : 0 < (scale num den e).2 :=
  Nat.mul_pos hden (Nat.pow_pos two_pos)

theorem scale_div (num den : ℕ) (e : ℤ) :
    ((scale num den e).1 : ℚ) / (scale num den e).2 = num / den * 2 ^ (-e) := by
  have hsplit : (2 : ℚ) ^ (-e) = 2 ^ (-e).toNat / 2 ^ e.toNat := by
    rw [← zpow_natCast, ← zpow_natCast, ← zpow_sub₀ two_ne_zero]
    congr 1
    omega
  show ((num * 2 ^ (-e).toNat : ℕ) : ℚ) / (den * 2 ^ e.toNat : ℕ) = _
  push_cast
  rw [hsplit, mul_div_mul_comm]

theorem zpow_log2_le_div {num den : ℕ} (hnum : 0 < num) (hden : 0 < den) :
    (2 : ℚ) ^ ((num.log2 : ℤ) - den.log2 - 1) ≤ num / den := by
  have hlow : (2 : ℚ) ^ num.log2 ≤ num := by exact_mod_cast Nat.log2_self_le hnum.ne'
  have hhigh : (den : ℚ) ≤ 2 ^ (den.log2 + 1) := by exact_mod_cast Nat.lt_log2_self.le
  rw [le_div_iff₀ (by exact_mod_cast hden)]
  calc (2 : ℚ) ^ ((num.log2 : ℤ) - den.log2 - 1) * den
      ≤ 2 ^ ((num.log2 : ℤ) - den.log2 - 1) * 2 ^ (den.log2 + 1) :=
        mul_le_mul_of_nonneg_left hhigh (by positivity)
    _ = 2 ^ num.log2 := by
        rw [← zpow_natCast, ← zpow_natCast, ← zpow_add₀ two_ne_zero]
        congr 1
        omega
    _ ≤ num := hlow

/-- The exponent leaves 53 bits before the point, unless it is the least one. -/
theorem exponentOf_spec {num den : ℕ} (hnum : 0 < num) (hden : 0 < den) :
    exponentOf num den = leastExponent ∨
      (2 : ℚ) ^ (52 : ℤ) ≤ num / den * 2 ^ (-exponentOf num den) := by
  obtain ⟨guess, hguess⟩ : ∃ guess : ℤ, guess = num.log2 - den.log2 - 53 := ⟨_, rfl⟩
  have hlow : (2 : ℚ) ^ (52 : ℤ) ≤ num / den * 2 ^ (-guess) := by
    calc (2 : ℚ) ^ (52 : ℤ) = 2 ^ ((num.log2 : ℤ) - den.log2 - 1) * 2 ^ (-guess) := by
          rw [← zpow_add₀ two_ne_zero]
          congr 1
          omega
      _ ≤ num / den * 2 ^ (-guess) :=
          mul_le_mul_of_nonneg_right (zpow_log2_le_div hnum hden) (by positivity)
  have hexponent : exponentOf num den = max leastExponent
      (if (scale num den guess).1 / (scale num den guess).2 < 2 ^ 53 then guess
        else guess + 1) := by
    rw [hguess]
    rfl
  rw [hexponent]
  rcases max_choice leastExponent (if (scale num den guess).1 / (scale num den guess).2 < 2 ^ 53
    then guess else guess + 1) with hmax | hmax <;> rw [hmax]
  · exact .inl rfl
  · right
    split
    next => exact hlow
    next hlarge =>
      have hfloor : ((2 ^ 53 : ℕ) : ℚ) ≤ num / den * 2 ^ (-guess) := by
        rw [← scale_div, le_div_iff₀ (by exact_mod_cast scale_den_pos hden guess)]
        exact_mod_cast (Nat.le_div_iff_mul_le (scale_den_pos hden guess)).1 (not_lt.1 hlarge)
      rw [neg_add, zpow_add₀ two_ne_zero, ← mul_assoc]
      norm_num at hfloor ⊢
      linarith

/-- The nearest number of the format, up to its exponent: the quotient is rounded on the grid of
that exponent. -/
theorem exists_magnitude_nearest {num den : ℕ} (hnum : 0 < num) (hden : 0 < den) :
    ∃ (e : ℤ) (m : ℤ), NearestEven (num / den * 2 ^ (-e)) m ∧
      magnitude (nearest num den) = m * 2 ^ e ∧
        (e = leastExponent ∨ (2 : ℚ) ^ (52 : ℤ) ≤ num / den * 2 ^ (-e)) := by
  refine ⟨exponentOf num den, roundHalfEven (scale num den (exponentOf num den)).1
    (scale num den (exponentOf num den)).2, ?_, ?_, exponentOf_spec hnum hden⟩
  · rw [← scale_div]
    exact nearestEven_roundHalfEven _ (scale_den_pos hden _)
  · unfold nearest
    rw [if_neg hnum.ne']
    dsimp only
    split
    next hcarry =>
      -- a mantissa of 54 bits gives way to the next exponent
      rw [hcarry, magnitude, zpow_add₀ two_ne_zero]
      norm_num
      ring
    next => rfl

/-- The exponent is small for a small quotient. -/
theorem lt_of_zpow_le {e k : ℤ} {q : ℚ} (h : (2 : ℚ) ^ (52 : ℤ) ≤ q * 2 ^ (-e))
    (hq : q < 2 ^ k) : e + 52 < k := by
  have hpos : (0 : ℚ) < 2 ^ e := by positivity
  have hlow : (2 : ℚ) ^ (e + 52) ≤ q := by
    rw [zpow_neg, ← div_eq_mul_inv, le_div_iff₀ hpos] at h
    rwa [add_comm, zpow_add₀ two_ne_zero]
  exact (zpow_lt_zpow_iff_right₀ one_lt_two).1 (hlow.trans_lt hq)

/-- A quotient of at most 53 binary digits is a number of the format. -/
theorem magnitude_nearest_of_dyadic {num den m : ℕ} {k : ℤ} (hden : 0 < den)
    (hq : (num : ℚ) / den = m * 2 ^ k) (hm : m < 2 ^ 53) (hk : leastExponent ≤ k) :
    magnitude (nearest num den) = num / den := by
  obtain rfl | hnum := Nat.eq_zero_or_pos num
  · simp [nearest, magnitude]
  obtain ⟨e, r, hround, hvalue, hexp⟩ := exists_magnitude_nearest hnum hden
  -- the last place of the quotient is on the grid
  have hle : e ≤ k := by
    rcases hexp with rfl | hlow
    · exact hk
    · have hlt : (num : ℚ) / den < 2 ^ (k + 53) := by
        rw [hq, add_comm, zpow_add₀ two_ne_zero]
        exact mul_lt_mul_of_pos_right (by exact_mod_cast hm) (by positivity)
      have := lt_of_zpow_le hlow hlt
      omega
  have hwhole : (num : ℚ) / den * 2 ^ (-e) = ((m * 2 ^ (k - e).toNat : ℕ) : ℤ) := by
    rw [hq, mul_assoc, ← zpow_add₀ two_ne_zero]
    push_cast
    rw [← zpow_natCast]
    congr 2
    omega
  rw [hwhole] at hround
  rw [hvalue, hround.eq_of_intCast, ← hwhole, mul_assoc, ← zpow_add₀ two_ne_zero,
    neg_add_cancel, zpow_zero, mul_one]

/-- The nearest number of the format is off by half a unit of its last place at most. -/
theorem abs_sub_magnitude_nearest {num den : ℕ} {k : ℤ} (hden : 0 < den)
    (hk : leastExponent + 53 ≤ k) (hq : (num : ℚ) / den < 2 ^ k) :
    |(num : ℚ) / den - magnitude (nearest num den)| ≤ (2 : ℚ) ^ (k - 54) := by
  obtain rfl | hnum := Nat.eq_zero_or_pos num
  · simp [nearest, magnitude]
    positivity
  obtain ⟨e, r, hround, hvalue, hexp⟩ := exists_magnitude_nearest hnum hden
  have hle : e ≤ k - 53 := by
    rcases hexp with rfl | hlow
    · omega
    · have := lt_of_zpow_le hlow hq
      omega
  have hpos : (0 : ℚ) < 2 ^ e := by positivity
  calc |(num : ℚ) / den - magnitude (nearest num den)|
      = |(num : ℚ) / den * 2 ^ (-e) - r| * 2 ^ e := by
        rw [hvalue, ← abs_of_pos hpos, ← abs_mul, abs_of_pos hpos, sub_mul, mul_assoc,
          ← zpow_add₀ two_ne_zero, neg_add_cancel, zpow_zero, mul_one]
    _ ≤ 1 / 2 * 2 ^ e := mul_le_mul_of_nonneg_right hround.near hpos.le
    _ = (2 : ℚ) ^ (e - 1) := by
        rw [zpow_sub₀ two_ne_zero, zpow_one]
        ring
    _ ≤ (2 : ℚ) ^ (k - 54) := zpow_le_zpow_right₀ one_le_two (by omega)

/-- A quotient that is no half keeps a distance from the halves, the smaller the denominator the
larger. -/
theorem abs_sub_add_le_half {num den : ℕ} {r : ℤ} (hden : 0 < den) (h : ¬den ∣ 2 * num)
    (hr : |(num : ℚ) / den - r| ≤ 1 / 2) : |(num : ℚ) / den - r| + 1 / (2 * den) ≤ 1 / 2 := by
  have hpos : (0 : ℚ) < den := by exact_mod_cast hden
  obtain ⟨n, hn⟩ : ∃ n, n = (num - r * den : ℤ).natAbs := ⟨_, rfl⟩
  have habs : |(num : ℚ) / den - r| = n / den := by
    rw [div_sub' hpos.ne', abs_div, abs_of_pos hpos, hn, Nat.cast_natAbs]
    push_cast
    rw [mul_comm]
  have hle : 2 * n ≤ den := by
    rw [habs, div_le_div_iff₀ hpos two_pos, one_mul, mul_comm] at hr
    exact_mod_cast hr
  have hne : 2 * n ≠ den := by
    rintro heq
    refine h (Int.natCast_dvd_natCast.1 ?_)
    have heq' : (2 * n : ℤ) = den := by exact_mod_cast heq
    rcases Int.natAbs_eq (num - r * den : ℤ) with hsign | hsign <;> rw [← hn] at hsign
    · exact ⟨2 * r + 1, by push_cast; linarith⟩
    · exact ⟨2 * r - 1, by push_cast; linarith⟩
  have hlt : (2 * n + 1 : ℚ) ≤ den := by exact_mod_cast Nat.lt_of_le_of_ne hle hne
  rw [habs, show (n : ℚ) / den + 1 / (2 * den) = (2 * n + 1) / (2 * den) by field_simp,
    div_le_div_iff₀ (by positivity) two_pos]
  linarith

/-- A small quotient with a small denominator is rounded to the same whole number whether or not it
is brought to the format first. -/
theorem nearestEven_of_nearest {num den n d : ℕ} {r : ℤ} (hden : 0 < den) (hd : 0 < d)
    (heq : (num : ℚ) / den = n / d) (hsmall : d < 2 ^ 26) (hlt : (n : ℚ) / d < 2 ^ (26 : ℤ))
    (h : NearestEven (magnitude (nearest num den)) r) : NearestEven (n / d) r := by
  have hpos : (0 : ℚ) < d := by exact_mod_cast hd
  by_cases hhalf : d ∣ 2 * n
  · -- halves and whole numbers are numbers of the format
    obtain ⟨m, hm⟩ := hhalf
    have hdyadic : (n : ℚ) / d = m * 2 ^ (-1 : ℤ) := by
      have hm' : (2 * n : ℚ) = d * m := by exact_mod_cast hm
      rw [div_eq_iff hpos.ne', zpow_neg_one]
      linarith
    have hbits : m < 2 ^ 53 := by
      rw [hdyadic, zpow_neg_one, show (2 : ℚ) ^ (26 : ℤ) = 67108864 by norm_num] at hlt
      have hbits' : (m : ℚ) < (134217728 : ℕ) := by
        push_cast
        linarith
      exact (Nat.cast_lt.1 hbits').trans (by norm_num)
    rwa [magnitude_nearest_of_dyadic hden (heq.trans hdyadic) hbits (by decide), heq] at h
  · have hexact := nearestEven_roundHalfEven n hd
    have hgap := abs_sub_add_le_half hd hhalf hexact.near
    have herror := abs_sub_magnitude_nearest hden (k := 26) (by decide) (heq ▸ hlt)
    have hwide : (2 : ℚ) ^ (26 - 54 : ℤ) < 1 / (2 * d) := by
      have hsmall' : (d : ℚ) < 2 ^ 26 := by exact_mod_cast hsmall
      rw [lt_div_iff₀ (by positivity), show (2 : ℚ) ^ (26 - 54 : ℤ) = 1 / 268435456 by norm_num]
      linarith
    have hclose : NearestEven (magnitude (nearest num den)) (roundHalfEven n d : ℕ) := by
      refine nearestEven_of_lt ?_
      rw [heq, abs_sub_comm] at herror
      have := abs_sub_le (magnitude (nearest num den)) ((n : ℚ) / d)
        (((roundHalfEven n d : ℕ) : ℤ) : ℚ)
      linarith
    rwa [h.unique hclose]

end Binary64

end Encounter
