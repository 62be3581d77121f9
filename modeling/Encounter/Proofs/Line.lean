import Encounter.Map.Sight
import Encounter.Proofs.Rounding
import Mathlib.Data.List.Nodup
import Mathlib.Data.List.Range

/-!
# The shape of a line of sight

As long as the ends of a line are less than `2 ^ 26` steps apart, interpolating in numbers of the
64-bit format is interpolating exactly (`Sight.nearestEven_interpolate`). What is known of rounding
then gives one coordinate of one step: the ends, the longer axis, the bounds and the way to the next
step. A cell is two such coordinates, none of them cut off (`Sight.delta_cell`), and the line with
its ends is the cells of all steps (`Sight.ends_line`). `Sight.line_joins` collects the shape of the
whole line.
-/

set_option autoImplicit false

namespace Encounter.Sight

open Binary64 (magnitude nearest divRound scale)

/-! ## Interpolation is exact -/

theorem nearestEven_roundToWhole (x : ℕ × ℤ) : NearestEven (magnitude x) (roundToWhole x) := by
  have hvalue : ((scale x.1 1 (-x.2)).1 : ℚ) / (scale x.1 1 (-x.2)).2 = magnitude x := by
    rw [Binary64.scale_div, Nat.cast_one, div_one, neg_neg, magnitude]
  rw [← hvalue]
  exact nearestEven_roundHalfEven _ (Binary64.scale_den_pos one_pos _)

/-- A step of the line, whatever the binary format does to it, is the exact one, rounded. -/
theorem nearestEven_interpolate {delta : ℤ} {step steps : ℕ} (hdelta : delta.natAbs ≤ steps)
    (hstep : step ≤ steps) (hpos : 0 < steps) (hsmall : steps < 2 ^ 26) :
    NearestEven (delta * step / steps) (interpolate delta step steps) := by
  obtain ⟨n, hn⟩ : ∃ n, n = delta.natAbs * step := ⟨_, rfl⟩
  have hproduct : magnitude (nearest n 1) = n := by
    have hlt : n < 2 ^ 53 := by
      have := Nat.mul_le_mul (hdelta.trans hsmall.le) (hstep.trans hsmall.le)
      omega
    have hdyadic : (n : ℚ) / (1 : ℕ) = n * 2 ^ (0 : ℤ) := by simp
    rw [Binary64.magnitude_nearest_of_dyadic one_pos hdyadic hlt (by decide)]
    simp
  have hquotient : NearestEven (n / steps) (roundToWhole (divRound (nearest n 1) (steps, 0))) := by
    have hvalue : ((scale (nearest n 1).1 steps (0 - (nearest n 1).2)).1 : ℚ) /
        (scale (nearest n 1).1 steps (0 - (nearest n 1).2)).2 = n / steps := by
      rw [Binary64.scale_div, zero_sub, neg_neg, div_mul_eq_mul_div]
      exact congrArg (· / (steps : ℚ)) hproduct
    have hlt : (n : ℚ) / steps < 2 ^ (26 : ℤ) := by
      have hle : n ≤ steps * step := hn ▸ Nat.mul_le_mul_right step hdelta
      have hsteps : (0 : ℚ) < steps := by exact_mod_cast hpos
      calc (n : ℚ) / steps ≤ step := by
            rw [div_le_iff₀ hsteps, mul_comm]
            exact_mod_cast hle
        _ < 2 ^ (26 : ℤ) := by exact_mod_cast hstep.trans_lt hsmall
    exact Binary64.nearestEven_of_nearest (Binary64.scale_den_pos hpos _) hpos hvalue hsmall hlt
      (nearestEven_roundToWhole _)
  have hcast : ((delta.natAbs : ℤ) : ℚ) * step / steps = n / steps := by
    rw [hn, Nat.cast_mul, Int.cast_natCast]
  unfold interpolate
  dsimp only
  rw [← hn]
  split
  next hneg =>
    have hvalue : (delta : ℚ) * step / steps = -((n : ℚ) / steps) := by
      rw [← hcast, Int.ofNat_natAbs_of_nonpos hneg.le, Int.cast_neg]
      ring
    rw [hvalue]
    exact hquotient.neg
  next hnonneg =>
    rwa [← hcast, Int.natAbs_of_nonneg (not_lt.1 hnonneg)] at hquotient

/-! ## One coordinate -/

section
variable {delta : ℤ} {step steps : ℕ}

theorem interpolate_zero (hdelta : delta.natAbs ≤ steps) (hpos : 0 < steps)
    (hsmall : steps < 2 ^ 26) : interpolate delta 0 steps = 0 := by
  have h := nearestEven_interpolate hdelta (Nat.zero_le steps) hpos hsmall
  rw [Nat.cast_zero, mul_zero, zero_div, ← Int.cast_zero] at h
  exact h.eq_of_intCast

theorem interpolate_self (hdelta : delta.natAbs ≤ steps) (hpos : 0 < steps)
    (hsmall : steps < 2 ^ 26) : interpolate delta steps steps = delta := by
  have h := nearestEven_interpolate hdelta le_rfl hpos hsmall
  rw [mul_div_assoc, div_self (by exact_mod_cast hpos.ne'), mul_one] at h
  exact h.eq_of_intCast

/-- The longer axis is not rounded. -/
theorem interpolate_of_longer (hdelta : delta.natAbs = steps) (hstep : step ≤ steps)
    (hpos : 0 < steps) (hsmall : steps < 2 ^ 26) :
    interpolate delta step steps = delta.sign * step := by
  have h := nearestEven_interpolate hdelta.le hstep hpos hsmall
  have hexact : (delta : ℚ) * step / steps = (delta.sign * step : ℤ) := by
    have hsteps : (steps : ℚ) ≠ 0 := by exact_mod_cast hpos.ne'
    have hsign : (delta : ℚ) = delta.sign * steps := by
      rw [← hdelta, ← Int.cast_natCast, ← Int.cast_mul, Int.sign_mul_natAbs]
    rw [div_eq_iff hsteps, hsign]
    push_cast
    ring
  rw [hexact] at h
  exact h.eq_of_intCast

/-- An interpolated coordinate lies between the ends. -/
theorem interpolate_between (hdelta : delta.natAbs ≤ steps) (hstep : step ≤ steps)
    (hpos : 0 < steps) (hsmall : steps < 2 ^ 26) :
    min 0 delta ≤ interpolate delta step steps ∧
      interpolate delta step steps ≤ max 0 delta := by
  have h := nearestEven_interpolate hdelta hstep hpos hsmall
  have hsteps : (0 : ℚ) < steps := by exact_mod_cast hpos
  have hstep' : (step : ℚ) ≤ steps := by exact_mod_cast hstep
  constructor
  · refine h.ge_of_ge ((le_div_iff₀ hsteps).2 ?_)
    rcases le_total 0 delta with hdelta | hdelta
    · have hdelta' : (0 : ℚ) ≤ delta := by exact_mod_cast hdelta
      rw [min_eq_left hdelta, Int.cast_zero, zero_mul]
      positivity
    · rw [min_eq_right hdelta]
      exact mul_le_mul_of_nonpos_left hstep' (by exact_mod_cast hdelta)
  · refine h.le_of_le ((div_le_iff₀ hsteps).2 ?_)
    rcases le_total 0 delta with hdelta | hdelta
    · rw [max_eq_right hdelta]
      exact mul_le_mul_of_nonneg_left hstep' (by exact_mod_cast hdelta)
    · rw [max_eq_left hdelta, Int.cast_zero, zero_mul]
      exact mul_nonpos_of_nonpos_of_nonneg (by exact_mod_cast hdelta) step.cast_nonneg

/-- From one step to the next a coordinate changes by one at most. -/
theorem interpolate_succ (hdelta : delta.natAbs ≤ steps) (hstep : step < steps)
    (hsmall : steps < 2 ^ 26) :
    |interpolate delta (step + 1) steps - interpolate delta step steps| ≤ 1 := by
  have hpos : 0 < steps := Nat.zero_lt_of_lt hstep
  rcases hdelta.eq_or_lt with heq | hlt
  · rw [interpolate_of_longer heq hstep hpos hsmall,
      interpolate_of_longer heq hstep.le hpos hsmall, ← mul_sub, Nat.cast_succ,
      add_sub_cancel_left, mul_one]
    rcases Int.sign_trichotomy delta with hsign | hsign | hsign <;> rw [hsign] <;> norm_num
  · have h := nearestEven_interpolate hdelta hstep.le hpos hsmall
    have h' := nearestEven_interpolate hdelta (show step + 1 ≤ steps from hstep) hpos hsmall
    have hslope : |(delta : ℚ) / steps| < 1 := by
      have hsteps : (0 : ℚ) < steps := by exact_mod_cast hpos
      rw [abs_div, abs_of_pos hsteps, div_lt_one hsteps, ← Int.cast_abs, Int.abs_eq_natAbs]
      exact_mod_cast hlt
    have hnext : (delta : ℚ) * (step + 1 : ℕ) / steps = delta * step / steps + delta / steps := by
      rw [Nat.cast_succ, mul_add, mul_one, add_div]
    rw [hnext] at h'
    have hup := h.le_add_one h' (by linarith [(abs_lt.1 hslope).2])
    have hdown := h'.le_add_one h (by linarith [(abs_lt.1 hslope).1])
    rw [abs_le]
    omega

end

/-- A coordinate between two others is not cut off at the limits of the coordinates. -/
theorem delta_ofInt {a b : Int32} {r : ℤ} (hlow : min 0 (delta a b) ≤ r)
    (hhigh : r ≤ max 0 (delta a b)) : delta a (Int32.ofInt (a.toInt + r)) = r := by
  have ha := a.le_toInt
  have ha' := a.toInt_lt
  have hb := b.le_toInt
  have hb' := b.toInt_lt
  unfold delta at hlow hhigh ⊢
  rw [Int32.toInt_ofInt_of_le (by omega) (by omega)]
  omega

/-! ## The cells of a line -/

/-- How a cell lies that is `k` steps from `a` on the way to `b`: each coordinate is the whole
number nearest to where the straight line is then, and on a longer axis it is `k` steps on. -/
structure OnWay (a b : Position) (k : ℕ) (c : Position) : Prop where
  x : NearestEven (delta a.x b.x * k / steps a b) (delta a.x c.x)
  y : NearestEven (delta a.y b.y * k / steps a b) (delta a.y c.y)
  longX : (delta a.x b.x).natAbs = steps a b → delta a.x c.x = (delta a.x b.x).sign * k
  longY : (delta a.y b.y).natAbs = steps a b → delta a.y c.y = (delta a.y b.y).sign * k

/-- The cell lies in the rectangle that two positions span. -/
structure InBox (a b c : Position) : Prop where
  x : min a.x.toInt b.x.toInt ≤ c.x.toInt ∧ c.x.toInt ≤ max a.x.toInt b.x.toInt
  y : min a.y.toInt b.y.toInt ≤ c.y.toInt ∧ c.y.toInt ≤ max a.y.toInt b.y.toInt

/-- Two positions differ by one at most in each coordinate. -/
def Touches (p q : Position) : Prop :=
  |delta p.x q.x| ≤ 1 ∧ |delta p.y q.y| ≤ 1

theorem eq_of_delta {a p q : Position} (hx : delta a.x p.x = delta a.x q.x)
    (hy : delta a.y p.y = delta a.y q.y) : p = q := by
  unfold delta at hx hy
  have hx' : p.x = q.x := Int32.toInt_inj.1 (by omega)
  have hy' : p.y = q.y := Int32.toInt_inj.1 (by omega)
  cases p
  cases q
  exact congrArg₂ Position.mk hx' hy'

theorem delta_swap (a b : Int32) : delta b a = -delta a b := by
  unfold delta
  omega

theorem steps_comm (a b : Position) : steps b a = steps a b := by
  unfold steps delta
  omega

theorem eq_of_steps {a b : Position} (h : steps a b = 0) : a = b := by
  unfold steps at h
  refine eq_of_delta (a := a) ?_ ?_ <;> unfold delta at h ⊢ <;> omega

section
variable {a b : Position} {j k : ℕ}

theorem natAbs_delta_le (a b : Position) :
    (delta a.x b.x).natAbs ≤ steps a b ∧ (delta a.y b.y).natAbs ≤ steps a b :=
  ⟨le_max_left _ _, le_max_right _ _⟩

/-- One axis is the longer one, from either end: there a cell is as far from the start as it has
steps. -/
theorem exists_longer (a b : Position) : ∃ axis : Position → Int32,
    (delta (axis a) (axis b)).natAbs = steps a b ∧
    (∀ k c, OnWay a b k c → delta (axis a) (axis c) = (delta (axis a) (axis b)).sign * k) ∧
    ∀ k c, OnWay b a k c → delta (axis b) (axis c) = (delta (axis b) (axis a)).sign * k := by
  rcases max_choice (delta a.x b.x).natAbs (delta a.y b.y).natAbs with hlong | hlong
  · have hlong' : (delta b.x a.x).natAbs = steps b a := by
      rw [steps_comm, delta_swap, Int.natAbs_neg]
      exact hlong.symm
    exact ⟨Position.x, hlong.symm, fun k c h => h.longX hlong.symm, fun k c h => h.longX hlong'⟩
  · have hlong' : (delta b.y a.y).natAbs = steps b a := by
      rw [steps_comm, delta_swap, Int.natAbs_neg]
      exact hlong.symm
    exact ⟨Position.y, hlong.symm, fun k c h => h.longY hlong.symm, fun k c h => h.longY hlong'⟩

variable (hsmall : steps a b < 2 ^ 26)
include hsmall

theorem delta_cell (hpos : 0 < steps a b) (hk : k ≤ steps a b) :
    delta a.x (cell a b k).x = interpolate (delta a.x b.x) k (steps a b) ∧
      delta a.y (cell a b k).y = interpolate (delta a.y b.y) k (steps a b) := by
  obtain ⟨hx, hy⟩ := natAbs_delta_le a b
  obtain ⟨hxlow, hxhigh⟩ := interpolate_between hx hk hpos hsmall
  obtain ⟨hylow, hyhigh⟩ := interpolate_between hy hk hpos hsmall
  exact ⟨delta_ofInt hxlow hxhigh, delta_ofInt hylow hyhigh⟩

theorem cell_zero (hpos : 0 < steps a b) : cell a b 0 = a := by
  obtain ⟨hx, hy⟩ := natAbs_delta_le a b
  obtain ⟨hcx, hcy⟩ := delta_cell hsmall hpos (Nat.zero_le _)
  rw [interpolate_zero hx hpos hsmall] at hcx
  rw [interpolate_zero hy hpos hsmall] at hcy
  refine eq_of_delta (a := a) ?_ ?_
  · rw [hcx, delta, sub_self]
  · rw [hcy, delta, sub_self]

theorem cell_steps (hpos : 0 < steps a b) : cell a b (steps a b) = b := by
  obtain ⟨hx, hy⟩ := natAbs_delta_le a b
  obtain ⟨hcx, hcy⟩ := delta_cell hsmall hpos le_rfl
  rw [interpolate_self hx hpos hsmall] at hcx
  rw [interpolate_self hy hpos hsmall] at hcy
  exact eq_of_delta hcx hcy

theorem onWay_cell (hpos : 0 < steps a b) (hk : k ≤ steps a b) : OnWay a b k (cell a b k) := by
  obtain ⟨hx, hy⟩ := natAbs_delta_le a b
  obtain ⟨hcx, hcy⟩ := delta_cell hsmall hpos hk
  exact {
    x := hcx ▸ nearestEven_interpolate hx hk hpos hsmall
    y := hcy ▸ nearestEven_interpolate hy hk hpos hsmall
    longX := fun hlong => hcx ▸ interpolate_of_longer hlong hk hpos hsmall
    longY := fun hlong => hcy ▸ interpolate_of_longer hlong hk hpos hsmall }

theorem inBox_cell (hpos : 0 < steps a b) (hk : k ≤ steps a b) : InBox a b (cell a b k) := by
  obtain ⟨hx, hy⟩ := natAbs_delta_le a b
  obtain ⟨hcx, hcy⟩ := delta_cell hsmall hpos hk
  have hbx := interpolate_between hx hk hpos hsmall
  have hby := interpolate_between hy hk hpos hsmall
  rw [← hcx] at hbx
  rw [← hcy] at hby
  unfold delta at hbx hby
  constructor <;> omega

theorem touches_cell_succ (hk : k < steps a b) : Touches (cell a b k) (cell a b (k + 1)) := by
  have hpos : 0 < steps a b := Nat.zero_lt_of_lt hk
  obtain ⟨hx, hy⟩ := natAbs_delta_le a b
  obtain ⟨hcx, hcy⟩ := delta_cell hsmall hpos hk.le
  obtain ⟨hcx', hcy'⟩ := delta_cell hsmall hpos (show k + 1 ≤ steps a b from hk)
  have hsx := interpolate_succ hx hk hsmall
  have hsy := interpolate_succ hy hk hsmall
  rw [← hcx, ← hcx'] at hsx
  rw [← hcy, ← hcy'] at hsy
  unfold delta at hsx hsy
  rw [sub_sub_sub_cancel_right] at hsx hsy
  exact ⟨hsx, hsy⟩

/-- No two steps lead to one cell: the longer axis tells them apart. -/
theorem cell_inj (hpos : 0 < steps a b) (hj : j ≤ steps a b) (hk : k ≤ steps a b)
    (h : cell a b j = cell a b k) : j = k := by
  obtain ⟨axis, hlong, haxis, -⟩ := exists_longer a b
  have hplacej := haxis j _ (onWay_cell hsmall hpos hj)
  have hplacek := haxis k _ (onWay_cell hsmall hpos hk)
  rw [← h, hplacej] at hplacek
  have hne : (delta (axis a) (axis b)).sign ≠ 0 := by
    rw [Ne, Int.sign_eq_zero_iff_zero]
    omega
  exact_mod_cast mul_left_cancel₀ hne hplacek

omit hsmall

theorem mem_line {c : Position} :
    c ∈ line a b ↔ ∃ k, 0 < k ∧ k < steps a b ∧ cell a b k = c := by
  unfold line
  simp only [List.mem_map, List.mem_range'_1]
  constructor
  · rintro ⟨k, hk, rfl⟩
    exact ⟨k, by omega, by omega, rfl⟩
  · rintro ⟨k, hk, hk', rfl⟩
    exact ⟨k, by omega, rfl⟩

theorem getElem?_line {i : ℕ} {c : Position} :
    (line a b)[i]? = some c ↔ i + 1 < steps a b ∧ cell a b (i + 1) = c := by
  have hget : ∀ k, (List.range' 1 (steps a b - 1))[i]? = some k ↔
      i + 1 < steps a b ∧ i + 1 = k := by
    intro k
    rw [List.getElem?_eq_some_iff]
    simp only [List.length_range', List.getElem_range'_1]
    constructor
    · rintro ⟨hi, rfl⟩
      omega
    · rintro ⟨hi, rfl⟩
      exact ⟨by omega, Nat.add_comm 1 i⟩
  rw [line, List.getElem?_map, Option.map_eq_some_iff]
  constructor
  · rintro ⟨k, hk, rfl⟩
    obtain ⟨hi, rfl⟩ := (hget k).1 hk
    exact ⟨hi, rfl⟩
  · rintro ⟨hi, rfl⟩
    exact ⟨i + 1, (hget _).2 ⟨hi, rfl⟩, rfl⟩

/-- The line with its ends is the cells of all steps. -/
theorem ends_line (hsmall : steps a b < 2 ^ 26) (hpos : 0 < steps a b) :
    a :: (line a b ++ [b]) = (List.range (steps a b + 1)).map (cell a b) := by
  obtain ⟨n, hn⟩ : ∃ n, steps a b = n + 1 := ⟨steps a b - 1, by omega⟩
  have hrange : List.range (n + 1 + 1) = 0 :: (List.range' 1 n ++ [n + 1]) := by
    rw [List.range_succ, List.range_eq_range', List.range'_succ]
    rfl
  rw [line, hn, Nat.add_sub_cancel, hrange, List.map_cons, List.map_append, List.map_singleton,
    cell_zero hsmall hpos, ← hn, cell_steps hsmall hpos]

end

/-! ## The whole line -/

/-- The shape of a line of sight: one cell for each step between the ends, each where the straight
line is then, up to rounding; all in the rectangle that the ends span, none of them twice and no end
among them; and, with the ends, without a gap. -/
structure Joins (a b : Position) (cells : List Position) : Prop where
  length : cells.length = steps a b - 1
  onWay : ∀ i c, cells[i]? = some c → OnWay a b (i + 1) c
  inBox : ∀ c ∈ cells, InBox a b c
  nodup : cells.Nodup
  ends : a ∉ cells ∧ b ∉ cells
  touches : (a :: (cells ++ [b])).IsChain Touches

theorem line_joins (a b : Position) (h : steps a b < 2 ^ 26) : Joins a b (line a b) where
  length := by simp [line]
  onWay i c hc := by
    obtain ⟨hi, rfl⟩ := getElem?_line.1 hc
    exact onWay_cell h (by omega) hi.le
  inBox c hc := by
    obtain ⟨k, hk, hk', rfl⟩ := mem_line.1 hc
    exact inBox_cell h (by omega) hk'.le
  nodup := by
    refine List.Nodup.map_on (fun j hj k hk heq => ?_) List.nodup_range'
    rw [List.mem_range'_1] at hj hk
    exact cell_inj h (by omega) (by omega) (by omega) heq
  ends := by
    constructor
    · intro ha
      obtain ⟨k, hk, hk', heq⟩ := mem_line.1 ha
      have hpos : 0 < steps a b := by omega
      have := cell_inj h hpos hk'.le (Nat.zero_le _) (heq.trans (cell_zero h hpos).symm)
      omega
    · intro hb
      obtain ⟨k, hk, hk', heq⟩ := mem_line.1 hb
      have hpos : 0 < steps a b := by omega
      have := cell_inj h hpos hk'.le le_rfl (heq.trans (cell_steps h hpos).symm)
      omega
  touches := by
    rcases Nat.eq_zero_or_pos (steps a b) with hzero | hpos
    · -- both ends are one position
      obtain rfl := eq_of_steps hzero
      simp [line, hzero, Touches, delta]
    · rw [ends_line h hpos, List.isChain_map, List.isChain_range_succ]
      exact fun k hk => touches_cell_succ h hk

/-- A line on which every other cell is a tie. -/
theorem line_joins_tied :
    steps ⟨1, 1⟩ ⟨-2, 7⟩ < 2 ^ 26 ∧
    line ⟨1, 1⟩ ⟨-2, 7⟩ = [⟨1, 2⟩, ⟨0, 3⟩, ⟨-1, 4⟩, ⟨-1, 5⟩, ⟨-1, 6⟩] ∧
    Joins ⟨1, 1⟩ ⟨-2, 7⟩ [⟨1, 2⟩, ⟨0, 3⟩, ⟨-1, 4⟩, ⟨-1, 5⟩, ⟨-1, 6⟩] := by
  have hline : line ⟨1, 1⟩ ⟨-2, 7⟩ = [⟨1, 2⟩, ⟨0, 3⟩, ⟨-1, 4⟩, ⟨-1, 5⟩, ⟨-1, 6⟩] := by decide
  exact ⟨by decide, hline, hline ▸ line_joins ⟨1, 1⟩ ⟨-2, 7⟩ (by decide)⟩

end Encounter.Sight
