import Encounter.Proofs.Visibility

/-!
# When sight is mutual

Going back along a line, a coordinate comes to the same place unless the two ends round a tie to
different sides, which takes a tie and an odd difference (`Sight.interpolate_back_iff`). There are
ties only on a line with an even number of steps, and one with an odd difference has a tie in its
middle. So the line back has the cells of the line there exactly if the ends are `Sight.Balanced`
(`Sight.line_back_iff`). If they are not, the cell in the middle of the way back is not on the way
there, and a blocker on it is seen from one end only. `Sight.mutual_iff_balanced` puts this
together.
-/

set_option autoImplicit false

namespace Encounter.Sight

/-! ## One coordinate -/

section
variable {delta : ℤ} {step steps middle : ℕ}

/-- Both ends see a coordinate in one place unless the difference is odd and there is a tie. -/
theorem interpolate_back_iff (hdelta : delta.natAbs ≤ steps) (hstep : step ≤ steps)
    (hpos : 0 < steps) (hsmall : steps < 2 ^ 26) :
    interpolate (-delta) (steps - step) steps = interpolate delta step steps - delta ↔
      (|(delta : ℚ) * step / steps - interpolate delta step steps| = 1 / 2 → Even delta) := by
  have h := nearestEven_interpolate hdelta hstep hpos hsmall
  have hback : NearestEven ((-delta : ℤ) * (steps - step : ℕ) / steps)
      (interpolate (-delta) (steps - step) steps) :=
    nearestEven_interpolate (by rwa [Int.natAbs_neg]) (Nat.sub_le steps step) hpos hsmall
  have hshift : ((-delta : ℤ) : ℚ) * (steps - step : ℕ) / steps =
      delta * step / steps + (-delta : ℤ) := by
    have hsteps : (steps : ℚ) ≠ 0 := by exact_mod_cast hpos.ne'
    rw [Nat.cast_sub hstep, div_add' _ _ _ hsteps]
    push_cast
    ring
  rw [hshift] at hback
  rw [← even_neg, ← h.add_intCast_iff, sub_eq_add_neg]
  exact ⟨fun heq => heq ▸ hback, fun hsame => hback.unique hsame⟩

/-- A quotient that is a half has an even denominator. -/
theorem even_of_tie {n r : ℤ} (hpos : 0 < steps) (h : |(n : ℚ) / steps - r| = 1 / 2) :
    Even steps := by
  have hsteps : (0 : ℚ) < steps := by exact_mod_cast hpos
  rw [div_sub' hsteps.ne', abs_div, abs_of_pos hsteps, div_eq_div_iff hsteps.ne' two_ne_zero,
    one_mul] at h
  have hwhole : |n - steps * r| * 2 = steps := by exact_mod_cast h
  rw [← Int.even_coe_nat, ← hwhole, mul_comm]
  exact even_two_mul _

/-- Half of an odd number is a tie. -/
theorem tie_of_odd {n r : ℤ} (hodd : ¬Even n) (h : NearestEven (n / 2) r) :
    |(n : ℚ) / 2 - r| = 1 / 2 := by
  have hcast : (n : ℚ) / 2 - r = ((n - 2 * r : ℤ) : ℚ) / 2 := by
    push_cast
    ring
  have hnear := h.near
  rw [hcast, abs_div, abs_two, div_le_div_iff_of_pos_right two_pos] at hnear
  have hle : |n - 2 * r| ≤ 1 := by exact_mod_cast hnear
  have hone : |n - 2 * r| = 1 := by
    rw [Int.even_iff] at hodd
    rw [abs_le] at hle
    rw [abs_eq one_pos.le]
    omega
  rw [hcast, abs_div, abs_two, ← Int.cast_abs, hone, Int.cast_one]

/-- In the middle of the line the ends see an odd coordinate in different places. -/
theorem interpolate_middle_ne (hdelta : delta.natAbs ≤ 2 * middle) (hodd : ¬Even delta)
    (hpos : 0 < middle) (hsmall : 2 * middle < 2 ^ 26) :
    interpolate (-delta) (2 * middle - middle) (2 * middle) ≠
      interpolate delta middle (2 * middle) - delta := by
  intro heq
  have h := nearestEven_interpolate hdelta (show middle ≤ 2 * middle by omega) (by omega) hsmall
  have htie := (interpolate_back_iff hdelta (by omega) (by omega) hsmall).1 heq
  have hhalf : (delta : ℚ) * middle / (2 * middle : ℕ) = delta / 2 := by
    have hmiddle : (middle : ℚ) ≠ 0 := by exact_mod_cast hpos.ne'
    push_cast
    rw [mul_div_mul_right _ _ hmiddle]
  rw [hhalf] at h htie
  exact hodd (htie (tie_of_odd hodd h))

/-- Going back a coordinate comes through the same places if and only if its difference is even or
the line has an odd number of steps. -/
theorem interpolate_back_all_iff (hdelta : delta.natAbs ≤ steps) (hsmall : steps < 2 ^ 26) :
    (∀ step, 0 < step → step < steps →
      interpolate (-delta) (steps - step) steps = interpolate delta step steps - delta) ↔
        Even delta ∨ Odd steps := by
  constructor
  · intro hsame
    by_contra hnone
    rw [not_or, Nat.not_odd_iff_even] at hnone
    obtain ⟨hodd, heven⟩ := hnone
    obtain ⟨middle, rfl⟩ := heven.two_dvd
    have hpos : 0 < middle := by
      rcases Nat.eq_zero_or_pos middle with rfl | hpos
      · exact absurd (Int.natAbs_eq_zero.1 (Nat.le_zero.1 hdelta) ▸ Even.zero) hodd
      · exact hpos
    exact interpolate_middle_ne hdelta hodd hpos hsmall (hsame middle hpos (by omega))
  · intro h step hstep hstep'
    have hpos : 0 < steps := by omega
    refine (interpolate_back_iff hdelta hstep'.le hpos hsmall).2 fun htie => ?_
    have heven : Even steps := by
      rw [← Int.cast_natCast step, ← Int.cast_mul] at htie
      exact even_of_tie hpos htie
    exact h.resolve_right (Nat.not_odd_iff_even.2 heven)

end

/-! ## Cells from both ends -/

section
variable {a b : Position} {j k : ℕ}

theorem cell_back_iff (hsmall : steps a b < 2 ^ 26) (hpos : 0 < steps a b) (hk : k ≤ steps a b) :
    cell b a (steps a b - k) = cell a b k ↔
      interpolate (-delta a.x b.x) (steps a b - k) (steps a b) =
        interpolate (delta a.x b.x) k (steps a b) - delta a.x b.x ∧
      interpolate (-delta a.y b.y) (steps a b - k) (steps a b) =
        interpolate (delta a.y b.y) k (steps a b) - delta a.y b.y := by
  obtain ⟨hx, hy⟩ := delta_cell hsmall hpos hk
  rw [← steps_comm a b] at hsmall hpos
  obtain ⟨hbx, hby⟩ := delta_cell hsmall hpos (show steps a b - k ≤ steps b a by
    rw [steps_comm a b]
    omega)
  rw [steps_comm a b, delta_swap a.x b.x] at hbx
  rw [steps_comm a b, delta_swap a.y b.y] at hby
  rw [← hx, ← hy, ← hbx, ← hby]
  constructor
  · intro heq
    rw [heq]
    unfold delta
    omega
  · rintro ⟨heqx, heqy⟩
    refine eq_of_delta (a := b) ?_ ?_
    · rw [heqx]
      unfold delta
      omega
    · rw [heqy]
      unfold delta
      omega

/-- A cell that is on both ways is as many steps from one end as it is short of the other. -/
theorem add_eq_steps (hsmall : steps a b < 2 ^ 26) (hpos : 0 < steps a b) (hj : j ≤ steps a b)
    (hk : k ≤ steps a b) (h : cell b a j = cell a b k) : j + k = steps a b := by
  obtain ⟨axis, hlong, haxis, haxis'⟩ := exists_longer a b
  have hplacek := haxis k _ (onWay_cell hsmall hpos hk)
  rw [← steps_comm a b] at hsmall hpos hj
  have hplacej := haxis' j _ (onWay_cell hsmall hpos hj)
  obtain ⟨d, hd⟩ : ∃ d, d = delta (axis a) (axis b) := ⟨_, rfl⟩
  have hsum : delta (axis a) (axis (cell a b k)) = d + delta (axis b) (axis (cell a b k)) := by
    rw [hd]
    unfold delta
    omega
  rw [← h, hplacej, h, hplacek, delta_swap (axis a), Int.sign_neg, ← hd] at hsum
  rw [← hd] at hlong
  have hne : d.sign ≠ 0 := by
    rw [Ne, Int.sign_eq_zero_iff_zero]
    rw [steps_comm] at hpos
    omega
  have hsign : d.sign * (j + k : ℕ) = d.sign * steps a b := by
    rw [← hlong, Int.sign_mul_natAbs, Nat.cast_add]
    linarith
  exact_mod_cast mul_left_cancel₀ hne hsign

/-- The cells of the line from its end on. -/
theorem reverse_line (a b : Position) : (line a b).reverse =
    (List.range' 1 (steps a b - 1)).map fun k => cell a b (steps a b - k) := by
  rw [line, ← List.map_reverse, List.reverse_range', List.range'_eq_map_range, List.map_map,
    List.map_map]
  refine List.map_congr_left fun i hi => ?_
  rw [List.mem_range] at hi
  simp only [Function.comp_apply]
  congr 1
  omega

theorem line_back_eq_iff : line b a = (line a b).reverse ↔
    ∀ k, 0 < k → k < steps a b → cell b a (steps a b - k) = cell a b k := by
  rw [reverse_line, line, steps_comm, List.map_inj_left]
  simp only [List.mem_range'_1]
  constructor
  · intro h k hk hk'
    rw [h (steps a b - k) (by omega), Nat.sub_sub_self hk'.le]
  · intro h k hk
    rw [← h (steps a b - k) (by omega) (by omega), Nat.sub_sub_self (by omega)]

/-- The shorter axis has an even difference, or the longer one an odd one. -/
def Balanced (a b : Position) : Prop :=
  Even (min (delta a.x b.x).natAbs (delta a.y b.y).natAbs) ∨
    Odd (max (delta a.x b.x).natAbs (delta a.y b.y).natAbs)

instance (a b : Position) : Decidable (Balanced a b) :=
  inferInstanceAs (Decidable (_ ∨ _))

theorem balanced_iff : Balanced a b ↔
    (Even (delta a.x b.x) ∨ Odd (steps a b)) ∧ (Even (delta a.y b.y) ∨ Odd (steps a b)) := by
  rw [Balanced, steps, ← Int.natAbs_even, ← Int.natAbs_even (n := delta a.y b.y)]
  generalize (delta a.x b.x).natAbs = m
  generalize (delta a.y b.y).natAbs = n
  simp only [Nat.even_iff, Nat.odd_iff]
  omega

/-- The way back has the cells of the way there, in reverse order, if and only if the ends are
balanced. -/
theorem line_back_iff (hsmall : steps a b < 2 ^ 26) :
    line b a = (line a b).reverse ↔ Balanced a b := by
  obtain ⟨hx, hy⟩ := natAbs_delta_le a b
  rw [line_back_eq_iff, balanced_iff, ← interpolate_back_all_iff hx hsmall,
    ← interpolate_back_all_iff hy hsmall]
  constructor
  · intro h
    have hcells : ∀ k, 0 < k → k < steps a b → _ := fun k hk hk' =>
      (cell_back_iff hsmall (by omega) hk'.le).1 (h k hk hk')
    exact ⟨fun k hk hk' => (hcells k hk hk').1, fun k hk hk' => (hcells k hk hk').2⟩
  · rintro ⟨hbx, hby⟩ k hk hk'
    exact (cell_back_iff hsmall (by omega) hk'.le).2 ⟨hbx k hk hk', hby k hk hk'⟩

/-- If the ends are not balanced, the way back has a cell that is not on the way there. -/
theorem exists_mem_line_back (hsmall : steps a b < 2 ^ 26) (h : ¬Balanced a b) :
    ∃ p ∈ line b a, p ∉ line a b := by
  rw [← line_back_iff hsmall, line_back_eq_iff] at h
  simp only [not_forall] at h
  obtain ⟨k, hk, hk', hne⟩ := h
  refine ⟨cell b a (steps a b - k), mem_line.2 ⟨_, by omega, ?_, rfl⟩, fun hmem => hne ?_⟩
  · rw [steps_comm a b]
    omega
  · obtain ⟨j, hj, hj', heq⟩ := mem_line.1 hmem
    have hsum := add_eq_steps hsmall (by omega) (Nat.sub_le _ k) hj'.le heq.symm
    rw [← heq, show j = k by omega]

/-! ## Sight from both ends -/

theorem canSee_comm_of_reverse {g : Grid} {range : UInt32} (h : line b a = (line a b).reverse) :
    g.canSee a b range = g.canSee b a range := by
  rw [Bool.eq_iff_iff, Grid.canSee_iff, Grid.canSee_iff, Position.manhattan_comm, h]
  simp only [List.mem_reverse]

/-- A blocker on the way back alone hides `a` from `b`, but not `b` from `a`. -/
theorem canSee_addTag_of_mem_line_back {g : Grid} {p : Position} (hsmall : steps a b < 2 ^ 26)
    (ha : g.contains a = true) (hb : g.contains b = true)
    (hclear : ∀ q, g.hasTag q .blocksVision = false) (hback : p ∈ line b a) (hp : p ∉ line a b) :
    g.contains p = true ∧
      (g.addTag p .blocksVision).2.canSee a b (a.manhattan b) = true ∧
        (g.addTag p .blocksVision).2.canSee b a (a.manhattan b) = false := by
  have hcontains : g.contains p = true :=
    Grid.contains_of_mem_line (steps_comm a b ▸ hsmall) hb ha hback
  refine ⟨hcontains, ?_, ?_⟩
  · rw [Grid.addTag, Grid.canSee_modifyTile (.inl hp), Grid.canSee_iff]
    exact ⟨UInt32.le_refl _, fun q hq =>
      ⟨Grid.contains_of_mem_line hsmall ha hb hq, hclear q⟩⟩
  · rw [← Bool.not_eq_true, Grid.canSee_iff]
    rintro ⟨-, hline⟩
    have hfree := (hline p hback).2
    rw [Grid.hasTag_addTag, if_pos ⟨rfl, rfl⟩, hcontains] at hfree
    cases hfree

/-- The way back has the cells of the way there, in reverse order, if and only if the ends are
balanced. Balanced ends see each other alike on every grid and at every range. For any other two
positions on a grid without blockers there is a tile on which a blocker hides one of them from the
other and not the other from it. -/
theorem mutual_iff_balanced (a b : Position) (h : steps a b < 2 ^ 26) :
    (line b a = (line a b).reverse ↔ Balanced a b) ∧
    (Balanced a b → ∀ (g : Grid) (range : UInt32), g.canSee a b range = g.canSee b a range) ∧
    (¬Balanced a b → ∀ g : Grid, g.contains a = true → g.contains b = true →
      (∀ q, g.hasTag q .blocksVision = false) →
        ∃ p, g.contains p = true ∧
          (g.addTag p .blocksVision).2.canSee a b (a.manhattan b) = true ∧
            (g.addTag p .blocksVision).2.canSee b a (a.manhattan b) = false) := by
  refine ⟨line_back_iff h, fun hbalanced g range => ?_, fun hnot g ha hb hclear => ?_⟩
  · exact canSee_comm_of_reverse ((line_back_iff h).2 hbalanced)
  · obtain ⟨p, hback, hp⟩ := exists_mem_line_back h hnot
    exact ⟨p, canSee_addTag_of_mem_line_back h ha hb hclear hback hp⟩

end

/-- The move of a knight, which is not balanced, and twice that move, which is. -/
theorem mutual_iff_balanced_knight :
    steps ⟨0, 0⟩ ⟨2, 1⟩ < 2 ^ 26 ∧ steps ⟨0, 0⟩ ⟨4, 2⟩ < 2 ^ 26 ∧
    line ⟨2, 1⟩ ⟨0, 0⟩ ≠ (line ⟨0, 0⟩ ⟨2, 1⟩).reverse ∧
    (∃ p, (Grid.new 3 2 .square).contains p = true ∧
      ((Grid.new 3 2 .square).addTag p .blocksVision).2.canSee ⟨0, 0⟩ ⟨2, 1⟩ 3 = true ∧
        ((Grid.new 3 2 .square).addTag p .blocksVision).2.canSee ⟨2, 1⟩ ⟨0, 0⟩ 3 = false) ∧
    ∀ (g : Grid) (range : UInt32), g.canSee ⟨0, 0⟩ ⟨4, 2⟩ range = g.canSee ⟨4, 2⟩ ⟨0, 0⟩ range := by
  have hclear : ∀ q, (Grid.new 3 2 .square).hasTag q .blocksVision = false := fun q => by
    rw [Grid.hasTag_eq]
    cases htile : (Grid.new 3 2 .square).tile? q with
    | none => rfl
    | some tile => rw [Grid.tile?_new 3 2 .square htile]; rfl
  obtain ⟨hback, -, hblocker⟩ := mutual_iff_balanced ⟨0, 0⟩ ⟨2, 1⟩ (by decide)
  obtain ⟨-, halike, -⟩ := mutual_iff_balanced ⟨0, 0⟩ ⟨4, 2⟩ (by decide)
  exact ⟨by decide, by decide, fun h => absurd (hback.1 h) (by decide),
    hblocker (by decide) (Grid.new 3 2 .square) (by decide) (by decide) hclear,
    halike (by decide)⟩

end Encounter.Sight
