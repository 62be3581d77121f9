import Encounter.Proofs.Visibility

/-!
# Neighbours

A step leads to a position if and only if the position lies at exactly that difference, in whole
numbers (`Grid.stepFrom?_eq_some`): a coordinate that would leave its range leads nowhere, and none
wraps around. The steps of a kind of grid are the differences of length one (`GridKind.length`),
and a difference is as long as its opposite. So positions on the grid are neighbours both ways or
not at all. `Grid.neighbours_both_ways` puts this together.
-/

set_option autoImplicit false

namespace Encounter

open Sight (delta delta_swap eq_of_delta)

/-! ## Steps -/

namespace GridKind

variable {kind : GridKind} {dx dy : Int}

/-- The length of a difference: along the axes on a square grid, and on a hexagonal one the largest
of its three coordinates. -/
def length (dx dy : Int) : GridKind → Nat
  | .square => dx.natAbs + dy.natAbs
  | .hex => max (max dx.natAbs dy.natAbs) (dx + dy).natAbs

theorem length_of_mem : ∀ step ∈ kind.neighbourSteps, kind.length step.1 step.2 = 1 := by
  cases kind <;> decide

/-- No coordinate of a difference exceeds its length. -/
theorem natAbs_le_length (kind : GridKind) (dx dy : Int) :
    dx.natAbs ≤ kind.length dx dy ∧ dy.natAbs ≤ kind.length dx dy := by
  cases kind with
  | square => exact ⟨Nat.le_add_right .., Nat.le_add_left ..⟩
  | hex =>
    exact ⟨(Nat.le_max_left ..).trans (Nat.le_max_left ..),
      (Nat.le_max_right ..).trans (Nat.le_max_left ..)⟩

/-- The steps of a kind are the differences of length one. -/
theorem mem_neighbourSteps : (dx, dy) ∈ kind.neighbourSteps ↔ kind.length dx dy = 1 := by
  refine ⟨length_of_mem (dx, dy), fun h => ?_⟩
  obtain ⟨hdx, hdy⟩ := natAbs_le_length kind dx dy
  rw [h] at hdx hdy
  have hx : dx = -1 ∨ dx = 0 ∨ dx = 1 := by omega
  have hy : dy = -1 ∨ dy = 0 ∨ dy = 1 := by omega
  -- nine differences are left, and the kind has those of length one among them
  rcases hx with rfl | rfl | rfl <;> rcases hy with rfl | rfl | rfl <;> revert h <;>
    cases kind <;> decide

theorem length_neg : kind.length (-dx) (-dy) = kind.length dx dy := by
  cases kind with
  | square => rw [length, length, Int.natAbs_neg, Int.natAbs_neg]
  | hex =>
    rw [length, length, ← Int.neg_add, Int.natAbs_neg, Int.natAbs_neg, Int.natAbs_neg]

theorem nodup_neighbourSteps (kind : GridKind) : kind.neighbourSteps.Nodup := by
  cases kind <;> decide

end GridKind

/-- Distances that are cut off are not one. -/
theorem Position.manhattan_eq_one_iff {p q : Position} : p.manhattan q = 1 ↔ p.distance q = 1 := by
  rw [← UInt32.toNat_inj, manhattan, toNat_saturateU32, UInt32.toNat_one]
  omega

namespace Grid

variable {g : Grid} {p q : Position} {step : Int × Int}

/-- A step leads to the position at that difference, and to no other. -/
theorem stepFrom?_eq_some :
    stepFrom? p step = some q ↔ delta p.x q.x = step.1 ∧ delta p.y q.y = step.2 := by
  simp only [stepFrom?]
  split
  · rename_i hrange
    have hx : (Int32.ofInt (p.x.toInt + step.1)).toInt = p.x.toInt + step.1 :=
      Int32.toInt_ofInt_of_le (by omega) (by omega)
    have hy : (Int32.ofInt (p.y.toInt + step.2)).toInt = p.y.toInt + step.2 :=
      Int32.toInt_ofInt_of_le (by omega) (by omega)
    rw [Option.some.injEq]
    constructor
    · rintro rfl
      simp only [delta]
      omega
    · rintro ⟨hdx, hdy⟩
      refine eq_of_delta (a := p) ?_ ?_
      · rw [hdx, delta, hx]
        omega
      · rw [hdy, delta, hy]
        omega
  · rename_i hrange
    constructor
    · intro hnone
      cases hnone
    · rintro ⟨hdx, hdy⟩
      -- the coordinates of a position are in range, and the sums are those of `q`
      have hqx := And.intro q.x.le_toInt q.x.toInt_lt
      have hqy := And.intro q.y.le_toInt q.y.toInt_lt
      unfold delta at hdx hdy
      omega

theorem mem_adjacent : q ∈ g.adjacent p ↔
    g.contains q = true ∧ (delta p.x q.x, delta p.y q.y) ∈ g.kind.neighbourSteps := by
  rw [adjacent, List.mem_filter, List.mem_filterMap, and_comm]
  refine and_congr_right fun _ => ?_
  constructor
  · rintro ⟨step, hstep, hq⟩
    obtain ⟨hx, hy⟩ := stepFrom?_eq_some.1 hq
    rwa [hx, hy]
  · intro hstep
    exact ⟨_, hstep, stepFrom?_eq_some.2 ⟨rfl, rfl⟩⟩

theorem mem_adjacent_iff_length : q ∈ g.adjacent p ↔
    g.contains q = true ∧ g.kind.length (delta p.x q.x) (delta p.y q.y) = 1 := by
  rw [mem_adjacent, GridKind.mem_neighbourSteps]

theorem not_mem_adjacent_self : p ∉ g.adjacent p := by
  rw [mem_adjacent_iff_length, delta, delta, Int.sub_self, Int.sub_self]
  rintro ⟨-, hlength⟩
  revert hlength
  cases g.kind <;> decide

/-- Different steps lead to different positions. -/
theorem nodup_adjacent : (g.adjacent p).Nodup := by
  refine (List.Nodup.filterMap ?_ (GridKind.nodup_neighbourSteps g.kind)).filter _
  intro step step' q hq hq'
  obtain ⟨hx, hy⟩ := stepFrom?_eq_some.1 hq
  obtain ⟨hx', hy'⟩ := stepFrom?_eq_some.1 hq'
  exact Prod.ext (hx.symm.trans hx') (hy.symm.trans hy')

theorem mem_adjacent_comm (hp : g.contains p = true) (hq : g.contains q = true) :
    q ∈ g.adjacent p ↔ p ∈ g.adjacent q := by
  rw [mem_adjacent_iff_length, mem_adjacent_iff_length, and_iff_right hp, and_iff_right hq,
    delta_swap q.x, delta_swap q.y, GridKind.length_neg]

/-- How the neighbours of a position lie about it. -/
structure Surroundings (g : Grid) (p : Position) : Prop where
  /-- A step leads to the position at exactly that difference in whole numbers, or nowhere. -/
  steps : ∀ step q, stepFrom? p step = some q ↔
    q.x.toInt = p.x.toInt + step.1 ∧ q.y.toInt = p.y.toInt + step.2
  other : p ∉ g.adjacent p
  once : (g.adjacent p).Nodup
  onto : ∀ q ∈ g.adjacent p, g.contains q = true
  /-- The neighbours are the positions on the grid that lie a step of the kind away. -/
  members : ∀ q, q ∈ g.adjacent p ↔ g.contains q = true ∧
    (delta p.x q.x, delta p.y q.y) ∈ g.kind.neighbourSteps
  /-- On a square grid they are at Manhattan distance one. -/
  square : g.kind = .square → ∀ q,
    (q ∈ g.adjacent p ↔ g.contains q = true ∧ p.distance q = 1) ∧
      (p.distance q = 1 ↔ p.manhattan q = 1)
  /-- On a hexagonal grid the largest of the three coordinates of the difference is one. -/
  hex : g.kind = .hex → ∀ q, q ∈ g.adjacent p ↔ g.contains q = true ∧
    max (max (delta p.x q.x).natAbs (delta p.y q.y).natAbs)
      (delta p.x q.x + delta p.y q.y).natAbs = 1
  /-- Of two positions on the grid, each is a neighbour of the other or neither is. -/
  returned : g.contains p = true → ∀ q, g.contains q = true →
    (q ∈ g.adjacent p ↔ p ∈ g.adjacent q)

/-- So they lie on a grid of either kind, about positions over the whole range of the
coordinates. -/
theorem neighbours_both_ways (g : Grid) (p : Position) : g.Surroundings p where
  steps step q := by
    rw [stepFrom?_eq_some, delta, delta]
    omega
  other := not_mem_adjacent_self
  once := nodup_adjacent
  onto q hq := (mem_adjacent.1 hq).1
  members q := mem_adjacent
  square hkind q := by
    rw [mem_adjacent_iff_length, hkind, Position.distance_eq, Position.manhattan_eq_one_iff,
      Position.distance_eq]
    exact ⟨Iff.rfl, Iff.rfl⟩
  hex hkind q := by
    rw [mem_adjacent_iff_length, hkind]
    rfl
  returned hp q hq := mem_adjacent_comm hp hq

/-- The cell below and to the left of the middle is next to it on a hexagonal grid, and on a square
one it is not. Off the grid the neighbours are not mutual, and at the limits of the coordinates
nothing wraps around. -/
theorem neighbours_both_ways_middle :
    ((new 3 3 .hex).kind = .hex ∧ (new 3 3 .square).kind = .square) ∧
    ((new 3 3 .hex).contains ⟨1, 1⟩ = true ∧ (new 3 3 .hex).contains ⟨0, 2⟩ = true) ∧
    (⟨0, 2⟩ ∈ (new 3 3 .hex).adjacent ⟨1, 1⟩ ∧ ⟨1, 1⟩ ∈ (new 3 3 .hex).adjacent ⟨0, 2⟩) ∧
    ⟨0, 2⟩ ∉ (new 3 3 .square).adjacent ⟨1, 1⟩ ∧
    (⟨0, 0⟩ ∈ (new 3 3 .square).adjacent ⟨-1, 0⟩ ∧ ⟨-1, 0⟩ ∉ (new 3 3 .square).adjacent ⟨0, 0⟩) ∧
    stepFrom? ⟨2147483647, 0⟩ (1, 0) = none := by
  have hmiddle : (new 3 3 .hex).contains ⟨1, 1⟩ = true := by decide
  have hcorner : (new 3 3 .hex).contains ⟨0, 2⟩ = true := by decide
  have hexagonal := neighbours_both_ways (new 3 3 .hex) ⟨1, 1⟩
  have hsquare := (neighbours_both_ways (new 3 3 .square) ⟨1, 1⟩).square rfl
  have hleft := (neighbours_both_ways (new 3 3 .square) ⟨-1, 0⟩).square rfl
  have honto := (neighbours_both_ways (new 3 3 .square) ⟨0, 0⟩).onto
  have hlimit := (neighbours_both_ways (new 3 3 .square) ⟨2147483647, 0⟩).steps
  have hbelow : ⟨0, 2⟩ ∈ (new 3 3 .hex).adjacent ⟨1, 1⟩ :=
    (hexagonal.hex rfl ⟨0, 2⟩).2 ⟨hcorner, by decide⟩
  refine ⟨⟨rfl, rfl⟩, ⟨hmiddle, hcorner⟩,
    ⟨hbelow, (hexagonal.returned hmiddle _ hcorner).1 hbelow⟩, ?_,
    ⟨(hleft ⟨0, 0⟩).1.2 ⟨by decide, by decide⟩, ?_⟩, ?_⟩
  · intro hmem
    exact absurd ((hsquare ⟨0, 2⟩).1.1 hmem).2 (by decide)
  · intro hmem
    exact absurd (honto _ hmem) (by decide)
  · rw [Option.eq_none_iff_forall_ne_some]
    intro q hq
    have hsum := ((hlimit (1, 0) q).1 hq).1
    have hbound := q.x.toInt_lt
    have hat : (2147483647 : Int32).toInt = 2147483647 := by decide
    simp only [hat] at hsum
    omega

end Grid

end Encounter
