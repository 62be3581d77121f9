import Encounter.Proofs.Grid
import Encounter.Proofs.Line

/-!
# What decides whether a position is in sight

One position sees another if it is near enough and the line between them is clear: every cell of it
is on the grid and does not block vision (`Grid.canSee_iff`). A line between positions on the grid
does not leave it (`Grid.contains_of_mem_line`), so there only the distance and the blocking cells
count. `Grid.sight_by_distance_and_blockers` says so, and which changes of range and tags can make a
difference.
-/

set_option autoImplicit false

namespace Encounter

open Sight (line steps delta InBox isClear)

/-! ## Distance -/

namespace Position

theorem distance_eq (a b : Position) :
    a.distance b = (delta a.x b.x).natAbs + (delta a.y b.y).natAbs := by
  unfold distance delta
  omega

theorem manhattan_comm (a b : Position) : a.manhattan b = b.manhattan a := by
  unfold manhattan distance
  congr 1
  omega

/-- Near positions have no distance that would be cut off. -/
theorem manhattan_le_iff {a b : Position} {range : UInt32} (h : steps a b < 2 ^ 26) :
    a.manhattan b ≤ range ↔ a.distance b ≤ range.toNat := by
  have hdistance := distance_eq a b
  obtain ⟨hx, hy⟩ := Sight.natAbs_delta_le a b
  rw [UInt32.le_iff_toNat_le, manhattan, toNat_saturateU32]
  omega

end Position

namespace Grid

variable {g g' : Grid} {a b p q : Position} {tag tag' : TileTag} {range : UInt32}

/-! ## Tags -/

theorem hasTag_eq : g.hasTag p tag = ((g.tile? p).map (·.tags.has tag)).getD false := by
  unfold hasTag
  cases g.tile? p <;> rfl

/-- Setting a tag of one tile leaves its other tags and the other tiles as they are. -/
theorem hasTag_modifyTile {value : Bool} :
    (g.modifyTile p fun tile => { tile with tags := tile.tags.set tag value }).hasTag q tag' =
      if p = q ∧ tag' = tag then g.contains q && value else g.hasTag q tag' := by
  rw [hasTag_eq, hasTag_eq, tile?_modifyTile, ← isSome_tile?]
  by_cases hpq : p = q
  · cases g.tile? q <;> simp [hpq, TileTags.has_set]
  · simp [hpq]

theorem hasTag_addTag : (g.addTag p tag).2.hasTag q tag' =
    if p = q ∧ tag' = tag then g.contains q else g.hasTag q tag' := by
  rw [addTag, hasTag_modifyTile, Bool.and_true]

/-! ## The line on the grid -/

theorem isClear_iff :
    isClear g p = true ↔ g.contains p = true ∧ g.hasTag p .blocksVision = false := by
  rw [← isSome_tile?, hasTag_eq, isClear]
  cases g.tile? p <;> simp [TileTags.has]

theorem canSee_iff : g.canSee a b range = true ↔ a.manhattan b ≤ range ∧
    ∀ p ∈ line a b, g.contains p = true ∧ g.hasTag p .blocksVision = false := by
  rw [canSee, Sight.allCells_eq_all, Bool.and_eq_true, decide_eq_true_eq, ← line, List.all_eq_true]
  simp only [isClear_iff]

theorem contains_of_inBox (ha : g.contains a = true) (hb : g.contains b = true)
    (h : InBox a b p) : g.contains p = true := by
  have hx := h.x
  have hy := h.y
  rw [contains_iff] at *
  omega

/-- A line between positions on the grid does not leave it. -/
theorem contains_of_mem_line (h : steps a b < 2 ^ 26) (ha : g.contains a = true)
    (hb : g.contains b = true) (hp : p ∈ line a b) : g.contains p = true :=
  contains_of_inBox ha hb ((Sight.line_joins a b h).inBox p hp)

/-- On the grid only the distance and the blocking cells count. -/
theorem canSee_iff_of_contains (h : steps a b < 2 ^ 26) (ha : g.contains a = true)
    (hb : g.contains b = true) : g.canSee a b range = true ↔
      a.distance b ≤ range.toNat ∧ ∀ p ∈ line a b, g.hasTag p .blocksVision = false := by
  rw [canSee_iff, Position.manhattan_le_iff h]
  exact and_congr_right fun _ => forall₂_congr fun p hp =>
    and_iff_right (contains_of_mem_line h ha hb hp)

/-- Sight is the same on two grids on which the same cells of the line block it. -/
theorem canSee_congr (h : ∀ p ∈ line a b, g'.contains p = g.contains p ∧
    g'.hasTag p .blocksVision = g.hasTag p .blocksVision) :
    g'.canSee a b range = g.canSee a b range := by
  rw [Bool.eq_iff_iff, canSee_iff, canSee_iff]
  refine and_congr_right fun _ => forall₂_congr fun p hp => ?_
  rw [(h p hp).1, (h p hp).2]

/-- Setting a tag makes no difference off the line, and none if it is not that of blocking. -/
theorem canSee_modifyTile {value : Bool} (h : p ∉ line a b ∨ tag ≠ .blocksVision) :
    (g.modifyTile p fun tile => { tile with tags := tile.tags.set tag value }).canSee a b range =
      g.canSee a b range := by
  refine canSee_congr fun q hq => ⟨contains_modifyTile, ?_⟩
  rw [hasTag_modifyTile, if_neg]
  rintro ⟨rfl, htag⟩
  exact h.elim (· hq) (· htag.symm)

theorem steps_lt_of_contains {limit : ℕ} (hwidth : g.width.toNat < limit)
    (hheight : g.height.toNat < limit) (ha : g.contains a = true) (hb : g.contains b = true) :
    steps a b < limit := by
  rw [contains_iff] at ha hb
  unfold steps delta
  omega

/-- On a grid of sides below `2 ^ 26`, no line leaves the grid, and sight is a matter of the
distance and of the cells of the line that block vision. So without blockers it is a matter of the
range; who gains sight has a longer range, or a cell of the line no longer blocks it; and the tags
of the ends, those off the line and all other tags make no difference. -/
theorem sight_by_distance_and_blockers (g : Grid) (a b : Position)
    (hwidth : g.width.toNat < 2 ^ 26) (hheight : g.height.toNat < 2 ^ 26)
    (ha : g.contains a = true) (hb : g.contains b = true) :
    (∀ p ∈ line a b, g.contains p = true) ∧
    (∀ range, g.canSee a b range = true ↔
      (delta a.x b.x).natAbs + (delta a.y b.y).natAbs ≤ range.toNat ∧
        ∀ p ∈ line a b, g.hasTag p .blocksVision = false) ∧
    ((∀ p, g.hasTag p .blocksVision = false) → ∀ range, g.canSee a b range = true ↔
      (delta a.x b.x).natAbs + (delta a.y b.y).natAbs ≤ range.toNat) ∧
    (∀ (g' : Grid) (range range' : UInt32), g'.width = g.width → g'.height = g.height →
      g.canSee a b range = false → g'.canSee a b range' = true →
        range < range' ∨
          ∃ p ∈ line a b, g.hasTag p .blocksVision = true ∧ g'.hasTag p .blocksVision = false) ∧
    ∀ p tag range, p = a ∨ p = b ∨ p ∉ line a b ∨ tag ≠ .blocksVision →
      (g.addTag p tag).2.canSee a b range = g.canSee a b range ∧
        (g.removeTag p tag).2.canSee a b range = g.canSee a b range := by
  have hsmall := steps_lt_of_contains hwidth hheight ha hb
  have hsight : ∀ range, g.canSee a b range = true ↔
      (delta a.x b.x).natAbs + (delta a.y b.y).natAbs ≤ range.toNat ∧
        ∀ p ∈ line a b, g.hasTag p .blocksVision = false := fun range => by
    rw [← Position.distance_eq]
    exact canSee_iff_of_contains hsmall ha hb
  refine ⟨fun p hp => contains_of_mem_line hsmall ha hb hp, hsight, ?_, ?_, ?_⟩
  · intro hclear range
    rw [hsight]
    exact and_iff_left fun p _ => hclear p
  · intro g' range range' hwidth' hheight' hblind hsees
    have hcontains : ∀ p, g'.contains p = g.contains p := fun p => by
      rw [contains, contains, hwidth', hheight']
    rw [canSee_iff_of_contains hsmall (hcontains a ▸ ha) (hcontains b ▸ hb)] at hsees
    by_contra hnone
    rw [not_or, UInt32.not_lt, UInt32.le_iff_toNat_le] at hnone
    obtain ⟨hrange, hblockers⟩ := hnone
    -- neither is the range longer nor a blocker gone, so there was sight before
    have hsaw : g.canSee a b range = true := by
      refine (canSee_iff_of_contains hsmall ha hb).2 ⟨hsees.1.trans hrange, fun p hp => ?_⟩
      by_contra hblocks
      exact hblockers ⟨p, hp, eq_true_of_ne_false hblocks, hsees.2 p hp⟩
    rw [hblind] at hsaw
    cases hsaw
  · intro p tag range h
    have hoff : p ∉ line a b ∨ tag ≠ .blocksVision := by
      obtain ⟨hends, hends'⟩ := (Sight.line_joins a b hsmall).ends
      rcases h with rfl | rfl | h
      · exact .inl hends
      · exact .inl hends'
      · exact h
    exact ⟨canSee_modifyTile hoff, canSee_modifyTile hoff⟩

/-- A room with a pillar in it. -/
def pillared : Grid :=
  ((new 6 5 .square).addTag ⟨2, 1⟩ .blocksVision).2

/-- Past the pillar, and onto it. -/
theorem sight_by_distance_and_blockers_pillared :
    pillared.width.toNat < 2 ^ 26 ∧ pillared.height.toNat < 2 ^ 26 ∧
    pillared.contains ⟨0, 0⟩ = true ∧ pillared.contains ⟨4, 2⟩ = true ∧
    pillared.contains ⟨2, 1⟩ = true ∧
    pillared.canSee ⟨0, 0⟩ ⟨4, 2⟩ 9 = false ∧
    pillared.canSee ⟨0, 0⟩ ⟨2, 1⟩ 3 = true ∧
    (pillared.removeTag ⟨2, 1⟩ .blocksVision).2.canSee ⟨0, 0⟩ ⟨2, 1⟩ 3 = true := by
  have hwidth : pillared.width.toNat < 2 ^ 26 := by decide
  have hheight : pillared.height.toNat < 2 ^ 26 := by decide
  have hcorner : pillared.contains ⟨0, 0⟩ = true := by decide
  have hpast : pillared.contains ⟨4, 2⟩ = true := by decide
  have honto : pillared.contains ⟨2, 1⟩ = true := by decide
  obtain ⟨-, hsight, -⟩ :=
    sight_by_distance_and_blockers pillared ⟨0, 0⟩ ⟨4, 2⟩ hwidth hheight hcorner hpast
  obtain ⟨-, hsight', -, -, hsame⟩ :=
    sight_by_distance_and_blockers pillared ⟨0, 0⟩ ⟨2, 1⟩ hwidth hheight hcorner honto
  have honto' : pillared.canSee ⟨0, 0⟩ ⟨2, 1⟩ 3 = true := (hsight' 3).2 ⟨by decide, by decide⟩
  refine ⟨hwidth, hheight, hcorner, hpast, honto, ?_, honto', ?_⟩
  · rw [← Bool.not_eq_true, hsight]
    rintro ⟨-, hclear⟩
    have hpillar := hclear ⟨2, 1⟩ (by decide)
    revert hpillar
    decide
  · exact (hsame ⟨2, 1⟩ .blocksVision 3 (.inr (.inl rfl))).2.trans honto'

end Grid

end Encounter
