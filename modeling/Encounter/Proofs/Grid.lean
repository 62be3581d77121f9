import Encounter.Map.Grid
import Mathlib.Data.List.Nodup

/-!
# The grid, tile by tile

Two positions on the grid never share a tile (`Grid.place_inj`), so a change of one tile leaves the
others alone: `tile?_modifyTile` says what a change does to the tile of any position, and
`occupants_addOccupant` and `occupants_removeOccupant` what it does to the entities on it.
-/

set_option autoImplicit false

namespace Encounter.Grid

variable {g : Grid} {p q : Position} {x : EntityId} {f : Tile → Tile}

theorem contains_iff : g.contains p = true ↔
    0 ≤ p.x.toInt ∧ 0 ≤ p.y.toInt ∧ p.x.toInt < g.width.toNat ∧ p.y.toInt < g.height.toNat := by
  simp [contains]

/-- No two positions on the grid have one place in the row-by-row order. -/
theorem place_inj (hp : g.contains p = true) (hq : g.contains q = true)
    (h : g.place p = g.place q) : p = q := by
  rw [contains_iff] at hp hq
  unfold place at h
  have hpx : p.x.toInt.toNat < g.width.toNat := by omega
  have hqx : q.x.toInt.toNat < g.width.toNat := by omega
  have hx : p.x.toInt.toNat = q.x.toInt.toNat := by
    rw [← Nat.mod_eq_of_lt hpx, ← Nat.mod_eq_of_lt hqx, ← Nat.mul_add_mod_self_right, h,
      Nat.mul_add_mod_self_right]
  have hy : p.y.toInt.toNat = q.y.toInt.toNat := by
    rw [hx] at h
    exact Nat.eq_of_mul_eq_mul_right (by omega) (Nat.add_right_cancel h)
  have hxInt : p.x = q.x := Int32.toInt_inj.1 (by omega)
  have hyInt : p.y = q.y := Int32.toInt_inj.1 (by omega)
  cases p
  cases q
  exact congrArg₂ Position.mk hxInt hyInt

/-! ## Tiles -/

theorem contains_modifyTile : (g.modifyTile p f).contains q = g.contains q := by
  unfold modifyTile
  split <;> rfl

theorem place_modifyTile : (g.modifyTile p f).place q = g.place q := by
  unfold modifyTile
  split <;> rfl

/-- Off the grid there is nothing to change. -/
theorem modifyTile_of_not_contains (h : g.contains p = false) : g.modifyTile p f = g := by
  rw [modifyTile, h]
  rfl

theorem tile?_modifyTile :
    (g.modifyTile p f).tile? q = if p = q then (g.tile? q).map f else g.tile? q := by
  by_cases hp : g.contains p = true
  · have htiles : (g.modifyTile p f).tiles = g.tiles.modify (g.place p) f := by
      unfold modifyTile
      rw [if_pos hp]
    rw [tile?, tile?, contains_modifyTile, place_modifyTile, htiles, Array.getElem?_modify]
    by_cases hq : g.contains q = true
    · by_cases hpq : p = q
      · simp [hpq, hq]
      · have hplace : g.place p ≠ g.place q := fun h => hpq (place_inj hp hq h)
        simp [hpq, hq, hplace]
    · simp [hq]
  · rw [modifyTile_of_not_contains (eq_false_of_ne_true hp)]
    split
    · rename_i hpq
      subst hpq
      simp [tile?, hp]
    · rfl

/-- Every position on the grid has a tile. -/
theorem isSome_tile? : (g.tile? p).isSome = g.contains p := by
  unfold tile?
  split
  · rename_i hp
    rw [hp, isSome_getElem?, g.size_tiles]
    rw [contains_iff] at hp
    calc g.place p < (p.y.toInt.toNat + 1) * g.width.toNat := by
          rw [place, Nat.succ_mul]
          omega
      _ ≤ g.height.toNat * g.width.toNat := Nat.mul_le_mul_right _ (by omega)
      _ = g.width.toNat * g.height.toNat := Nat.mul_comm ..
  · rename_i hp
    simpa using hp

theorem tile?_new (width height : UInt32) (kind : GridKind) {tile : Tile}
    (h : (new width height kind).tile? p = some tile) : tile = {} := by
  unfold tile? at h
  split at h
  · exact (Array.mem_replicate.1 (Array.mem_of_getElem? h)).2
  · cases h

/-! ## Occupants -/

theorem occupants_eq : g.occupants p = ((g.tile? p).map Tile.occupants).getD [] := by
  unfold occupants
  cases g.tile? p <;> rfl

/-- Who stands somewhere stands on the grid. -/
theorem contains_of_mem_occupants (h : x ∈ g.occupants p) : g.contains p = true := by
  rw [occupants_eq] at h
  rw [← isSome_tile?]
  cases ht : g.tile? p with
  | none =>
    rw [ht] at h
    cases h
  | some tile => rfl

theorem occupants_new (width height : UInt32) (kind : GridKind) :
    (new width height kind).occupants p = [] := by
  rw [occupants_eq]
  cases ht : (new width height kind).tile? p with
  | none => rfl
  | some tile =>
    rw [tile?_new width height kind ht]
    rfl

theorem occupants_modifyTile (hf : ∀ tile, (f tile).occupants = tile.occupants) :
    (g.modifyTile p f).occupants q = g.occupants q := by
  rw [occupants_eq, occupants_eq, tile?_modifyTile]
  split
  · cases g.tile? q with
    | none => rfl
    | some tile => exact hf tile
  · rfl

theorem occupants_addOccupant : (g.addOccupant p x).occupants q =
    if p = q ∧ g.contains p = true ∧ x ∉ g.occupants q then g.occupants q ++ [x]
    else g.occupants q := by
  rw [addOccupant, occupants_eq, occupants_eq, tile?_modifyTile]
  by_cases hpq : p = q
  · subst hpq
    rw [← isSome_tile?]
    cases g.tile? p with
    | none => simp
    | some tile => by_cases hx : x ∈ tile.occupants <;> simp [hx]
  · simp [hpq]

theorem mem_occupants_addOccupant {y : EntityId} : y ∈ (g.addOccupant p x).occupants q ↔
    y ∈ g.occupants q ∨ (p = q ∧ g.contains p = true ∧ y = x) := by
  rw [occupants_addOccupant]
  split
  · rename_i h
    rw [List.mem_append, List.mem_singleton, and_iff_right h.1, and_iff_right h.2.1]
  · rename_i h
    refine ⟨.inl, ?_⟩
    rintro (hy | ⟨rfl, hp, rfl⟩)
    · exact hy
    · exact Classical.byContradiction fun hn => h ⟨rfl, hp, hn⟩

theorem nodup_addOccupant (h : (g.occupants q).Nodup) :
    ((g.addOccupant p x).occupants q).Nodup := by
  rw [occupants_addOccupant]
  split
  · rename_i hx
    exact h.append (List.nodup_singleton x) (by simpa using hx.2.2)
  · exact h

theorem occupants_removeOccupant : (g.removeOccupant p x).occupants q =
    if p = q then (g.occupants q).filter (· ≠ x) else g.occupants q := by
  rw [removeOccupant, occupants_eq, occupants_eq, tile?_modifyTile]
  split
  · cases g.tile? q <;> rfl
  · rfl

theorem mem_occupants_removeOccupant {y : EntityId} : y ∈ (g.removeOccupant p x).occupants q ↔
    y ∈ g.occupants q ∧ (p = q → y ≠ x) := by
  rw [occupants_removeOccupant]
  split
  · rename_i h
    rw [List.mem_filter, decide_eq_true_eq, forall_prop_of_true h]
  · rename_i h
    simp [h]

theorem nodup_removeOccupant (h : (g.occupants q).Nodup) :
    ((g.removeOccupant p x).occupants q).Nodup := by
  rw [occupants_removeOccupant]
  split
  · exact h.filter _
  · exact h

end Encounter.Grid
