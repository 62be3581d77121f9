import Encounter.Map.Index
import Encounter.Proofs.Visibility

/-!
# Tiles do not share a cell

Reckoned in 64-bit words, the place of a position is the place in whole numbers: no product and no
sum on the way to it leaves the range (`Grid.index?_eq`). So an act on the tile at one position
leaves all other cells alone (`Grid.tiles_act`), and after a history the tile at a position is what
the acts on it alone make of a plain one (`Grid.tile?_run`). Whether it carries a tag is decided by
the last act on it that put the tag on or took it off (`TileAct.has_applyAll`). `Grid.tiles_apart`
puts this together.
-/

set_option autoImplicit false

namespace Encounter

/-! ## Places in words -/

theorem exactU64?_eq {n : Nat} (h : n < 2 ^ 64) : exactU64? n = some (.ofNat n) :=
  if_pos (by omega)

/-- A coordinate that is not negative has the same value as an unsigned word. -/
theorem below_iff {x : Int32} {n : UInt32} :
    0 ≤ x ∧ x.toUInt32 < n ↔ 0 ≤ x.toInt ∧ x.toInt < n.toNat := by
  rw [Int32.le_iff_toInt_le, Int32.toInt_zero]
  refine and_congr_right fun h => ?_
  rw [UInt32.lt_iff_toNat_lt, Int32.toNat_toUInt32_of_le (Int32.le_iff_toInt_le.2 h),
    Int32.toNatClampNeg]
  omega

theorem toNat_widened {x : Int32} (h : 0 ≤ x.toInt) :
    x.toInt64.toUInt64.toNat = x.toInt.toNat := by
  have hx : (0 : Int64) ≤ x.toInt64 := by
    rwa [Int64.le_iff_toInt_le, Int64.toInt_zero, Int32.toInt_toInt64]
  rw [Int64.toNat_toUInt64_of_le hx, Int32.toNatClampNeg_toInt64, Int32.toNatClampNeg]

namespace Grid

variable {g : Grid} {p q : Position}

theorem isValid_eq : g.isValid p = g.contains p := by
  rw [Bool.eq_iff_iff, contains_iff]
  simp only [isValid, Bool.and_eq_true, decide_eq_true_eq]
  rw [and_assoc, and_and_and_comm, below_iff, below_iff, and_and_and_comm, and_assoc]

/-- The tiles of the largest grid can be numbered in 64 bits. -/
theorem size_lt (width height : UInt32) : width.toNat * height.toNat < 2 ^ 64 :=
  calc width.toNat * height.toNat ≤ (2 ^ 32 - 1) * (2 ^ 32 - 1) :=
        Nat.mul_le_mul (Nat.le_pred_of_lt width.toNat_lt) (Nat.le_pred_of_lt height.toNat_lt)
    _ < 2 ^ 64 := by decide

theorem count?_eq (width height : UInt32) :
    count? width height = some (.ofNat (width.toNat * height.toNat)) := by
  rw [count?, UInt32.toNat_toUInt64, UInt32.toNat_toUInt64, exactU64?_eq (size_lt width height)]

theorem place_lt (h : g.contains p = true) : g.place p < g.width.toNat * g.height.toNat := by
  have htile : (g.tile? p).isSome = true := isSome_tile?.trans h
  rw [tile?, if_pos h, isSome_getElem?] at htile
  exact g.size_tiles ▸ htile

/-- The place is reckoned without overflow: there is one for every position on the grid. -/
theorem index?_eq : g.index? p = if g.contains p then some (.ofNat (g.place p)) else none := by
  rw [index?, isValid_eq]
  split
  · rename_i h
    have hplace := place_lt h
    have hsize := size_lt g.width g.height
    rw [contains_iff] at h
    rw [toNat_widened h.1, toNat_widened h.2.1, UInt32.toNat_toUInt64]
    rw [place] at hplace ⊢
    have hrow : p.y.toInt.toNat * g.width.toNat < 2 ^ 64 := by omega
    rw [exactU64?_eq hrow, Option.bind_eq_bind, Option.bind_some,
      UInt64.toNat_ofNat_of_lt' hrow, exactU64?_eq (by omega)]
  · rfl

theorem isSome_index? : (g.index? p).isSome = g.contains p := by
  rw [index?_eq]
  split
  · rename_i h
    exact h.symm
  · rename_i h
    exact (eq_false_of_ne_true h).symm

theorem index?_eq_some {i : UInt64} :
    g.index? p = some i ↔ g.contains p = true ∧ i.toNat = g.place p := by
  rw [index?_eq]
  split
  · rename_i h
    have hplace := (place_lt h).trans (size_lt g.width g.height)
    rw [Option.some.injEq, and_iff_right h, ← UInt64.toNat_inj, UInt64.toNat_ofNat_of_lt' hplace,
      eq_comm]
  · rename_i h
    exact ⟨fun hnone => (nomatch hnone), fun hon => absurd hon.1 h⟩

theorem index?_inj {i : UInt64} (hp : g.index? p = some i) (hq : g.index? q = some i) : p = q := by
  rw [index?_eq_some] at hp hq
  exact place_inj hp.1 hq.1 (hp.2.symm.trans hq.2)

theorem tile?_of_index? {i : UInt64} (h : g.index? p = some i) :
    g.tile? p = g.tiles[i.toNat]? := by
  obtain ⟨hp, hi⟩ := index?_eq_some.1 h
  rw [tile?, if_pos hp, hi]

end Grid

/-! ## In place -/

namespace Grid

variable {g : Grid} {p : Position} {tag : TileTag} {α : Type} {f : Tile → α × Tile}

theorem modifyTile_of_none {f : Tile → Tile} (h : g.tile? p = none) : g.modifyTile p f = g := by
  have hp : g.contains p = false := by
    rw [← isSome_tile?, h]
    rfl
  exact modifyTile_of_not_contains hp

/-- What is lent is the tile at the position, and what is put back is put there. -/
theorem lend?_eq : g.lend? p f =
    (g.tile? p).map fun tile => ((f tile).1, g.modifyTile p fun tile => (f tile).2) := by
  cases hindex : g.index? p with
  | none =>
    have hp : g.contains p = false := by
      rw [← isSome_index?, hindex]
      rfl
    simp [lend?, hindex, tile?, hp]
  | some i =>
    obtain ⟨hp, hi⟩ := index?_eq_some.1 hindex
    have hlt : i.toNat < g.tiles.size := by
      rw [hi, g.size_tiles]
      exact place_lt hp
    have hwrite : g.tiles.modify i.toNat (fun tile => (f tile).2) =
        g.tiles.set i.toNat (f g.tiles[i.toNat]).2 := by
      refine Array.ext (by simp) fun j _ _ => ?_
      rw [Array.getElem_modify, Array.getElem_set]
      split
      · rename_i hj
        subst hj
        rfl
      · rfl
    simp [lend?, hindex, hlt, tile?_of_index? hindex, modifyTile, hp, ← hi, hwrite]

theorem tagInPlace_eq : g.tagInPlace p tag = g.addTag p tag := by
  rw [tagInPlace, lend?_eq, addTag, ← isSome_tile?]
  cases htile : g.tile? p with
  | none => simp [modifyTile_of_none htile]
  | some tile => rfl

theorem untagInPlace_eq : g.untagInPlace p tag = g.removeTag p tag := by
  rw [untagInPlace, lend?_eq, removeTag, hasTag]
  cases htile : g.tile? p with
  | none => simp [modifyTile_of_none htile]
  | some tile => rfl

end Grid

/-! ## What is done to a tile -/

/-- What is done to one tile. -/
inductive TileAct where
  | addTag (tag : TileTag)
  | removeTag (tag : TileTag)
  /-- Writes any of what the tile holds. -/
  | edit (f : Tile → Tile)
  | addOccupant (entity : EntityId)
  | removeOccupant (entity : EntityId)

namespace TileAct

/-- The tile after an act. -/
def apply : TileAct → Tile → Tile
  | .addTag tag, tile => { tile with tags := tile.tags.set tag true }
  | .removeTag tag, tile => { tile with tags := tile.tags.set tag false }
  | .edit f, tile => f tile
  | .addOccupant entity, tile =>
    if entity ∈ tile.occupants then tile
    else { tile with occupants := tile.occupants ++ [entity] }
  | .removeOccupant entity, tile => { tile with occupants := tile.occupants.filter (· ≠ entity) }

/-- The tile after one act and the other. -/
def applyAll : List TileAct → Tile → Tile
  | [], tile => tile
  | act :: acts, tile => applyAll acts (act.apply tile)

/-- Does the act put the tag on a tile by its name, or take it off? -/
def named? (tag : TileTag) : TileAct → Option Bool
  | .addTag other => if tag = other then some true else none
  | .removeTag other => if tag = other then some false else none
  | .edit _ | .addOccupant _ | .removeOccupant _ => none

/-- Does the act put the tag on the tile, or take it off? An edit that writes over the tags puts on
what the tile did not have, and takes off what it had. -/
def mark? (tag : TileTag) (tile : Tile) : TileAct → Option Bool
  | .edit f =>
    if (f tile).tags.has tag = tile.tags.has tag then none else some ((f tile).tags.has tag)
  | act => act.named? tag

/-- The marks of a tag in the course of the acts: put on (`true`) and taken off (`false`), the last
one last. -/
def marks (tag : TileTag) : List TileAct → Tile → List Bool
  | [], _ => []
  | act :: acts, tile => (act.mark? tag tile).toList ++ marks tag acts (act.apply tile)

variable {act : TileAct} {acts : List TileAct} {tag : TileTag} {tile : Tile}

theorem has_apply :
    (act.apply tile).tags.has tag = (act.mark? tag tile).getD (tile.tags.has tag) := by
  cases act with
  | addTag other | removeTag other =>
    simp only [apply, mark?, named?, TileTags.has_set]
    split <;> rfl
  | edit f =>
    simp only [apply, mark?]
    split
    · rename_i hsame
      exact hsame
    · rfl
  | addOccupant entity =>
    simp only [apply]
    split <;> rfl
  | removeOccupant entity => rfl

/-- The last mark decides. Without one the tile keeps what it had. -/
theorem has_applyAll : (applyAll acts tile).tags.has tag =
    (marks tag acts tile).getLast?.getD (tile.tags.has tag) := by
  induction acts generalizing tile with
  | nil => rfl
  | cons act acts ih =>
    rw [applyAll, ih, marks, List.getLast?_append, Option.getD_or, has_apply]
    cases act.mark? tag tile <;> rfl

/-- Where no edit changes the tag, the marks are the acts that name it. -/
theorem marks_eq (h : ∀ f, edit f ∈ acts → ∀ tile, (f tile).tags.has tag = tile.tags.has tag) :
    marks tag acts tile = acts.filterMap (named? tag) := by
  induction acts generalizing tile with
  | nil => rfl
  | cons act acts ih =>
    have hmark : act.mark? tag tile = act.named? tag := by
      cases act with
      | edit f => exact if_pos (h f List.mem_cons_self tile)
      | addTag | removeTag | addOccupant | removeOccupant => rfl
    rw [marks, hmark, ih fun f hf => h f (List.mem_cons_of_mem _ hf), List.filterMap_cons]
    cases act.named? tag <;> rfl

end TileAct

/-! ## What is done on a grid -/

namespace Grid

/-- What is done to the tile at a position, which need not be on the grid. -/
structure Act where
  position : Position
  what : TileAct

/-- Does what there is to do. -/
def act (g : Grid) (a : Act) : Grid :=
  match a.what with
  | .addTag tag => (g.addTag a.position tag).2
  | .removeTag tag => (g.removeTag a.position tag).2
  | .edit f => g.modifyTile a.position f
  | .addOccupant entity => g.addOccupant a.position entity
  | .removeOccupant entity => g.removeOccupant a.position entity

/-- Does one act after the other. -/
def run (g : Grid) : List Act → Grid
  | [] => g
  | a :: acts => run (g.act a) acts

/-- What is done to the tile at `q`. -/
def actsOn (q : Position) (acts : List Act) : List TileAct :=
  (acts.filter (·.position = q)).map Act.what

variable {g : Grid} {a : Act} {acts : List Act} {p q : Position} {tag : TileTag}

theorem act_eq : g.act a = g.modifyTile a.position a.what.apply := by
  obtain ⟨position, what⟩ := a
  cases what <;> rfl

theorem act_of_not_contains (h : g.contains a.position = false) : g.act a = g :=
  act_eq.trans (modifyTile_of_not_contains h)

/-- An act on the grid changes one cell. -/
theorem tiles_act {i : UInt64} (h : g.index? a.position = some i) (j : Nat) :
    (g.act a).tiles[j]? = if i.toNat = j then g.tiles[j]?.map a.what.apply else g.tiles[j]? := by
  obtain ⟨hp, hi⟩ := index?_eq_some.1 h
  rw [act_eq, modifyTile, if_pos hp, hi, Array.getElem?_modify]

theorem shape_act :
    (g.act a).width = g.width ∧ (g.act a).height = g.height ∧ (g.act a).kind = g.kind := by
  rw [act_eq, modifyTile]
  split <;> exact ⟨rfl, rfl, rfl⟩

theorem shape_run : (g.run acts).width = g.width ∧ (g.run acts).height = g.height ∧
    (g.run acts).kind = g.kind := by
  induction acts generalizing g with
  | nil => exact ⟨rfl, rfl, rfl⟩
  | cons a acts ih =>
    obtain ⟨hwidth, hheight, hkind⟩ := shape_act (g := g) (a := a)
    rw [run, ih.1, ih.2.1, ih.2.2]
    exact ⟨hwidth, hheight, hkind⟩

theorem contains_run : (g.run acts).contains q = g.contains q := by
  rw [contains, contains, shape_run.1, shape_run.2.1]

/-- A tile is changed by the acts on it, in their order, and by no others. -/
theorem tile?_run : (g.run acts).tile? q = (g.tile? q).map (TileAct.applyAll (actsOn q acts)) := by
  induction acts generalizing g with
  | nil => exact Option.map_id'.symm
  | cons a acts ih =>
    rw [run, ih, act_eq, tile?_modifyTile, actsOn, actsOn, List.filter_cons]
    by_cases h : a.position = q
    · simp [h, Function.comp_def, TileAct.applyAll]
    · simp [h]

section
variable {width height : UInt32} {kind : GridKind}

/-- On a grid that was plain at first a tile is what the acts on it make of a plain one. -/
theorem tile?_run_new : ((new width height kind).run acts).tile? q =
    if ((new width height kind).run acts).contains q then
      some (TileAct.applyAll (actsOn q acts) {})
    else none := by
  rw [tile?_run, contains_run, ← isSome_tile?]
  cases htile : (new width height kind).tile? q with
  | none => rfl
  | some tile =>
    rw [tile?_new width height kind htile]
    rfl

/-- A tile has the tag if the last mark of it put it on. -/
theorem hasTag_run_new : ((new width height kind).run acts).hasTag q tag = true ↔
    ((new width height kind).run acts).contains q = true ∧
      (TileAct.marks tag (actsOn q acts) {}).getLast? = some true := by
  rw [hasTag_eq, tile?_run_new]
  split
  · rename_i hq
    have hplain : ({} : Tile).tags.has tag = false := by cases tag <;> rfl
    rw [and_iff_right hq, Option.map_some, Option.getD_some, TileAct.has_applyAll, hplain]
    cases (TileAct.marks tag (actsOn q acts) {}).getLast? <;> simp
  · rename_i hq
    simp [hq]

end

/-- How the tiles of a grid are kept that was plain at first and on which the acts were done, at
positions on it or off it. -/
structure KeepsApart (width height : UInt32) (kind : GridKind) (acts : List Act) (g : Grid) :
    Prop where
  shape : g.width = width ∧ g.height = height ∧ g.kind = kind
  /-- The size is reckoned in 64 bits without overflow. -/
  count : count? width height = some (.ofNat (width.toNat * height.toNat))
  fits : width.toNat * height.toNat < 2 ^ 64
  /-- Exactly the positions on the grid have a place. -/
  placed : ∀ p, (g.index? p).isSome = g.contains p
  /-- A place is reckoned without overflow as well, and it is below the size. -/
  place : ∀ p i, g.index? p = some i →
    i.toNat = p.y.toInt.toNat * width.toNat + p.x.toInt.toNat ∧
      i.toNat < width.toNat * height.toNat ∧ g.tile? p = g.tiles[i.toNat]?
  /-- No two positions share a place. -/
  apart : ∀ p q i, g.index? p = some i → g.index? q = some i → p = q
  /-- An act on the grid changes the one cell at its position. -/
  cell : ∀ a i, g.index? a.position = some i → ∀ j : Nat,
    (g.act a).tiles[j]? = if i.toNat = j then g.tiles[j]?.map a.what.apply else g.tiles[j]?
  elsewhere : ∀ a q, a.position ≠ q → (g.act a).tile? q = g.tile? q
  /-- An act off the grid changes nothing. -/
  off : ∀ a, g.contains a.position = false → g.act a = g
  /-- A tile is what the acts on it alone make of a plain one. -/
  tiles : ∀ q, g.tile? q =
    if g.contains q then some (TileAct.applyAll (actsOn q acts) {}) else none
  /-- A tile has a tag if and only if it is on the grid and the last mark of the tag on it put the
  tag on. -/
  tags : ∀ q tag, g.hasTag q tag = true ↔
    g.contains q = true ∧ (TileAct.marks tag (actsOn q acts) {}).getLast? = some true
  /-- Where no edit changes the tag, the marks are the acts that put it on or take it off. -/
  named : ∀ q tag,
    (∀ f, .edit f ∈ actsOn q acts → ∀ tile, (f tile).tags.has tag = tile.tags.has tag) →
      (g.hasTag q tag = true ↔ g.contains q = true ∧
        ((actsOn q acts).filterMap (TileAct.named? tag)).getLast? = some true)
  /-- Putting a tag on tells whether there is a tile, -/
  tagging : ∀ q tag, g.tagInPlace q tag = g.addTag q tag ∧
    ((g.tagInPlace q tag).1 = true ↔ g.contains q = true)
  /-- and taking one off whether the tile had it. -/
  untagging : ∀ q tag, g.untagInPlace q tag = g.removeTag q tag ∧
    ((g.untagInPlace q tag).1 = true ↔ g.hasTag q tag = true)

/-- So they are kept however wide and high the grid is and whatever was done on it. -/
theorem tiles_apart (width height : UInt32) (kind : GridKind) (acts : List Act) (g : Grid)
    (h : (new width height kind).run acts = g) : g.KeepsApart width height kind acts := by
  have hshape : g.width = width ∧ g.height = height ∧ g.kind = kind := h ▸ shape_run
  have hmarks : ∀ q tag, g.hasTag q tag = true ↔
      g.contains q = true ∧ (TileAct.marks tag (actsOn q acts) {}).getLast? = some true :=
    fun q tag => h ▸ hasTag_run_new
  exact {
    shape := hshape
    count := count?_eq width height
    fits := size_lt width height
    placed := fun p => isSome_index?
    place := fun p i hp => by
      obtain ⟨hon, hi⟩ := index?_eq_some.1 hp
      rw [← hshape.1, ← hshape.2.1]
      exact ⟨hi, hi ▸ place_lt hon, tile?_of_index? hp⟩
    apart := fun p q i => index?_inj
    cell := fun a i => tiles_act
    elsewhere := fun a q hne => by rw [act_eq, tile?_modifyTile, if_neg hne]
    off := fun a => act_of_not_contains
    tiles := fun q => h ▸ tile?_run_new
    tags := hmarks
    named := fun q tag hedits => by rw [hmarks, TileAct.marks_eq hedits]
    tagging := fun q tag => ⟨tagInPlace_eq, by rw [tagInPlace_eq, addTag]⟩
    untagging := fun q tag => ⟨untagInPlace_eq, by rw [untagInPlace_eq, removeTag]⟩ }

/-- A trap at the end of the first of two rows. Whoever counts the cells row by row comes to it also
one step to the left of the second row, which is off the grid. -/
def trapAtTheEnd : List Act :=
  [⟨⟨2, 0⟩, .addTag .trapZone⟩, ⟨⟨-1, 1⟩, .removeTag .trapZone⟩, ⟨⟨0, 1⟩, .removeTag .trapZone⟩,
    ⟨⟨2, 0⟩, .edit fun tile => { tile with note := some "pit" }⟩]

/-- The trap stays, and nothing can be done to the left of the second row. -/
theorem tiles_apart_trapAtTheEnd :
    ((new 3 2 .square).run trapAtTheEnd).index? ⟨2, 0⟩ = some 2 ∧
    ((new 3 2 .square).run trapAtTheEnd).contains ⟨-1, 1⟩ = false ∧
    ((new 3 2 .square).run trapAtTheEnd).hasTag ⟨2, 0⟩ .trapZone = true ∧
    ((new 3 2 .square).run trapAtTheEnd).index? ⟨0, 1⟩ ≠ some 2 ∧
    ((new 3 2 .square).run trapAtTheEnd).act ⟨⟨-1, 1⟩, .removeTag .trapZone⟩ =
      (new 3 2 .square).run trapAtTheEnd := by
  have hkept := tiles_apart 3 2 .square trapAtTheEnd _ rfl
  have hplace : ((new 3 2 .square).run trapAtTheEnd).index? ⟨2, 0⟩ = some 2 := by decide
  have hleft : ((new 3 2 .square).run trapAtTheEnd).contains ⟨-1, 1⟩ = false := by decide
  refine ⟨hplace, hleft, (hkept.named ⟨2, 0⟩ .trapZone ?_).2 ⟨by decide, by decide⟩, ?_,
    hkept.off _ hleft⟩
  · intro f hf tile
    have hnote : f = fun tile => { tile with note := some "pit" } := by
      simpa [actsOn, trapAtTheEnd] using hf
    rw [hnote]
  · intro hsame
    exact absurd (hkept.apart _ _ _ hplace hsame) (by decide)

end Grid

end Encounter
