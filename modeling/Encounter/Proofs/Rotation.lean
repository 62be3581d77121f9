import Encounter.Turn.Order
import Mathlib.Data.List.Rotate

/-!
# The line of those who wait

The participants as they wait, from whoever holds the turn on (`TurnOrder.line`). Passing the turn
rotates the line (`TurnOrder.line_next`), and who leaves is taken out of it
(`TurnOrder.line_remove`), wherever in the order that is. So while participants only leave, the line
is thinned out and nothing else (`TurnOrder.Thinned`).

`TurnOrder.Thinned.line_next` says who is in line when the turn is passed on after that. Those who
are left of the ones behind the holder come in their order and the holder, if still there, comes
last; but if the holder left, the first of them has got the turn by that and is last already.
-/

set_option autoImplicit false

namespace Encounter

/-! ## Lines -/

namespace TurnOrder

variable {α : Type} {o o' : TurnOrder α} {x : EntityId}

/-- The participants in the order in which their turns come, the holder of the turn first. -/
def line (o : TurnOrder α) : List EntityId :=
  o.participants.rotate o.index

/-- Somebody holds the turn, if there is anybody. -/
def Seated (o : TurnOrder α) : Prop :=
  o.participants ≠ [] → o.index < o.participants.length

theorem mem_line : x ∈ o.line ↔ x ∈ o.participants :=
  List.mem_rotate

theorem current?_eq_head? (h : o.Seated) : o.current? = o.line.head? := by
  by_cases hp : o.participants = []
  · rw [current?, line, hp]
    rfl
  · rw [current?, line, List.head?_rotate (h hp)]

/-! ## Passing the turn -/

theorem line_next : o.next.line = o.line.rotate 1 := by
  unfold next
  split
  · rename_i hp
    rw [line, List.isEmpty_iff.1 hp]
    rfl
  · rw [line, line, List.rotate_rotate]
    exact List.rotate_mod _ _

theorem seated_next : o.next.Seated := by
  unfold next
  split
  · rename_i hp
    exact fun h => absurd (List.isEmpty_iff.1 hp) h
  · exact fun h => Nat.mod_lt _ (List.length_pos_iff.2 h)

@[simp] theorem participants_next : o.next.participants = o.participants := by
  unfold next
  split <;> rfl

/-! ## Leaving -/

theorem filter_ne_of_notMem {l : List EntityId} (h : x ∉ l) : l.filter (· ≠ x) = l :=
  List.filter_eq_self.2 fun _ hy => decide_eq_true fun he => h (he ▸ hy)

theorem filter_ne_append_cons {l r : List EntityId} (hl : x ∉ l) (hr : x ∉ r) :
    (l ++ x :: r).filter (· ≠ x) = l ++ r := by
  rw [List.filter_append, List.filter_cons_of_neg (by simp), filter_ne_of_notMem hl,
    filter_ne_of_notMem hr]

/-- Who leaves stood somewhere, once. -/
theorem exists_place {place : Nat} (hnd : o.participants.Nodup)
    (h : o.participants.idxOf? x = some place) :
    ∃ l r, o.participants = l ++ x :: r ∧ l.length = place ∧ x ∉ l ∧ x ∉ r := by
  obtain ⟨hlt, hx, -⟩ := List.idxOf?_eq_some_iff.1 h
  refine ⟨o.participants.take place, o.participants.drop (place + 1), ?_, ?_, ?_⟩
  · conv_lhs => rw [← List.take_append_drop place o.participants, List.drop_eq_getElem_cons hlt, hx]
  · rw [List.length_take]
    omega
  · rw [← List.take_append_drop place o.participants, List.drop_eq_getElem_cons hlt, hx,
      List.nodup_append, List.nodup_cons] at hnd
    exact ⟨fun hm => hnd.2.2 x hm x List.mem_cons_self rfl, hnd.2.1.1⟩

theorem remove_of_notMem (h : x ∉ o.participants) : o.remove x = o := by
  unfold remove
  rw [List.idxOf?_eq_none_iff.2 h]

/-- Who leaves gives up one place. -/
theorem participants_remove_eq_erase : (o.remove x).participants = o.participants.erase x := by
  rw [remove, List.erase_eq_eraseIdx]
  cases o.participants.idxOf? x <;> rfl

theorem participants_remove (hnd : o.participants.Nodup) :
    (o.remove x).participants = o.participants.filter (· ≠ x) := by
  rw [participants_remove_eq_erase, hnd.erase_eq_filter]
  exact List.filter_congr fun _ _ => Bool.eq_iff_iff.2 (by simp)

theorem seated_remove (h : o.Seated) : (o.remove x).Seated := by
  have hwrap : ∀ n i : Nat, 0 < n → (if n ≤ i then 0 else i) < n := by
    intro n i hn
    split <;> omega
  unfold remove
  split
  · exact h
  · exact fun hp => hwrap _ _ (List.length_pos_iff.2 hp)

/-- Counting on from past the end is counting from the beginning. -/
theorem rotate_wrap {ps : List EntityId} {i : Nat} (h : i ≤ ps.length) :
    ps.rotate (if ps.length ≤ i then 0 else i) = ps.drop i ++ ps.take i := by
  rw [← List.rotate_eq_drop_append_take h]
  split
  · rename_i hle
    rw [Nat.le_antisymm h hle, List.rotate_length, List.rotate_zero]
  · rfl

/-- Who leaves is taken out of the line. -/
theorem line_remove (hnd : o.participants.Nodup) (h : o.Seated) :
    (o.remove x).line = o.line.filter (· ≠ x) := by
  cases hi : o.participants.idxOf? x with
  | none =>
    have hx := List.idxOf?_eq_none_iff.1 hi
    rw [remove_of_notMem hx, filter_ne_of_notMem fun hm => hx (mem_line.1 hm)]
  | some place =>
    obtain ⟨l, r, hp, rfl, hl, hr⟩ := exists_place hnd hi
    have hlt : o.index < l.length + (r.length + 1) := by
      have hlt := h (by simp [hp])
      rwa [hp, List.length_append, List.length_cons] at hlt
    have herase : o.participants.eraseIdx l.length = l ++ r := by
      rw [hp, List.eraseIdx_append_of_length_le (Nat.le_refl _), Nat.sub_self,
        List.eraseIdx_cons_zero]
    have hline : o.line = (l ++ x :: r).drop o.index ++ (l ++ x :: r).take o.index := by
      rw [line, hp]
      refine List.rotate_eq_drop_append_take ?_
      rw [List.length_append, List.length_cons]
      omega
    have hafter : (o.remove x).line =
        (l ++ r).drop (if l.length < o.index then o.index - 1 else o.index) ++
          (l ++ r).take (if l.length < o.index then o.index - 1 else o.index) := by
      unfold remove
      rw [hi]
      simp only [line, herase]
      refine rotate_wrap ?_
      rw [List.length_append]
      split <;> omega
    rw [hafter, hline]
    split
    · -- the place is before the turn
      rename_i hbefore
      obtain ⟨k, hk⟩ := Nat.exists_eq_add_of_lt hbefore
      rw [hk, Nat.add_sub_cancel, List.drop_length_add_append, List.take_length_add_append,
        Nat.add_assoc, List.drop_length_add_append, List.take_length_add_append,
        List.drop_succ_cons, List.take_succ_cons, ← List.append_assoc, ← List.append_assoc]
      refine (filter_ne_append_cons ?_ fun hm => hr (List.mem_of_mem_take hm)).symm
      rw [List.mem_append, not_or]
      exact ⟨fun hm => hr (List.mem_of_mem_drop hm), hl⟩
    · -- the place is at the turn or after it
      rename_i hafter
      have hle : o.index ≤ l.length := Nat.le_of_not_lt hafter
      rw [List.drop_append_of_le_length hle, List.take_append_of_le_length hle,
        List.drop_append_of_le_length hle, List.take_append_of_le_length hle,
        List.append_assoc, List.append_assoc, List.cons_append]
      refine (filter_ne_append_cons (fun hm => hl (List.mem_of_mem_drop hm)) ?_).symm
      rw [List.mem_append, not_or]
      exact ⟨hr, fun hm => hl (List.mem_of_mem_take hm)⟩

/-! ## While participants leave -/

/-- The second order is the first one without those who left. -/
structure Thinned (o o' : TurnOrder α) : Prop where
  nodup : o'.participants.Nodup
  seated : o'.Seated
  line : o'.line = o.line.filter (· ∈ o'.participants)

/-- Those who wait behind the holder of the turn, and the holder last, as far as they are
present. -/
def successors (o : TurnOrder α) (present : List EntityId) : List EntityId :=
  (o.line.rotate 1).filter (· ∈ present)

theorem seated_of_current? (h : o.current? = some x) : o.Seated := fun _ =>
  (List.getElem?_eq_some_iff.1 h).1

/-- Who holds the turn is the first in line. -/
theorem line_eq_cons (h : o.current? = some x) : ∃ behind, o.line = x :: behind := by
  rw [current?_eq_head? (seated_of_current? h)] at h
  exact List.head?_eq_some_iff.1 h

namespace Thinned

theorem refl (hnd : o.participants.Nodup) (h : o.Seated) : o.Thinned o where
  nodup := hnd
  seated := h
  line := (List.filter_eq_self.2 fun _ hy => decide_eq_true (mem_line.1 hy)).symm

theorem congr {o₁ : TurnOrder α} (h : o.Thinned o') (hp : o₁.participants = o'.participants)
    (hi : o₁.index = o'.index) : o.Thinned o₁ where
  nodup := hp ▸ h.nodup
  seated := by
    rw [Seated, hp, hi]
    exact h.seated
  line := by
    rw [TurnOrder.line, hp, hi]
    exact h.line

theorem remove (h : o.Thinned o') : o.Thinned (o'.remove x) where
  nodup := by
    rw [participants_remove h.nodup]
    exact h.nodup.filter _
  seated := seated_remove h.seated
  line := by
    rw [line_remove h.nodup h.seated, h.line, List.filter_filter, participants_remove h.nodup]
    refine List.filter_congr fun y _ => ?_
    simp [and_comm]

/-- The line after the turn was passed on. -/
theorem line_next (h : o.Thinned o') (hx : o.current? = some x) :
    o'.next.line = if x ∈ o'.participants then o.successors o'.participants
      else (o.successors o'.participants).rotate 1 := by
  obtain ⟨behind, hline⟩ := line_eq_cons hx
  rw [TurnOrder.line_next, h.line, successors, hline, List.rotate_cons_succ, List.rotate_zero,
    List.filter_append]
  split
  · rename_i hin
    have hfirst : (x :: behind).filter (· ∈ o'.participants) =
        x :: behind.filter (· ∈ o'.participants) := List.filter_cons_of_pos (decide_eq_true hin)
    rw [hfirst, List.rotate_cons_succ, List.rotate_zero]
    simp [hin]
  · rename_i hout
    have hfirst : (x :: behind).filter (· ∈ o'.participants) =
        behind.filter (· ∈ o'.participants) := List.filter_cons_of_neg (by simpa using hout)
    rw [hfirst]
    simp [hout]

theorem nodup_successors (h : o.Thinned o') : (o.successors o'.participants).Nodup := by
  have hnd : o'.line.Nodup := List.nodup_rotate.2 h.nodup
  rw [h.line] at hnd
  exact ((o.line.rotate_perm 1).filter _).nodup_iff.2 hnd

/-- The first successor holds the turn then, unless the holder left and there is a second one. -/
theorem current?_next (h : o.Thinned o') (hx : o.current? = some x) :
    o'.next.current? = (o.successors o'.participants).head? ↔
      x ∈ o'.participants ∨ (o.successors o'.participants).length ≤ 1 := by
  rw [current?_eq_head? seated_next, h.line_next hx]
  split
  · rename_i hin
    exact ⟨fun _ => .inl hin, fun _ => rfl⟩
  · rename_i hout
    have hnd := h.nodup_successors
    rw [or_iff_right hout]
    rcases hl : o.successors o'.participants with _ | ⟨y, _ | ⟨z, rest⟩⟩
    · simp
    · simp
    · rw [hl, List.nodup_cons, List.mem_cons, not_or] at hnd
      simp [List.rotate_cons_succ, Ne.symm hnd.1.1]

end Thinned

end TurnOrder

end Encounter
