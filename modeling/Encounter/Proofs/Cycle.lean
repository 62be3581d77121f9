import Encounter.Proofs.Rotation
import Mathlib.Data.List.Cycle

/-!
# The turn goes round

What is done to a turn order, one act after the other, leaves the turn at the place of a participant
(`TurnOrder.Placed`, `TurnOrder.placed_after`). From there passing the turn on goes round once in as
many steps as there are participants (`TurnOrder.iterate_next`), and a participant who leaves does
not disturb the holder of the turn, or hands it on to the next in line (`TurnOrder.Rotates`).
-/

set_option autoImplicit false

namespace Encounter.TurnOrder

variable {α : Type} {o : TurnOrder α} {x : EntityId}

/-- Something that is done to a turn order. -/
inductive Act (α : Type) where
  | setParticipants (participants : List EntityId)
  | remove (entity : EntityId)
  | next
  | startRound
  | schedule (rounds : UInt64) (item : α)
  | takeDue

/-- The turn order after an act. -/
def Act.apply (o : TurnOrder α) : Act α → TurnOrder α
  | setParticipants participants => o.setParticipants participants
  | remove entity => o.remove entity
  | next => o.next
  | startRound => o.startRound.2
  | schedule rounds item => o.schedule rounds item
  | takeDue => o.takeDue.2

/-- A new turn order after some acts. -/
def after (participants : List EntityId) (acts : List (Act α)) : TurnOrder α :=
  acts.foldl Act.apply (.new participants)

/-! ## The place of the turn -/

/-- The turn is at the place of a participant, or at the first place if there is nobody. -/
def Placed (o : TurnOrder α) : Prop :=
  o.index < o.participants.length ∨ (o.index = 0 ∧ o.participants.length = 0)

theorem placed_of_index (h : o.index = 0) : o.Placed := by
  unfold Placed
  omega

theorem placed_next (h : o.Placed) : o.next.Placed := by
  unfold next
  split
  · exact h
  · rename_i hp
    exact .inl (Nat.mod_lt _ (List.length_pos_iff.2 fun he => hp (List.isEmpty_iff.2 he)))

theorem placed_remove (h : o.Placed) : (o.remove x).Placed := by
  have hwrap : ∀ n i : Nat, (if n ≤ i then 0 else i) < n ∨ (if n ≤ i then 0 else i) = 0 ∧ n = 0 := by
    intro n i
    split <;> omega
  unfold remove
  split
  · exact h
  · exact hwrap _ _

/-- Every act leaves the turn at a place. -/
theorem placed_apply (a : Act α) (h : o.Placed) : (a.apply o).Placed := by
  cases a with
  | setParticipants participants => exact placed_of_index rfl
  | remove entity => exact placed_remove h
  | next => exact placed_next h
  | startRound => exact placed_of_index rfl
  | schedule rounds item => exact h
  | takeDue => exact h

theorem placed_after (participants : List EntityId) (acts : List (Act α)) :
    (after participants acts).Placed :=
  List.foldlRecOn acts Act.apply (placed_of_index rfl) fun _ h a _ => placed_apply a h

theorem current?_eq_none_iff (h : o.Placed) : o.current? = none ↔ o.participants = [] := by
  rw [current?, List.getElem?_eq_none_iff, ← List.length_eq_zero_iff]
  unfold Placed at h
  omega

/-! ## Going round -/

theorem next_of_index_lt (h : o.index < o.participants.length) :
    o.next = { o with index := (o.index + 1) % o.participants.length } := by
  rw [next, if_neg]
  rw [List.isEmpty_iff]
  exact List.ne_nil_of_length_pos (Nat.zero_lt_of_lt h)

/-- The turn order after some steps. -/
theorem iterate_next (h : o.index < o.participants.length) (k : Nat) :
    next^[k] o = { o with index := (o.index + k) % o.participants.length } := by
  induction k with
  | zero => rw [Function.iterate_zero_apply, Nat.add_zero, Nat.mod_eq_of_lt h]
  | succ k ih =>
    have hlt : (o.index + k) % o.participants.length < o.participants.length :=
      Nat.mod_lt _ (Nat.zero_lt_of_lt h)
    rw [Function.iterate_succ_apply', ih, next_of_index_lt hlt, Nat.mod_add_mod, Nat.add_assoc]

/-- Once round, the turn is where it was. -/
theorem iterate_next_length (h : o.Placed) : next^[o.participants.length] o = o := by
  rcases h with h | ⟨-, h⟩
  · rw [iterate_next h, Nat.add_mod_right, Nat.mod_eq_of_lt h]
  · rw [h, Function.iterate_zero_apply]

/-- Who holds the turn after each of some steps. -/
def holders (o : TurnOrder α) (steps : Nat) : List (Option EntityId) :=
  (List.range steps).map fun i => (next^[i + 1] o).current?

theorem holders_eq (h : o.Placed) : o.holders o.participants.length =
    (o.participants.rotate (o.index + 1)).map some := by
  rcases h with h | ⟨-, h⟩
  · refine List.ext_getElem (by simp [holders]) fun i hi _ => ?_
    have hlt : (i + (o.index + 1)) % o.participants.length < o.participants.length :=
      Nat.mod_lt _ (Nat.zero_lt_of_lt h)
    have hplace : o.index + (i + 1) = i + (o.index + 1) := by omega
    simp only [holders, List.getElem_map, List.getElem_range, List.getElem_rotate,
      iterate_next h, current?, hplace]
    exact List.getElem?_eq_getElem hlt
  · rw [h, List.length_eq_zero_iff.1 h]
    rfl

/-- Once round, everybody gets the turn as often as listed. -/
theorem perm_holders (h : o.Placed) :
    (o.holders o.participants.length).Perm (o.participants.map some) := by
  rw [holders_eq h]
  exact (o.participants.rotate_perm _).map some

/-- The turn passes to the participant behind the holder, counting round. -/
theorem current?_next (hnd : o.participants.Nodup) (hx : o.current? = some x)
    (hm : x ∈ o.participants) : o.next.current? = some (o.participants.next x hm) := by
  obtain ⟨hlt, rfl⟩ := List.getElem?_eq_some_iff.1 hx
  rw [next_of_index_lt hlt, List.next_getElem _ hnd]
  exact List.getElem?_eq_getElem _

/-! ## Leaving -/

/-- Whoever holds the turn keeps it while others leave. -/
theorem current?_remove_of_ne (h : o.Placed) (hx : o.current? ≠ some x) :
    (o.remove x).current? = o.current? := by
  unfold remove
  cases hi : o.participants.idxOf? x with
  | none => rfl
  | some place =>
    obtain ⟨hlt, hplace, -⟩ := List.idxOf?_eq_some_iff.1 hi
    have hne : place ≠ o.index := by
      rintro rfl
      exact hx (by rw [current?, List.getElem?_eq_getElem hlt, hplace])
    have hlen : (o.participants.eraseIdx place).length + 1 = o.participants.length :=
      List.length_eraseIdx_add_one hlt
    have hindex : o.index < o.participants.length := h.elim id fun h => by omega
    simp only [current?, List.getElem?_eraseIdx]
    rcases Nat.lt_or_gt_of_ne hne with hbefore | hbehind
    · have hin : ¬ (o.participants.eraseIdx place).length ≤ o.index - 1 := by omega
      rw [if_pos hbefore, if_neg hin, if_neg (by omega), Nat.sub_add_cancel (by omega)]
    · have hin : ¬ (o.participants.eraseIdx place).length ≤ o.index := by omega
      rw [if_neg (Nat.lt_asymm hbehind), if_neg hin, if_pos hbehind]

/-- If the holder of the turn leaves, the next in line gets it. -/
theorem current?_remove_of_eq (hnd : o.participants.Nodup)
    (hx : o.current? = some x) (hm : x ∈ o.participants) : (o.remove x).current? =
      if o.participants = [x] then none else some (o.participants.next x hm) := by
  have hseated := seated_of_current? hx
  obtain ⟨behind, hline⟩ := line_eq_cons hx
  have hout : x ∉ behind := by
    have hnodup : o.line.Nodup := List.nodup_rotate.2 hnd
    rw [hline] at hnodup
    exact (List.nodup_cons.1 hnodup).1
  have hsingle : o.participants = [x] ↔ behind = [] := by
    rw [← List.rotate_eq_singleton_iff (n := o.index), ← line, hline]
    simp
  have hafter : (o.remove x).current? = behind.head? := by
    rw [current?_eq_head? (seated_remove hseated), line_remove hnd hseated, hline,
      List.filter_cons_of_neg (by simp), filter_ne_of_notMem hout]
  rw [hafter, ← current?_next hnd hx, current?_eq_head? seated_next, line_next, hline,
    List.rotate_cons_succ, List.rotate_zero]
  cases behind with
  | nil => rw [if_pos (hsingle.2 rfl), List.head?_nil]
  | cons y rest => rw [if_neg fun h => List.cons_ne_nil _ _ (hsingle.1 h)]; rfl

/-! ## The rotation -/

/-- How the turn goes round from a turn order on. -/
structure Rotates (o : TurnOrder α) : Prop where
  place : o.index < o.participants.length ∨ (o.index = 0 ∧ o.participants.length = 0)
  nobody : o.current? = none ↔ o.participants = []
  /-- The turn passes to the one behind the holder, counting round. -/
  next : o.participants.Nodup → ∀ x (hm : x ∈ o.participants), o.current? = some x →
    o.next.current? = some (o.participants.next x hm)
  /-- In as many steps as there are participants everybody gets the turn as often as listed. -/
  everybody : (o.holders o.participants.length).Perm (o.participants.map some)
  once : o.participants.Nodup →
    ∀ x ∈ o.participants, (o.holders o.participants.length).count (some x) = 1
  round : TurnOrder.next^[o.participants.length] o = o
  /-- Who leaves gives up one place, and the others keep their order. -/
  erases : ∀ x, (o.remove x).participants = o.participants.erase x
  leaves : o.participants.Nodup →
    ∀ x, (o.remove x).participants = o.participants.filter (· ≠ x)
  keeps : ∀ x, o.current? ≠ some x → (o.remove x).current? = o.current?
  passes : o.participants.Nodup → ∀ x (hm : x ∈ o.participants), o.current? = some x →
    (o.remove x).current? =
      if o.participants = [x] then none else some (o.participants.next x hm)

/-- However a turn order came about, its turn goes round. -/
theorem rotates_after (participants : List EntityId) (acts : List (Act α)) :
    (after participants acts).Rotates := by
  have h := placed_after participants acts
  generalize after participants acts = o at h
  exact {
    place := h
    nobody := current?_eq_none_iff h
    next := fun hnd x hm hx => current?_next hnd hx hm
    everybody := perm_holders h
    once := fun hnd x hx => by
      rw [(perm_holders h).count_eq, List.count_map_of_injective _ _ (Option.some_injective _)]
      exact List.count_eq_one_of_mem hnd hx
    round := iterate_next_length h
    erases := fun x => participants_remove_eq_erase
    leaves := fun hnd x => participants_remove hnd
    keeps := fun x hx => current?_remove_of_ne h hx
    passes := fun hnd x hm hx => current?_remove_of_eq hnd hx hm }

example :
    let o : TurnOrder Unit := after [⟨1⟩, ⟨2⟩, ⟨3⟩] [.next, .remove ⟨1⟩, .next, .remove ⟨3⟩]
    o.current? = some ⟨2⟩ := by decide

end Encounter.TurnOrder
