import Encounter.Listeners
import Mathlib.Data.List.Nodup

/-!
# The listeners, event by event

What each operation does to the list of one event (`subscribers_subscribe`,
`subscribers_unsubscribe`, `subscribers_unsubscribeAll`) and to the stored handlers. No operation
puts a subscriber twice on a list: `UniqueLists` is kept by all of them.
-/

set_option autoImplicit false

namespace Encounter.Listeners

variable {κ : Type} {l : Listeners κ} {event other : String} {s : Subscriber} {h h' : HandlerId}

theorem isSubscribed_iff : l.isSubscribed event s = true ↔ s ∈ l.subscribers event := by
  simp [isSubscribed]

/-! ## Operations -/

@[simp] theorem subscribers_empty : (empty : Listeners κ).subscribers event = [] := by
  simp [subscribers, empty]

@[simp] theorem subscribers_reset : l.reset.subscribers event = [] := by
  simp [subscribers, reset]

theorem subscribers_subscribe : (l.subscribe event s).2.subscribers other =
    if event = other ∧ s ∉ l.subscribers event then l.subscribers event ++ [s]
    else l.subscribers other := by
  unfold subscribe
  split
  · rename_i hs
    rw [isSubscribed_iff] at hs
    rw [if_neg fun hc => hc.2 hs]
  · rename_i hs
    rw [isSubscribed_iff] at hs
    by_cases he : event = other
    · rw [if_pos ⟨he, hs⟩]
      subst he
      simp [subscribers]
    · rw [if_neg fun hc => he hc.1]
      simp only [subscribers, Std.ExtTreeMap.getElem?_insert,
        Std.LawfulEqCmp.compare_eq_iff_eq, if_neg he]

theorem getD_without? (list : List Subscriber) :
    (without? s list).getD [] = list.filter (· ≠ s) := by
  show (if (list.filter (· ≠ s)).isEmpty then none else some _).getD [] = _
  cases list.filter (· ≠ s) <;> rfl

theorem subscribers_unsubscribe : (l.unsubscribe event s).subscribers other =
    if event = other then (l.subscribers other).filter (· ≠ s) else l.subscribers other := by
  simp only [unsubscribe, subscribers, Std.ExtTreeMap.getElem?_alter,
    Std.LawfulEqCmp.compare_eq_iff_eq]
  split
  · rename_i he
    subst he
    cases l.lists[event]? with
    | none => rfl
    | some list => exact getD_without? list
  · rfl

theorem subscribers_unsubscribeAll :
    (l.unsubscribeAll s).subscribers event = (l.subscribers event).filter (· ≠ s) := by
  simp only [unsubscribeAll, subscribers, Std.ExtTreeMap.getElem?_filterMap']
  cases l.lists[event]? with
  | none => rfl
  | some list => exact getD_without? list

theorem subscribers_removeHandler : (l.removeHandler h).subscribers event =
    (l.subscribers event).filter (· ≠ .handler h) :=
  subscribers_unsubscribeAll

theorem mem_unsubscribeAll {s' : Subscriber} :
    s' ∈ (l.unsubscribeAll s).subscribers event ↔ s' ≠ s ∧ s' ∈ l.subscribers event := by
  rw [subscribers_unsubscribeAll, List.mem_filter, decide_eq_true_eq, and_comm]

theorem mem_subscribe {s' : Subscriber} : s' ∈ (l.subscribe event s).2.subscribers other ↔
    (event = other ∧ s' = s) ∨ s' ∈ l.subscribers other := by
  rw [subscribers_subscribe]
  split
  · rename_i hc
    obtain ⟨rfl, -⟩ := hc
    simp [or_comm]
  · rename_i hc
    refine ⟨.inr, ?_⟩
    rintro (⟨rfl, rfl⟩ | hm)
    · exact Classical.byContradiction fun hn => hc ⟨rfl, hn⟩
    · exact hm

/-- A subscription that is there already changes nothing. -/
theorem subscribe_of_mem (hs : s ∈ l.subscribers event) : (l.subscribe event s).2 = l := by
  rw [subscribe, if_pos (isSubscribed_iff.2 hs)]

/-! ## Handlers -/

theorem handler?_addHandler (code : κ) : (l.addHandler code).2.handler? h =
    if (⟨l.nextHandler⟩ : HandlerId) = h then some code else l.handler? h := by
  simp only [addHandler, handler?, Std.ExtTreeMap.getElem?_insert,
    Std.LawfulEqCmp.compare_eq_iff_eq]

theorem handler?_removeHandler : (l.removeHandler h').handler? h =
    if h' = h then none else l.handler? h := by
  simp only [removeHandler, unsubscribeAll, handler?, Std.ExtTreeMap.getElem?_erase,
    Std.LawfulEqCmp.compare_eq_iff_eq]

/-! What is done with handlers leaves the triggers their subscriptions. -/

section
variable {id : TriggerId}

theorem trigger_mem_subscribe : .trigger id ∈ (l.subscribe event (.handler h)).2.subscribers other ↔
    .trigger id ∈ l.subscribers other := by
  rw [mem_subscribe]
  simp

theorem trigger_mem_unsubscribe :
    .trigger id ∈ (l.unsubscribe event (.handler h)).subscribers other ↔
      .trigger id ∈ l.subscribers other := by
  rw [subscribers_unsubscribe]
  split <;> simp

theorem trigger_mem_removeHandler : .trigger id ∈ (l.removeHandler h).subscribers event ↔
    .trigger id ∈ l.subscribers event := by
  rw [subscribers_removeHandler]
  simp

end

/-! ## No subscriber twice -/

/-- No list has a subscriber twice. -/
def UniqueLists (l : Listeners κ) : Prop := ∀ event, (l.subscribers event).Nodup

theorem uniqueLists_empty : (empty : Listeners κ).UniqueLists := fun event => by simp

theorem uniqueLists_reset : l.reset.UniqueLists := fun event => by simp

theorem UniqueLists.subscribe (hl : l.UniqueLists) : (l.subscribe event s).2.UniqueLists := by
  intro other
  rw [subscribers_subscribe]
  split
  · rename_i hc
    exact (hl event).append (List.nodup_singleton s) (by simpa using hc.2)
  · exact hl other

theorem UniqueLists.unsubscribe (hl : l.UniqueLists) : (l.unsubscribe event s).UniqueLists := by
  intro other
  rw [subscribers_unsubscribe]
  split
  · exact (hl other).filter _
  · exact hl other

theorem UniqueLists.unsubscribeAll (hl : l.UniqueLists) : (l.unsubscribeAll s).UniqueLists := by
  intro other
  rw [subscribers_unsubscribeAll]
  exact (hl other).filter _

theorem UniqueLists.removeHandler (hl : l.UniqueLists) : (l.removeHandler h).UniqueLists := by
  intro other
  rw [subscribers_removeHandler]
  exact (hl other).filter _

end Encounter.Listeners
