import Encounter.Proofs.CheckOut

/-!
# What was removed stays away

Once the slot of a trigger is removed, the trigger is not fired again, not even if it stands on a
list of receivers that was drawn up before, and its number is not given again; and once a handler is
dropped it is not called again (`Session.Settled`). Every move keeps this (`Session.Settled.move`):
a fire begins with a trigger on the shelf (`Move.firing`), a call with the code of a handler
(`Move.handling`), and what is stored is fresh.
-/

set_option autoImplicit false

namespace Encounter

open Journal

/-! ## Removals of an engine -/

namespace Engine

variable {κ : Type} {e : Engine κ} {x : EntityId} {id : TriggerId}

theorem not_contains_removeTrigger (e : Engine κ) (id : TriggerId) :
    ((Change.removeTrigger id).apply e).2.shelf.contains id = false := by
  simp only [Change.apply]
  cases hc : e.shelf.contains id with
  | false =>
    refine orRefuse_cases (P := fun e' => e'.shelf.contains id = false) hc fun answer e' h => ?_
    rw [(removeTrigger_eq_ok.1 h).1] at hc
    cases hc
  | true =>
    rw [removeTrigger_eq_ok.2 ⟨hc, rfl, rfl⟩]
    show ((e.shelf.remove id).2.contains id) = false
    rw [← Bool.not_eq_true, Shelf.contains_remove]
    exact fun h => h.1 rfl

/-- Of the triggers that are removed none is left. -/
theorem not_contains_removeTriggers {ids : List TriggerId} (hid : id ∈ ids) (e : Engine κ) :
    (e.removeTriggers ids).shelf.contains id = false := by
  have hkeeps : ∀ (ids : List TriggerId) (e : Engine κ), e.shelf.contains id = false →
      (e.removeTriggers ids).shelf.contains id = false := fun ids e he =>
    removeTriggers_keeps (P := fun e => e.shelf.contains id = false)
      (fun e₁ i answer e₂ h₁ h => by
        obtain ⟨-, -, rfl⟩ := removeTrigger_eq_ok.1 h
        rw [← Bool.not_eq_true] at h₁ ⊢
        exact fun h => h₁ (Shelf.contains_remove.1 h).2) ids e he
  induction ids generalizing e with
  | nil => cases hid
  | cons i ids ih =>
    rcases List.mem_cons.1 hid with rfl | hid
    · refine hkeeps ids _ ?_
      have h := not_contains_removeTrigger e id
      simp only [Change.apply] at h
      dsimp only
      cases hr : e.removeTrigger id with
      | error failure =>
        rw [hr] at h
        exact h
      | ok p =>
        rw [hr] at h
        exact h
    · exact ih hid _

/-- Removing triggers removes no entity. -/
theorem isSome_entity?_removeTriggers (e : Engine κ) (x : EntityId) (ids : List TriggerId) :
    ((e.removeTriggers ids).world.entity? x).isSome = (e.world.entity? x).isSome := by
  refine removeTriggers_keeps
    (P := fun e' => (e'.world.entity? x).isSome = (e.world.entity? x).isSome) ?_ ids e rfl
  intro e₁ i answer e₂ h₁ hr
  obtain ⟨-, -, rfl⟩ := removeTrigger_eq_ok.1 hr
  show ((e₁.detach i).entity? x).isSome = _
  unfold detach
  split
  · rw [World.isSome_entity?_modifyEntity]
    exact h₁
  · exact h₁

end Engine

/-! ## Sessions -/

section
variable {κ σ : Type} {allowed : Licence κ σ} {s s' : Session κ σ}

/-! ## Triggers -/

/-- What has a slot had one before or was stored. -/
theorem Move.contains {id : TriggerId} (hm : Move allowed s s') {ns : List (Notice κ)}
    (hj : s'.journal = ns ++ s.journal) (h : s'.engine.shelf.contains id = true) :
    s.engine.shelf.contains id = true ∨ .stored id ∈ ns := by
  cases hm.kind hj with
  | quiet ns he =>
    rw [he.shelf] at h
    exact .inl h
  | change c =>
    rw [Shelf.contains_eq] at h ⊢
    rcases c.slot_cases s.engine id with ⟨hin, -⟩ | ⟨-, hid | hid | ⟨-, t, t', ht, -⟩⟩
    · exact .inr (stored_mem_notices.2 hin)
    · rw [hid] at h
      exact .inl h
    · rw [hid] at h
      cases h
    · exact .inl (by rw [ht]; rfl)
  | checkOut hget =>
    rw [Shelf.contains_checkOut hget] at h
    exact .inl h
  | checkIn =>
    rw [Shelf.contains_checkIn] at h
    exact .inl h
  | handle => exact .inl h

/-- What loses its slot is written down. -/
theorem Move.dropped {id : TriggerId} (hm : Move allowed s s') {ns : List (Notice κ)}
    (hj : s'.journal = ns ++ s.journal) :
    .dropped id ∈ ns ↔
      s.engine.shelf.contains id = true ∧ s'.engine.shelf.contains id = false := by
  have hkept : s'.engine.shelf.contains id = s.engine.shelf.contains id →
      ¬(s.engine.shelf.contains id = true ∧ s'.engine.shelf.contains id = false) := by
    rintro h ⟨hb, ha⟩
    rw [h, hb] at ha
    cases ha
  cases hm.kind hj with
  | quiet ns he hj' ha =>
    exact iff_of_false (fun h => by cases ha _ h) (hkept (by rw [he.shelf]))
  | change c => exact dropped_mem_notices
  | checkOut hget =>
    exact iff_of_false (fun h => by cases List.mem_singleton.1 h)
      (hkept (Shelf.contains_checkOut hget))
  | checkIn =>
    exact iff_of_false (fun h => by cases List.mem_singleton.1 h) (hkept Shelf.contains_checkIn)
  | handle => exact iff_of_false (fun h => by cases List.mem_singleton.1 h) (hkept rfl)

/-- What is stored has a slot. -/
theorem Move.stored {id : TriggerId} (hm : Move allowed s s') {ns : List (Notice κ)}
    (hj : s'.journal = ns ++ s.journal) (h : .stored id ∈ ns) :
    s'.engine.shelf.contains id = true := by
  cases hm.kind hj with
  | quiet ns he hj' ha => cases ha _ h
  | change c =>
    have hin := stored_mem_notices.1 h
    rcases c.slot_cases s.engine id with ⟨-, t, ht⟩ | ⟨hout, -⟩
    · exact Shelf.contains_of_get? (Shelf.get?_eq_some.2 ht)
    · exact absurd hin hout
  | _ => cases List.mem_singleton.1 h

/-! ## Handlers -/

theorem mem_notices_of_isOfHandler {α : Type} {c : Change κ α} {e e' : Engine κ} {n : Notice κ}
    (hn : n.isOfHandler = true) : n ∈ c.notices e e' ↔ n ∈ c.remarks e := by
  simp only [Change.notices, List.mem_append, List.mem_map]
  refine ⟨?_, fun h => .inr (.inr h)⟩
  rintro (⟨id, -, rfl⟩ | ⟨id, -, rfl⟩ | h)
  · cases hn
  · cases hn
  · exact h

/-- A call begins with the code of a handler. -/
theorem Move.handling {h : HandlerId} (hm : Move allowed s s') {ns : List (Notice κ)}
    (hj : s'.journal = ns ++ s.journal) (hh : .handling h ∈ ns) :
    ns = [.handling h] ∧ (s.engine.listeners.handler? h).isSome = true := by
  cases hm.kind hj with
  | quiet ns he hj' ha => cases ha _ hh
  | change c =>
    rw [mem_notices_of_isOfHandler rfl] at hh
    rcases c.handlers_apply s.engine with ⟨-, hr⟩ | ⟨-, hr, -⟩ | ⟨handler, -, hr⟩
    · cases hr _ hh
    · rw [hr, List.mem_singleton] at hh
      cases hh
    · rw [hr, List.mem_ite_nil_right, List.mem_singleton] at hh
      cases hh.2
  | handle hcode =>
    cases List.mem_singleton.1 hh
    exact ⟨rfl, by rw [hcode]; rfl⟩
  | _ => cases List.mem_singleton.1 hh

/-- The code of a handler was there before or was stored. -/
theorem Move.handler? {h : HandlerId} (hm : Move allowed s s') {ns : List (Notice κ)}
    (hj : s'.journal = ns ++ s.journal) (hh : (s'.engine.listeners.handler? h).isSome = true) :
    (s.engine.listeners.handler? h).isSome = true ∨ .handlerStored h ∈ ns := by
  cases hm.kind hj with
  | quiet ns he =>
    rw [he.listeners] at hh
    exact .inl hh
  | change c =>
    rw [mem_notices_of_isOfHandler rfl]
    exact (handler?_of_isSome_change hh).symm
  | _ => exact .inl hh

/-- A handler that is the same as before has not been dropped. -/
theorem not_dropped_of_same {before after : Engine κ} {h : HandlerId}
    (he : after.listeners.handler? h = before.listeners.handler? h) :
    ¬((before.listeners.handler? h).isSome = true ∧ after.listeners.handler? h = none) := by
  rintro ⟨hb, ha⟩
  rw [← he, ha] at hb
  cases hb

/-- A change writes down which handlers it drops. -/
theorem handlerDropped_mem_notices {α : Type} {c : Change κ α} {e : Engine κ} {h : HandlerId} :
    .handlerDropped h ∈ c.notices e (c.apply e).2 ↔
      (e.listeners.handler? h).isSome = true ∧ (c.apply e).2.listeners.handler? h = none := by
  rw [mem_notices_of_isOfHandler rfl]
  rcases c.handlers_apply e with ⟨he, hr⟩ | ⟨⟨code, hl⟩, hr, -⟩ | ⟨handler, hl, hr⟩
  · exact iff_of_false (fun h => by cases hr _ h) (not_dropped_of_same (he.handler? h))
  · rw [hr, List.mem_singleton]
    refine iff_of_false (fun h => by cases h) ?_
    rintro ⟨hb, ha⟩
    rw [hl, Listeners.handler?_addHandler] at ha
    split at ha
    · cases ha
    · rw [ha] at hb
      cases hb
  · by_cases heq : handler = h
    · subst heq
      rw [hr, hl, Listeners.handler?_removeHandler, if_pos rfl, List.mem_ite_nil_right]
      simp
    · have hsame : (c.apply e).2.listeners.handler? h = e.listeners.handler? h := by
        rw [hl, Listeners.handler?_removeHandler, if_neg heq]
      refine iff_of_false (fun hd => ?_) (not_dropped_of_same hsame)
      rw [hr, List.mem_ite_nil_right, List.mem_singleton] at hd
      cases hd.2
      exact heq rfl

/-- Handlers that are dropped are written down. -/
theorem Move.handlerDropped {h : HandlerId} (hm : Move allowed s s') {ns : List (Notice κ)}
    (hj : s'.journal = ns ++ s.journal) :
    .handlerDropped h ∈ ns ↔ (s.engine.listeners.handler? h).isSome = true ∧
      s'.engine.listeners.handler? h = none := by
  cases hm.kind hj with
  | quiet ns he hj' ha =>
    exact iff_of_false (fun h => by cases ha _ h) (not_dropped_of_same (by rw [he.listeners]))
  | change c => exact handlerDropped_mem_notices
  | _ =>
    exact iff_of_false (fun h => by cases List.mem_singleton.1 h) (not_dropped_of_same rfl)

/-- A handler that is stored is there. -/
theorem Move.handlerStored {h : HandlerId} (hm : Move allowed s s') {ns : List (Notice κ)}
    (hj : s'.journal = ns ++ s.journal) (hh : .handlerStored h ∈ ns) :
    (s'.engine.listeners.handler? h).isSome = true := by
  cases hm.kind hj with
  | quiet ns he hj' ha => cases ha _ hh
  | change c =>
    rw [mem_notices_of_isOfHandler rfl] at hh
    rcases c.handlers_apply s.engine with ⟨-, hr⟩ | ⟨⟨code, hl⟩, hr, -⟩ | ⟨handler, -, hr⟩
    · cases hr _ hh
    · rw [hr, List.mem_singleton] at hh
      cases hh
      rw [hl, Listeners.handler?_addHandler, if_pos rfl]
      rfl
    · rw [hr, List.mem_ite_nil_right, List.mem_singleton] at hh
      cases hh.2
  | _ => cases List.mem_singleton.1 hh

end

/-! ## Triggers and handlers alike -/

namespace Subscriber

variable {κ : Type}

/-- Is the trigger or the handler still there? -/
def isHere (e : Engine κ) : Subscriber → Bool
  | trigger id => e.shelf.contains id
  | handler id => (e.listeners.handler? id).isSome

/-- What the journal says when it gets its number. -/
def arrival : Subscriber → Notice κ
  | trigger id => .stored id
  | handler id => .handlerStored id

/-- What the journal says when it is removed. -/
def departure : Subscriber → Notice κ
  | trigger id => .dropped id
  | handler id => .handlerDropped id

/-- Does the notice tell that it starts: that the trigger is fired, or the handler called? -/
def starts : Subscriber → Notice κ → Bool
  | trigger id, .firing i _ => i = id
  | handler id, .handling i => i = id
  | _, _ => false

end Subscriber

/-- The triggers and handlers that a change removes, whether on their own or with their entity or
with all others. -/
def Change.removes {κ α : Type} (e : Engine κ) : Change κ α → List Subscriber
  | .removeTrigger id => [.trigger id]
  | .removeEntity x =>
    if (e.world.entity? x).isSome then (e.triggersOf x).map .trigger else []
  | .resetEvents => e.roster.toList.map .trigger
  | .removeHandler handler => [.handler handler]
  | _ => []

/-- What a change removes is not there after it. -/
theorem Change.not_isHere_of_removes {κ α : Type} {c : Change κ α} {e : Engine κ} {x : Subscriber}
    (h : x ∈ c.removes e) : x.isHere (c.apply e).2 = false := by
  cases c with
  | removeTrigger id =>
    cases List.mem_singleton.1 h
    exact Engine.not_contains_removeTrigger e id
  | removeEntity entity =>
    simp only [removes] at h
    split at h
    · rename_i hsome
      obtain ⟨id, hid, rfl⟩ := List.mem_map.1 h
      have hrest := (Engine.isSome_entity?_removeTriggers e entity (e.triggersOf entity)).trans hsome
      obtain ⟨removed, world, hr⟩ := World.remove?_isSome hrest
      have happly : (Change.removeEntity entity).apply e = e.orRefuse (e.removeEntity entity) := rfl
      rw [happly, Engine.removeEntity]
      simp only [hr]
      exact Engine.not_contains_removeTriggers hid e
    · cases h
  | resetEvents =>
    obtain ⟨id, hid, rfl⟩ := List.mem_map.1 h
    exact Engine.not_contains_removeTriggers hid e
  | removeHandler handler =>
    cases List.mem_singleton.1 h
    show (Listeners.handler? (e.listeners.removeHandler handler) handler).isSome = false
    rw [Listeners.handler?_removeHandler, if_pos rfl]
    rfl
  | _ => cases h

/-- What was there and is removed by a change is written down. -/
theorem Change.departure_of_removes {κ α : Type} {c : Change κ α} {e : Engine κ} {x : Subscriber}
    (h : x ∈ c.removes e) (hin : x.isHere e = true) :
    x.departure ∈ c.notices e (c.apply e).2 := by
  have hout := not_isHere_of_removes h
  cases x with
  | trigger id => exact dropped_mem_notices.2 ⟨hin, hout⟩
  | handler id =>
    rw [Subscriber.isHere, Option.isSome_eq_false_iff, Option.isNone_iff_eq_none] at hout
    exact handlerDropped_mem_notices.2 ⟨hin, hout⟩

section
variable {κ σ : Type} {allowed : Licence κ σ} {s s' : Session κ σ} {x : Subscriber}

theorem Session.Numbered.arrived (hn : s.Numbered) (h : x.isHere s.engine = true) :
    x.arrival ∈ s.journal := by
  cases x with
  | trigger id => exact mem_storedTriggers.1 (hn.slots id h)
  | handler id => exact mem_storedHandlers.1 (hn.codes id h)

/-- A number that was given is not given again. -/
theorem Session.Numbered.arrives_once (hn : s.Numbered) {ns j : List (Notice κ)}
    (hj : s.journal = ns ++ j) (h : x.arrival ∈ ns) : x.arrival ∉ j := by
  cases x with
  | trigger id => exact fun hold => hn.fresh hj h (mem_storedTriggers.2 hold)
  | handler id => exact fun hold => hn.fresh_handler hj h (mem_storedHandlers.2 hold)

namespace Move

variable {ns : List (Notice κ)} (hm : Move allowed s s') (hj : s'.journal = ns ++ s.journal)
include hm hj

theorem isHere (h : x.isHere s'.engine = true) : x.isHere s.engine = true ∨ x.arrival ∈ ns := by
  cases x with
  | trigger id => exact hm.contains hj h
  | handler id => exact hm.handler? hj h

theorem arrival (h : x.arrival ∈ ns) : x.isHere s'.engine = true := by
  cases x with
  | trigger id => exact hm.stored hj h
  | handler id => exact hm.handlerStored hj h

theorem departure : x.departure ∈ ns ↔ x.isHere s.engine = true ∧ x.isHere s'.engine = false := by
  cases x with
  | trigger id => exact hm.dropped hj
  | handler id =>
    refine (hm.handlerDropped hj).trans ?_
    rw [Subscriber.isHere, Subscriber.isHere, Option.isSome_eq_false_iff, Option.isNone_iff_eq_none]

/-- Only what is there starts, and nothing else happens then. -/
theorem starts {n : Notice κ} (hn : n ∈ ns) (h : x.starts n = true) :
    ns = [n] ∧ x.isHere s.engine = true := by
  cases x with
  | trigger id =>
    cases n with
    | firing i t =>
      cases of_decide_eq_true h
      obtain ⟨hone, hget, -⟩ := hm.firing hj hn
      exact ⟨hone, Shelf.contains_of_get? hget⟩
    | _ => cases h
  | handler id =>
    cases n with
    | handling i =>
      cases of_decide_eq_true h
      exact hm.handling hj hn
    | _ => cases h

end Move

/-- What was removed is not there, and since then neither started nor got its number again; and what
is not there, though it was once, was removed. -/
structure Session.Settled (s : Session κ σ) : Prop where
  known : ∀ x : Subscriber, x.departure ∈ s.journal → x.arrival ∈ s.journal
  noted : ∀ x : Subscriber,
    x.arrival ∈ s.journal → x.isHere s.engine = false → x.departure ∈ s.journal
  away : ∀ (x : Subscriber) (later earlier : List (Notice κ)),
    s.journal = later ++ x.departure :: earlier →
      x.isHere s.engine = false ∧ x.arrival ∉ later ∧ ∀ n ∈ later, x.starts n = false

theorem Subscriber.starts_departure (x : Subscriber) :
    x.starts (x.departure : Notice κ) = false := by
  cases x <;> rfl

/-- Every move leaves away what was removed. -/
theorem Session.Settled.move (hm : Move allowed s s') (hn : s.Numbered) (hs : s.Settled) :
    s'.Settled := by
  obtain ⟨ns, hj⟩ := hm.journal
  have hn' := hn.move hm
  refine ⟨fun x h => ?_, fun x h hout => ?_, fun x later earlier h => ?_⟩
  · rw [hj, List.mem_append] at h ⊢
    rcases h with h | h
    · exact .inr (hn.arrived ((hm.departure hj).1 h).1)
    · exact .inr (hs.known x h)
  · rw [hj, List.mem_append] at h ⊢
    rcases h with h | h
    · rw [hm.arrival hj h] at hout
      cases hout
    · cases hin : x.isHere s.engine with
      | true => exact .inl ((hm.departure hj).2 ⟨hin, hout⟩)
      | false => exact .inr (hs.noted x h hin)
  · rcases split_append (hj.symm.trans h) with ⟨later', rfl, hold⟩ | ⟨rest, hns, rfl⟩
    · -- removed before this move: it does not come back
      obtain ⟨hout, harr, hstart⟩ := hs.away x later' earlier hold
      have hknown := hs.known x (by simp [hold])
      have hnew : x.arrival ∉ ns := fun h => hn'.arrives_once hj h hknown
      refine ⟨?_, ?_, fun n hmem => ?_⟩
      · rw [← Bool.not_eq_true]
        intro hin
        rcases hm.isHere hj hin with hin | hin
        · rw [hout] at hin
          cases hin
        · exact hnew hin
      · rw [List.mem_append, not_or]
        exact ⟨hnew, harr⟩
      · rcases List.mem_append.1 hmem with hmem | hmem
        · rw [← Bool.not_eq_true]
          intro h
          have hin := (hm.starts hj hmem h).2
          rw [hout] at hin
          cases hin
        · exact hstart n hmem
    · -- removed by this move, which does nothing else with it
      have hdep : x.departure ∈ ns := by simp [hns]
      obtain ⟨hin, hout⟩ := (hm.departure hj).1 hdep
      have hsub : ∀ n ∈ later, n ∈ ns := fun n h => by simp [hns, h]
      refine ⟨hout, fun h => ?_, fun n hmem => ?_⟩
      · exact hn'.arrives_once hj (hsub _ h) (hn.arrived hin)
      · rw [← Bool.not_eq_true]
        intro h
        rw [(hm.starts hj (hsub n hmem) h).1, List.mem_singleton] at hdep
        rw [← hdep, x.starts_departure] at h
        cases h

end

section
variable {κ σ α : Type} (host : Host κ σ) (p : Program κ σ α) (world : WorldId)
  (settings : Settings) (state : σ) (budget : Nat)

theorem Session.Settled.opening :
    (Session.opening (κ := κ) world settings state budget).Settled :=
  ⟨fun _ h => (by cases h), fun _ h => (by cases h),
    fun _ _ _ h => (by simp [Session.opening] at h)⟩

/-- Removals are for good. What a change removes is not there after it, and is written down as
removed; and every session of a run is settled. -/
theorem Session.removed_stays_away :
    (∀ (β : Type) (c : Change κ β) (e : Engine κ), ∀ x ∈ c.removes e,
      x.isHere (c.apply e).2 = false ∧
        (x.isHere e = true → x.departure ∈ c.notices e (c.apply e).2)) ∧
    ((Session.opening world settings state budget).reached host p).Settled := by
  have hmoves : Moves .free (Session.opening world settings state budget)
      ((Session.opening world settings state budget).reached host p) :=
    Session.reached_moves (Host.within_free host) (Program.within_free p)
  obtain ⟨-, hs⟩ := hmoves.keep (P := fun s => s.Numbered ∧ s.Settled)
    (fun _ _ hm hs => ⟨hs.1.move hm, hs.2.move hm hs.1⟩) ⟨.opening .., .opening ..⟩
  exact ⟨fun _ _ _ _ hx => ⟨Change.not_isHere_of_removes hx, Change.departure_of_removes hx⟩, hs⟩

end

end Encounter
