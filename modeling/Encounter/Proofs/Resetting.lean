import Encounter.Proofs.Departure
import Encounter.Proofs.Enlisting
import Encounter.Proofs.Holdings

/-!
# After a reset

A reset goes by the roster and removes every live trigger. Since all that has a slot is live, and
all that is owned or listens has a slot, this leaves nothing in any table; the entities lose the
triggers that they own, and everything else stays as it is (`Engine.Rostered.resetEvents_eq`). From
then on no event reaches anybody, until a trigger is stored or a handler subscribed again
(`Engine.Silent`, `Engine.Silent.emit`).

An entity keeps what stands on its list and does not belong to it. This is what somebody wrote there
who rewrote the entity; the operations on triggers put nothing else there than what the entity owns
(`Engine.Listed`).
-/

set_option autoImplicit false

namespace Encounter

open Journal

namespace Engine

variable {κ : Type} {e : Engine κ} {x : EntityId} {event : String} {p : Payload}

/-! ## The tables -/

/-- The world in which every entity has lost the triggers that it owns. -/
def disowned (e : Engine κ) : World :=
  { e.world with
    entities := e.world.entities.map fun x record =>
      { record with triggers := record.triggers.filter (e.owners[·]? ≠ some x) } }

/-- The engine without triggers and without listeners. -/
def silenced (e : Engine κ) : Engine κ :=
  { e with
    world := e.disowned
    listeners := e.listeners.reset
    shelf := .empty e.shelf.nextId
    roster := .empty
    owners := ∅ }

theorem entity?_disowned (e : Engine κ) (x : EntityId) : e.disowned.entity? x =
    (e.world.entity? x).map fun record =>
      { record with triggers := record.triggers.filter (e.owners[·]? ≠ some x) } := by
  simp only [disowned, World.entity?, Std.ExtTreeMap.getElem?_map]

theorem Rostered.mem_roster (h : e.Rostered) (id : TriggerId) :
    id ∈ e.roster.toList ↔ e.shelf.contains id = true := by
  rw [← h.live, Roster.toList, Std.ExtTreeMap.mem_keys, ← Std.ExtTreeMap.contains_iff_mem]
  rfl

/-- Removing all live triggers empties the tables. -/
theorem Rostered.resetEvents_eq (h : e.Rostered) : e.resetEvents = e.silenced := by
  have hcleared := cleared_removeTriggers fun id => (h.mem_roster id).1
  have hrest := removeTriggers_rest e e.roster.toList
  have hapart := removeTriggers_apart (e := e) e.roster.toList
  simp only [resetEvents, silenced, Engine.mk.injEq]
  generalize e.removeTriggers e.roster.toList = e₁ at *
  have hshelf : e₁.shelf = .empty e.shelf.nextId := by
    refine congrArg₂ Shelf.mk (Std.ExtTreeMap.ext_getElem? fun id => ?_) hcleared.nextId
    rw [hcleared.slots, Std.ExtTreeMap.getElem?_empty, ite_eq_left_iff, h.mem_roster,
      Shelf.contains_eq]
    simp
  have hroster : e₁.roster = .empty := by
    refine congrArg Roster.mk (Std.ExtTreeMap.ext_getElem? fun id => ?_)
    rw [hcleared.origins, Std.ExtTreeMap.getElem?_empty, ite_eq_left_iff, Roster.toList,
      Std.ExtTreeMap.mem_keys]
    exact Std.ExtTreeMap.getElem?_eq_none
  have howned : ∀ id x, e.owners[id]? = some x → id ∈ e.roster.toList := fun id x hx =>
    (h.mem_roster id).2 (h.owned id x hx)
  have howners : e₁.owners = ∅ := by
    refine Std.ExtTreeMap.ext_getElem? fun id => ?_
    rw [hcleared.owners, Std.ExtTreeMap.getElem?_empty, ite_eq_left_iff]
    intro hid
    exact Option.eq_none_iff_forall_ne_some.2 fun x hx => hid (howned id x hx)
  have hworld : e₁.world = e.disowned := by
    have hentities : e₁.world.entities = e.disowned.entities := by
      refine Std.ExtTreeMap.ext_getElem? fun x => ?_
      refine (hcleared.entities x).trans (Eq.trans ?_ (entity?_disowned e x).symm)
      refine congrArg (fun f => (e.world.entity? x).map f) (funext fun record => ?_)
      refine congrArg (fun triggers => { record with triggers }) (List.filter_congr fun id _ => ?_)
      exact decide_eq_decide.2 (not_congr (and_iff_right_of_imp (howned id x)))
    rw [hcleared.world, hentities]
    rfl
  have hlisteners : e₁.listeners.reset = e.listeners.reset :=
    congrArg₂ (Listeners.mk ∅) hapart.handlers hapart.nextHandler
  exact ⟨hrest.settings, hworld, hlisteners, hshelf, hroster, howners, hrest.clock, hrest.order,
    hrest.actors, hrest.waiting, hrest.vocabulary, hrest.roller, hrest.gamemaster, hrest.audio⟩

/-! ## Silence -/

/-- No trigger has a slot, and nobody listens. -/
structure Silent (e : Engine κ) : Prop where
  slots : ∀ id, e.shelf.contains id = false
  unheard : ∀ event, e.listeners.subscribers event = []

theorem silent_silenced (e : Engine κ) : e.silenced.Silent where
  slots id := by simp [silenced, Shelf.contains_eq, Shelf.empty]
  unheard event := Listeners.subscribers_reset

/-- Who listens is a trigger with a slot or a handler. -/
theorem Rostered.silent (h : e.Rostered) (hslots : ∀ id, e.shelf.contains id = false)
    (hu : e.Unattended) : e.Silent := by
  refine ⟨hslots, fun event => List.eq_nil_iff_forall_not_mem.2 fun subscriber hin => ?_⟩
  cases subscriber with
  | trigger id =>
    have hslot := h.heard id event hin
    rw [hslots] at hslot
    cases hslot
  | handler handler => exact hu event handler hin

theorem Silent.unattended (h : e.Silent) : e.Unattended := fun event handler hin => by
  rw [h.unheard] at hin
  cases hin

theorem Silent.triggersFor (h : e.Silent) (x : EntityId) (event : String) :
    e.triggersFor x event = [] := by
  unfold Engine.triggersFor
  split
  · rfl
  · refine List.filter_eq_nil_iff.2 fun id _ => ?_
    have hslot : e.shelf.slots[id]? = none := by
      rw [← Option.isNone_iff_eq_none, ← Option.isSome_eq_false_iff, ← Shelf.contains_eq]
      exact h.slots id
    rw [Shelf.get?_eq, hslot]
    simp [Shelf.isOut, hslot]

end Engine

/-! ## Events -/

section
variable {κ σ α : Type} {allowed : Licence κ σ} {s s' : Session κ σ}

/-- If nobody does anything, all of them do nothing. -/
theorem Run.despiteFailures_untouched {serve : α → Payload → Run κ σ Delivery}
    (hserve : ∀ a p, serve a p s = .ok (.untouched p) s) (list : List α) (p : Payload) :
    despiteFailures serve list p s = .ok (.untouched p) s := by
  induction list with
  | nil => rfl
  | cons a rest ih =>
    exact bind_eq_ok.2 ⟨_, s, hserve a p, bind_eq_ok.2 ⟨_, s, ih, rfl⟩⟩

/-- An event that reaches nobody is written down, and that is all. -/
theorem Engine.Silent.emit (h : s.engine.Silent) (host : Host κ σ) (invoke : Invoke κ σ)
    (event : String) (p : Payload) : Run.emit host invoke event p s =
      .ok (.untouched p) { s with journal := .emitted event p :: s.journal } := by
  refine Run.bind_eq_ok.2 ⟨(), { s with journal := .emitted event p :: s.journal }, rfl, ?_⟩
  rw [Run.engine_bind]
  dsimp only
  cases s.engine.deliveryPosition? p with
  | some position =>
    refine Run.despiteFailures_untouched (fun x p => ?_) _ p
    show Run.untilFailure _ (s.engine.triggersFor x event) p _ = _
    rw [h.triggersFor]
    rfl
  | none =>
    show Run.untilFailure _ (s.engine.listeners.subscribers event) p _ = _
    rw [h.unheard]
    rfl

/-! ## Sessions -/

/-- What has a slot had one before or was stored meanwhile. -/
theorem Moves.contains {id : TriggerId} (hm : Moves allowed s s') {ns : List (Notice κ)}
    (hj : s'.journal = ns ++ s.journal) (h : s'.engine.shelf.contains id = true) :
    s.engine.shelf.contains id = true ∨ .stored id ∈ ns := by
  induction hm generalizing ns with
  | refl => exact .inl h
  | tail hm hmove ih =>
    obtain ⟨earlier, hearlier⟩ := Moves.journal hm
    obtain ⟨later, hlater⟩ := hmove.journal
    obtain rfl : ns = later ++ earlier := by
      refine List.append_cancel_right (hj.symm.trans ?_)
      rw [hlater, hearlier, List.append_assoc]
    rcases hmove.contains hlater h with h | h
    · exact (ih hearlier h).imp_right (List.mem_append_right _)
    · exact .inr (List.mem_append_left _ h)

namespace Session

/-- Silence lasts until a trigger is stored or a handler subscribed. -/
theorem silent_of_moves (hm : Moves .subscribesNobody s s') {ns : List (Notice κ)}
    (hj : s'.journal = ns ++ s.journal) (hns : ∀ id, .stored id ∉ ns) (hr : s.engine.Rostered)
    (h : s.engine.Silent) : s'.engine.Silent := by
  refine (rostered_of_moves hm hr).silent (fun id => ?_) ?_
  · rw [← Bool.not_eq_true]
    intro hin
    rcases hm.contains hj hin with hin | hin
    · rw [h.slots] at hin
      cases hin
    · exact hns id hin
  · exact Engine.unattended_invariant.moves False.elim
      (fun _ _ _ hc => Licence.subscribesNobody_of_permits hc) hm h.unattended

/-- No entity has anything left once it has lost the triggers that it owns. -/
theorem triggers_disowned {e : Engine κ} (h : e.Listed) {x : EntityId} {record : Entity}
    (hx : e.disowned.entity? x = some record) : record.triggers = [] := by
  rw [Engine.entity?_disowned] at hx
  obtain ⟨r, hr, rfl⟩ := Option.map_eq_some_iff.1 hx
  refine List.filter_eq_nil_iff.2 fun id hid => ?_
  simpa using h x r hr id hid

/-- A reset is never refused. -/
theorem exists_reset (h : s.engine.Rostered) (left : Nat) :
    ∃ s₁, Run.makeChange .resetEvents { s with budget := left + 1 } = .ok () s₁ ∧
      s₁.engine = s.engine.silenced ∧ s₁.host = s.host ∧ Moves .free s s₁ := by
  have hfits : Change.resetEvents.overflows s.engine = false := Change.overflows_eq_false rfl rfl
  have hmake := Run.makeChange_eq_ok (s := { s with budget := left + 1 }).2
    ⟨left, rfl, rfl, hfits, rfl, rfl⟩
  exact ⟨_, hmake, h.resetEvents_eq, rfl, .trans (.single (.pay (left + 1)))
    ((Run.follows_makeChange (.asked trivial)).moves hmake)⟩

/-- A reset, in any session of a run, empties all tables: the engine has no triggers, no roster, no
owners and no subscriptions then, the entities have lost the triggers that they owned, and all else
is as it was. Every list of an entity is empty if the lists were left to the operations on triggers.
Until a trigger is stored or a handler subscribed, an event reaches nobody, leaves its payload as it
is and changes nothing. What is stored later gets a number that was never given before. -/
theorem reset_silences {κ σ α : Type} (host : Host κ σ) (program : Program κ σ α) (world : WorldId)
    (settings : Settings) (state : σ) (budget : Nat) (s : Session κ σ)
    (hs : s = (opening world settings state budget).reached host program) (left : Nat) :
    ∃ s₁, Run.makeChange .resetEvents { s with budget := left + 1 } = .ok () s₁ ∧
      s₁.engine = s.engine.silenced ∧ s₁.host = s.host ∧
      (host.Within .keepsLists → program.Within .keepsLists →
        ∀ x record, s₁.engine.world.entity? x = some record → record.triggers = []) ∧
      (∀ s₂ ns, Moves .subscribesNobody s₁ s₂ → s₂.journal = ns ++ s₁.journal →
        (∀ id, .stored id ∉ ns) →
          ∀ (host' : Host κ σ) (invoke : Invoke κ σ) (event : String) (p : Payload),
            Run.emit host' invoke event p s₂ =
              .ok (.untouched p) { s₂ with journal := .emitted event p :: s₂.journal }) ∧
      ∀ s₂ ns, Moves .free s₁ s₂ → s₂.journal = ns ++ s₁.journal → ∀ id, .stored id ∈ ns →
        id ∉ storedTriggers s.journal ∧ s.engine.shelf.contains id = false := by
  have hfree : Moves .free (opening world settings state budget) s :=
    hs ▸ reached_moves host.within_free program.within_free
  have hrostered := rostered_of_moves hfree (.new world settings)
  obtain ⟨s₁, hmake, hengine, hhost, hmoves⟩ := exists_reset hrostered left
  refine ⟨s₁, hmake, hengine, hhost, fun hh hp x record hx => ?_,
    fun s₂ ns hm hj hns host' invoke event p => ?_, fun s₂ ns hm hj id hid => ?_⟩
  · have hkept : Moves .keepsLists (opening world settings state budget) s :=
      hs ▸ reached_moves hh hp
    rw [hengine] at hx
    exact triggers_disowned (listed_of_moves hkept (.new world settings)) hx
  · have hsilent : s₁.engine.Silent := hengine ▸ Engine.silent_silenced s.engine
    have hlater := silent_of_moves hm hj hns (rostered_of_moves hmoves hrostered) hsilent
    exact hlater.emit host' invoke event p
  · obtain ⟨during, hduring⟩ := hmoves.journal
    obtain ⟨hnumbered, -, -⟩ := tables_of_free_moves hfree
    obtain ⟨hnumbered₂, -, -⟩ := tables_of_free_moves ((hfree.trans hmoves).trans hm)
    rw [hduring, ← List.append_assoc] at hj
    have hnew := hnumbered₂.fresh hj (List.mem_append_left _ hid)
    refine ⟨hnew, ?_⟩
    rw [← Bool.not_eq_true]
    exact fun hin => hnew (hnumbered.slots id hin)

/-- A guest has a bell, a second bell belongs to nobody, and a handler hears both. -/
def twoBells : Program Unit Unit Unit :=
  .perform (.change (.spawn "guest" .npc)) fun guest =>
    .perform (.change (.register guest (.new "bell" .always (.alert "ring")))) fun _ =>
      .perform (.change (.registerGlobal (.new "bell" .always (.alert "ring")))) fun _ =>
        .perform (.change (.addHandler ())) fun handler =>
          .perform (.change (.subscribe "bell" handler)) fun _ => .done ()

/-- So it is with two bells and a handler. -/
theorem reset_silences_twoBells :
    (Host.removing ⟨1⟩).Within .keepsLists ∧ twoBells.Within .keepsLists ∧
      ∃ s s₁ : Session Unit Unit,
        s = (opening Engine.defaultWorld {} () 100).reached (.removing ⟨1⟩) twoBells ∧
          s.engine.listeners.subscribers "bell" =
            [.trigger ⟨1⟩, .trigger ⟨2⟩, .handler ⟨0⟩] ∧
          Run.makeChange .resetEvents { s with budget := 1 } = .ok () s₁ ∧
          s₁.engine.listeners.subscribers "bell" = [] ∧
          (∀ x record, s₁.engine.world.entity? x = some record → record.triggers = []) ∧
          ∀ p, Run.emit (.removing ⟨1⟩) (fun _ p => pure (.untouched p)) "bell" p s₁ =
            .ok (.untouched p) { s₁ with journal := .emitted "bell" p :: s₁.journal } := by
  have hh : (Host.removing ⟨1⟩).Within .keepsLists := fun _ _ => ⟨trivial, fun _ => trivial⟩
  have hp : twoBells.Within .keepsLists := ⟨trivial, fun _ => ⟨trivial, fun _ => ⟨trivial, fun _ =>
    ⟨trivial, fun _ => ⟨trivial, fun _ => trivial⟩⟩⟩⟩⟩
  obtain ⟨s₁, hmake, hengine, -, hlists, hsilent, -⟩ :=
    reset_silences (.removing ⟨1⟩) twoBells Engine.defaultWorld {} () 100 _ rfl 0
  refine ⟨hh, hp, _, s₁, rfl, by decide +kernel, hmake, ?_, hlists hh hp, fun p => ?_⟩
  · rw [hengine]
    exact Listeners.subscribers_reset
  · exact hsilent s₁ [] .refl rfl (fun _ h => by cases h) _ _ _ p

/-- A guest finds a number on its list that it did not get from the engine. -/
def scribbled : Program Unit Unit Unit :=
  .perform (.change (.spawn "guest" .npc)) fun guest =>
    .perform (.change (.edit guest fun record => { record with triggers := [⟨7⟩] })) fun _ =>
      .done ()

/-- It keeps what was written there, also when everything is reset. -/
theorem reset_leaves_scribbled : ∃ record,
    ((opening Engine.defaultWorld {} () 100).reached (.removing ⟨1⟩)
      scribbled).engine.resetEvents.world.entity? ⟨1⟩ = some record ∧ record.triggers = [⟨7⟩] := by
  refine (Option.map_eq_some_iff (f := Entity.triggers)).1 ?_
  decide +kernel

end Session

end

end Encounter
