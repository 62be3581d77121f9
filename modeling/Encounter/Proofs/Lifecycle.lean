import Encounter.Proofs.Coherence

/-!
# The life of a trigger in a run

In every session of a run the tables agree with the cards of the triggers, on the shelf or firing
(`Session.coherent_move`). Changes do so by `Engine.Coherent.change`; a fire begins and ends without
any other table noticing, since the trigger keeps its card (`Session.card?_move`). What else is said
of tables and cards is kept by moves in the same way (`Session.tables_move`).
-/

set_option autoImplicit false

namespace Encounter

open Journal

/-- The operations that leave the tables to the operations on triggers. -/
def Licence.keepsTables {κ σ : Type} : Licence κ σ
  | _, .change c => c.KeepsTables
  | _, _ => True

theorem Trigger.card_eq {κ : Type} {t t' : Trigger κ} (h : t'.unfired = t.unfired) :
    t'.card = t.card := by
  have hevent : t'.unfired.event = t.unfired.event := by rw [h]
  have hsource : t'.unfired.head.source = t.unfired.head.source := by rw [h]
  exact congrArg₂ Card.mk hevent (congrArg (·.getD Roster.unknown) hsource)

namespace Session

section
variable {κ σ : Type} {allowed : Licence κ σ} {s s' : Session κ σ} {id : TriggerId}

/-- The card of a trigger, on the shelf or firing. -/
def card? (s : Session κ σ) (id : TriggerId) : Option Card :=
  (s.trigger? id).map Trigger.card

/-- The card of a firing trigger. -/
def firingCard (s : Session κ σ) (id : TriggerId) : Card :=
  ((firing? s.journal id).map Trigger.card).getD ⟨"", Roster.unknown⟩

/-- Every slot has its trigger. -/
theorem isSome_trigger? (hd : s.Disciplined) :
    (s.trigger? id).isSome = s.engine.shelf.contains id := by
  cases hc : s.engine.shelf.contains id with
  | true =>
    rcases Shelf.get?_or_isOut hc with ⟨t, ht⟩ | ho
    · rw [trigger?, ht]
      rfl
    · have hf := hd.fire_of_out ho
      rw [trigger?, Option.isSome_or, hf, Bool.or_true]
  | false =>
    rw [← Bool.not_eq_true]
    intro h
    obtain ⟨t, ht⟩ := Option.isSome_iff_exists.1 h
    rw [contains_of_trigger? hd ht] at hc
    cases hc

theorem card?_eq (hd : s.Disciplined) (id : TriggerId) :
    s.card? id = s.engine.card? s.firingCard id := by
  rcases hs : s.engine.shelf.slots[id]? with _ | _ | t
  · have hnone : s.trigger? id = none := by
      rw [← Option.isNone_iff_eq_none, ← Option.isSome_eq_false_iff, isSome_trigger? hd,
        Shelf.contains_eq, hs]
      rfl
    rw [card?, hnone, Engine.card?, hs]
    rfl
  · have hf := hd.fire_of_out (Shelf.isOut_iff.2 hs)
    obtain ⟨t, ht⟩ := Option.isSome_iff_exists.1 hf
    rw [card?, trigger?, Shelf.get?_eq, Engine.card?, hs, firingCard, ht]
    rfl
  · have hget := Shelf.get?_eq_some.2 hs
    rw [Engine.card?_of_get? hget, card?, trigger?, hget]
    rfl

/-- A move that neither stores nor removes nor rewrites a trigger leaves it its card. -/
theorem card?_move (hm : Move allowed s s') (hn : s.Numbered) (hd : s.Disciplined)
    {ns : List (Notice κ)} (hj : s'.journal = ns ++ s.journal) (hst : .stored id ∉ ns)
    (hdrop : .dropped id ∉ ns) (hrw : .rewritten id ∉ ns) : s'.card? id = s.card? id := by
  cases ht : s.trigger? id with
  | some t =>
    obtain ⟨t', ht', hun⟩ := trigger?_move hm hn hd hj ht hdrop
    rw [card?, card?, ht, ht']
    exact congrArg some (Trigger.card_eq (hun hrw))
  | none =>
    have hout : s.engine.shelf.contains id = false := by
      rw [← isSome_trigger? hd, ht]
      rfl
    have hout' : s'.trigger? id = none := by
      rw [← Option.isNone_iff_eq_none, ← Option.isSome_eq_false_iff,
        isSome_trigger? (hd.move hm hn), ← Bool.not_eq_true]
      intro hin
      rcases hm.contains hj hin with hin | hin
      · rw [hout] at hin
        cases hin
      · exact hst hin
    rw [card?, card?, ht, hout']

/-- A change does not end a fire, so the cards of firing triggers stay. -/
theorem card?_change {α : Type} {c : Change κ α} (hd' : s'.Disciplined)
    (hj : s'.journal = c.notices s.engine s'.engine ++ s.journal) (id : TriggerId) :
    s'.card? id = s'.engine.card? s.firingCard id := by
  rw [card?_eq hd', Engine.card?, Engine.card?]
  rcases hs : s'.engine.shelf.slots[id]? with _ | _ | t
  · rfl
  · have hkept : .dropped id ∉ c.notices s.engine s'.engine := by
      rw [dropped_mem_notices, Shelf.contains_eq _ id, Shelf.contains_eq _ id, hs]
      simp
    rw [firingCard, firingCard, hj, firing?_append (fun _ => isOfFire_of_mem_notices) hkept]
  · rfl

/-- What the tables and the cards satisfy is kept by every move, if the shelf plays no part in it and
the changes that occur keep it. -/
theorem tables_move {P : (TriggerId → Option Card) → Engine κ → Prop}
    (hsame : ∀ (card : TriggerId → Option Card) (e e' : Engine κ),
      ({ e with shelf := e'.shelf } : Engine κ).SameTables e' → P card e → P card e')
    (hchange : ∀ {α : Type} (c : Change κ α) (firing : TriggerId → Card) (e : Engine κ),
      allowed.Permits c → c.isEndless e = false → (c.stored e).Nodup →
        (∀ id ∈ c.stored e, e.shelf.contains id = false) → P (e.card? firing) e →
          P ((c.apply e).2.card? firing) (c.apply e).2)
    (hm : Move allowed s s') (hn : s.Numbered) (hd : s.Disciplined) (h : P s.card? s.engine) :
    P s'.card? s'.engine := by
  have hd' := hd.move hm hn
  obtain ⟨ns, hj, hkind⟩ := hm.exists_kind
  have hkept : (∀ n ∈ ns, ∀ id, n ≠ .stored id ∧ n ≠ .dropped id ∧ n ≠ .rewritten id) →
      s'.card? = s.card? := fun hns => funext fun id =>
    card?_move hm hn hd hj (fun h => (hns _ h id).1 rfl) (fun h => (hns _ h id).2.1 rfl)
      fun h => (hns _ h id).2.2 rfl
  cases hkind with
  | quiet ns he hj' ha =>
    rw [hkept fun n hmem id => ?_]
    · exact hsame _ s.engine _ ⟨rfl, he.listeners, he.roster, he.owners, he.triggers⟩ h
    · have haside := ha n hmem
      refine ⟨?_, ?_, ?_⟩ <;> rintro rfl <;> cases haside
  | change c hc hend hfit =>
    rw [funext (card?_eq hd)] at h
    have hn' := hn.move hm
    have hnodup := hn'.nodup
    rw [storedTriggers_append, storedTriggers_notices] at hnodup
    rw [funext (card?_change hd' rfl)]
    refine hchange c _ _ hc hend (List.nodup_reverse.1 hnodup.of_append_left) (fun id hid => ?_) h
    rw [← Bool.not_eq_true]
    exact fun hin => hn.not_stored hend hc hfit (hn.slots id hin) hid
  | checkOut hget =>
    rw [hkept (by simp)]
    exact hsame _ s.engine _ (.of_world rfl rfl rfl rfl rfl) h
  | checkIn hun ht =>
    rw [hkept (by simp)]
    exact hsame _ s.engine _ (.of_world rfl rfl rfl rfl rfl) h
  | handle hcode =>
    rw [hkept (by simp)]
    exact hsame _ s.engine _ (.of_world rfl rfl rfl rfl rfl) h

theorem keepsTables_of_permits {α : Type} {c : Change κ α}
    (h : (Licence.keepsTables (σ := σ)).Permits c) : c.KeepsTables := by
  cases h with
  | asked h => exact h
  | _ => trivial

/-- Every move keeps the tables in step. -/
theorem coherent_move (hm : Move .keepsTables s s') (hn : s.Numbered) (hd : s.Disciplined)
    (h : s.engine.Coherent s.card?) : s'.engine.Coherent s'.card? := by
  refine tables_move (P := fun card e => e.Coherent card) (fun card e e' hs h => ?_) ?_ hm hn hd h
  · refine h.congr hs.roster hs.owners hs.triggers ?_ ?_ fun _ => rfl <;> rw [hs.listeners]
    · exact fun _ _ => Iff.rfl
    · exact h.once
  · exact fun c _ _ hc hend hids hnew h => h.change c (keepsTables_of_permits hc) hend hids hnew

end

/-- The five tables say the same about every trigger: the shelf that it has a slot, the roster that
it is live and where it comes from, the listeners that it hears its event, the owners and the lists
of the entities whose it is. -/
structure Coherent {κ σ : Type} (s : Session κ σ) : Prop where
  live : ∀ id, s.engine.shelf.contains id = true ↔ s.engine.roster.contains id = true
  heard : ∀ id, s.engine.shelf.contains id = true ↔
    ∃ event, .trigger id ∈ s.engine.listeners.subscribers event
  /-- Who has a slot is there, on the shelf or firing. -/
  found : ∀ id, s.engine.shelf.contains id = true ↔ (s.trigger? id).isSome = true
  /-- It is subscribed once to its own event, and to no other. -/
  once : ∀ id t, s.trigger? id = some t → ∀ event,
    (s.engine.listeners.subscribers event).count (.trigger id) = if event = t.event then 1 else 0
  origin : ∀ id t, s.trigger? id = some t →
    s.engine.roster.origin id = t.head.source.getD Roster.unknown
  owned : ∀ id x, s.engine.owners[id]? = some x ↔
    ∃ record, s.engine.world.entity? x = some record ∧ id ∈ record.triggers
  /-- What is owned is on the list of its owner once, and on no other. -/
  alone : ∀ id x, s.engine.owners[id]? = some x → ∀ y record,
    s.engine.world.entity? y = some record → record.triggers.count id = if y = x then 1 else 0
  /-- What is owned has a slot. -/
  stored : ∀ id x, s.engine.owners[id]? = some x → s.engine.shelf.contains id = true

theorem Coherent.of_engine {κ σ : Type} {s : Session κ σ} (hd : s.Disciplined)
    (h : s.engine.Coherent s.card?) : s.Coherent := by
  have hcard : ∀ id, (s.card? id).isSome = s.engine.shelf.contains id := fun id => by
    rw [card?, Option.isSome_map, isSome_trigger? hd]
  have hlive : ∀ id, s.engine.roster.contains id = s.engine.shelf.contains id := fun id => by
    rw [Roster.contains, Std.ExtTreeMap.contains_eq_isSome_getElem?, h.live, Option.isSome_map,
      hcard]
  refine ⟨fun id => by rw [hlive], fun id => ?_, fun id => by rw [isSome_trigger? hd],
    fun id t ht event => ?_, fun id t ht => ?_, h.owned, fun id x ho y record hy => ?_,
    fun id x ho => (hcard id).symm.trans (h.stored id x ho)⟩
  · rw [← hcard, Option.isSome_iff_exists]
    constructor
    · rintro ⟨c, hc⟩
      exact ⟨c.event, (h.heard id c.event).2 (by rw [hc]; rfl)⟩
    · rintro ⟨event, hm⟩
      obtain ⟨c, hc, -⟩ := Option.map_eq_some_iff.1 ((h.heard id event).1 hm)
      exact ⟨c, hc⟩
  · have hheard := h.heard id event
    rw [card?, ht] at hheard
    split
    · rename_i he
      refine List.count_eq_one_of_mem (h.once event) (hheard.2 ?_)
      rw [he]
      rfl
    · rename_i he
      refine List.count_eq_zero_of_not_mem fun hm => he ?_
      exact (Option.some.inj (hheard.1 hm)).symm
  · rw [Roster.origin, h.live, card?, ht]
    rfl
  · split
    · rename_i he
      subst he
      obtain ⟨r, hr, hm⟩ := (h.owned id y).1 ho
      cases hr.symm.trans hy
      exact List.count_eq_one_of_mem (h.lists y record hy) hm
    · rename_i he
      refine List.count_eq_zero_of_not_mem fun hm => he ?_
      have ho' := (h.owned id y).2 ⟨record, hy, hm⟩
      rw [ho] at ho'
      exact (Option.some.inj ho').symm

theorem coherent_opening {κ σ : Type} (world : WorldId) (settings : Settings) (host : σ)
    (budget : Nat) : (opening (κ := κ) world settings host budget).engine.Coherent
      (opening (κ := κ) world settings host budget).card? := by
  have hnone : ∀ id, (opening (κ := κ) world settings host budget).card? id = none := by
    intro id
    rw [card?, trigger?, Shelf.get?_eq]
    simp [opening, Engine.new, Shelf.slots_new, firing?, Journal.fires]
  rw [funext hnone]
  refine ⟨fun id => ?_, fun id event => ?_, Listeners.uniqueLists_empty, fun id x => ?_,
    fun id x h => ?_, fun x record h => ?_⟩
  · simp [opening, Engine.new, Roster.empty]
  · simp [opening, Engine.new]
  · simp [opening, Engine.new, World.new, World.entity?]
  · simp [opening, Engine.new] at h
  · simp [opening, Engine.new, World.new, World.entity?] at h

theorem tables_of_moves {κ σ : Type} {world : WorldId} {settings : Settings} {state : σ}
    {budget : Nat} {s : Session κ σ}
    (hm : Moves .keepsTables (opening world settings state budget) s) :
    s.Numbered ∧ s.Disciplined ∧ s.engine.Coherent s.card? :=
  hm.keep (P := fun s => s.Numbered ∧ s.Disciplined ∧ s.engine.Coherent s.card?)
    (fun _ _ hm hs => ⟨hs.1.move hm, hs.2.1.move hm hs.1, coherent_move hm hs.1 hs.2.1 hs.2.2⟩)
    ⟨.opening .., .opening .., coherent_opening ..⟩

/-- An entity gets a trigger that runs code, and the trigger is fired. -/
def leaving : Program Unit Unit Delivery :=
  .perform (.change (.spawn "guest" .npc)) fun guest =>
    .perform (.change (.register guest (.new "bell" .always (.function "leave" ())))) fun _ =>
      .perform (.fire ⟨1⟩ {}) .done

/-- In every session of a run the five tables are coherent, whatever runs inside what. -/
theorem reached_coherent {κ σ α : Type} (host : Host κ σ) (p : Program κ σ α) (world : WorldId)
    (settings : Settings) (state : σ) (budget : Nat) (hh : host.Within .keepsTables)
    (hp : p.Within .keepsTables) :
    ((opening world settings state budget).reached host p).Coherent := by
  have hmoves : Moves .keepsTables (opening world settings state budget) _ := reached_moves hh hp
  obtain ⟨-, hd, h⟩ := hmoves.keep
    (P := fun s => s.Numbered ∧ s.Disciplined ∧ s.engine.Coherent s.card?)
    (fun _ _ hm hs => ⟨hs.1.move hm, hs.2.1.move hm hs.1, coherent_move hm hs.1 hs.2.1 hs.2.2⟩)
    ⟨.opening .., .opening .., coherent_opening ..⟩
  exact .of_engine hd h

/-- So it is when a trigger, firing, removes the entity that it belongs to. -/
theorem reached_coherent_leaving :
    (Host.removing ⟨1⟩).Within .keepsTables ∧ leaving.Within .keepsTables ∧
      ((opening Engine.defaultWorld {} () 100).reached (.removing ⟨1⟩) leaving).Coherent := by
  have hh : (Host.removing ⟨1⟩).Within .keepsTables := fun _ _ => ⟨trivial, fun _ => trivial⟩
  have hp : leaving.Within .keepsTables :=
    ⟨trivial, fun _ => ⟨trivial, fun _ => ⟨trivial, fun _ => trivial⟩⟩⟩
  exact ⟨hh, hp, reached_coherent (.removing ⟨1⟩) leaving Engine.defaultWorld {} () 100 hh hp⟩

end Session

end Encounter
