import Encounter.Proofs.Delivery

/-!
# Delivery to all listeners

An event that is not delivered at a position goes to its subscribers: to those on the list as it is
when the event is emitted, one after the other, up to the first failure (`Run.untilFailure_eq_ok`).
No list has a subscriber twice (`Session.unique_of_moves`), and whoever was removed or is firing
when its turn comes is passed over (`Session.attempt`). `Session.global_delivery` puts this together
for every session of a run.
-/

set_option autoImplicit false

namespace Encounter

open Journal

/-! ## Lists without duplicates -/

namespace Engine

variable {κ : Type} {e e' : Engine κ} {x : EntityId} {id : TriggerId}

theorem unique_activate (h : e.listeners.UniqueLists) : (e.activate id).listeners.UniqueLists := by
  unfold activate
  split
  · exact h
  · exact h.subscribe

theorem unique_attach (h : e.listeners.UniqueLists) (ha : e.attach x id = .ok e') :
    e'.listeners.UniqueLists := by
  obtain ⟨-, -, rfl⟩ := attach_eq_ok.1 ha
  exact unique_activate (e := { e with world := _, owners := _ }) h

theorem unique_registerGlobal (h : e.listeners.UniqueLists) (t : Trigger κ) :
    (e.registerGlobal t).2.listeners.UniqueLists :=
  unique_activate (e := { e with shelf := _ }) h

theorem unique_registerAll {triggers : List (Trigger κ)} {ids : List TriggerId}
    (h : e.listeners.UniqueLists) (hr : e.registerAll x triggers = .ok (ids, e')) :
    e'.listeners.UniqueLists := by
  induction triggers generalizing e ids with
  | nil =>
    cases hr
    exact h
  | cons t rest ih =>
    obtain ⟨id, e₁, ids', h₁, h₂, rfl⟩ := registerAll_cons_eq_ok hr
    obtain ⟨t', -, -, ha⟩ := register_eq_ok h₁
    exact ih (unique_attach (unique_registerGlobal h t') ha) h₂

theorem unique_removeTriggers (h : e.listeners.UniqueLists) (ids : List TriggerId) :
    (e.removeTriggers ids).listeners.UniqueLists := by
  refine removeTriggers_keeps (P := fun e => e.listeners.UniqueLists) ?_ ids e h
  intro e₁ id answer e₂ h₁ hr
  obtain ⟨-, -, rfl⟩ := removeTrigger_eq_ok.1 hr
  exact h₁.unsubscribeAll

end Engine

open Engine in
/-- No change puts a subscriber twice on a list. -/
theorem Change.unique_apply {κ α : Type} (c : Change κ α) {e : Engine κ}
    (h : e.listeners.UniqueLists) : (c.apply e).2.listeners.UniqueLists := by
  have hrefuse : ∀ {β : Type} {r : Except Failure (β × Engine κ)},
      (∀ b e', r = .ok (b, e') → e'.listeners.UniqueLists) →
        (e.orRefuse r).2.listeners.UniqueLists := fun hr =>
    orRefuse_cases (P := fun e' => e'.listeners.UniqueLists) h hr
  cases c with
  | register x t =>
    refine hrefuse fun id e' hr => ?_
    obtain ⟨t', -, -, ha⟩ := register_eq_ok hr
    exact unique_attach (unique_registerGlobal h t') ha
  | registerGlobal t => exact unique_registerGlobal h t
  | addPresets x =>
    refine hrefuse fun ids e' hr => ?_
    obtain ⟨_, -, hr⟩ := addPresets_eq_ok hr
    exact unique_registerAll h hr
  | load record =>
    refine hrefuse fun x e' hr => ?_
    obtain ⟨⟨⟨x', ids⟩, e₁⟩, hr, he⟩ := map_eq_ok.1 hr
    cases he
    obtain ⟨name, kind, stats, triggers, -, -, hr⟩ := load_eq_ok hr
    refine unique_registerAll ?_ hr
    exact h
  | attach x id =>
    refine hrefuse fun _ e' hr => ?_
    obtain ⟨e₁, hr, he⟩ := map_eq_ok.1 hr
    cases he
    exact unique_attach h hr
  | removeTrigger id =>
    refine hrefuse fun _ e' hr => ?_
    obtain ⟨-, -, rfl⟩ := removeTrigger_eq_ok.1 hr
    exact h.unsubscribeAll
  | removeEntity x =>
    refine hrefuse fun _ e' hr => ?_
    obtain ⟨world, -, rfl⟩ := removeEntity_eq_ok hr
    exact unique_removeTriggers h _
  | resetEvents => exact Listeners.uniqueLists_reset
  | removeHandler handler => exact h.removeHandler
  | subscribe event handler => exact h.subscribe
  | unsubscribe event handler => exact h.unsubscribe
  | insert | place | move =>
    exact onWorldOrRefuse_cases (P := fun e' => e'.listeners.UniqueLists) h fun _ _ _ => h
  | addConditionType | addReactionType | nameCondition | nameReaction =>
    refine hrefuse fun _ e' hr => ?_
    obtain ⟨_, -, he⟩ := map_eq_ok.1 hr
    cases he
    exact h
  | dequeue => exact (sameTables_dequeue e).listeners ▸ h
  | _ => exact h

namespace Session

variable {κ σ : Type} {allowed : Licence κ σ} {host : Host κ σ} {s s' : Session κ σ}

theorem unique_move (hm : Move allowed s s') (h : s.engine.listeners.UniqueLists) :
    s'.engine.listeners.UniqueLists := by
  obtain ⟨ns, -, hkind⟩ := hm.exists_kind
  cases hkind with
  | quiet ns he => exact he.listeners ▸ h
  | change c => exact c.unique_apply h
  | checkOut | checkIn | handle => exact h

/-! ## Turns of subscribers -/

/-- Is there neither a trigger to be fired nor a handler to be called? -/
def Misses (s : Session κ σ) : Subscriber → Prop
  | .trigger id => s.engine.shelf.get? id = none
  | .handler id => s.engine.listeners.handler? id = none

/-- What it comes to when a subscriber gets its turn. -/
structure Attempt (s : Session κ σ) (host : Host κ σ) (invoke : Invoke κ σ) (p : Payload)
    (x : Subscriber) : Prop where
  removed : x.departure ∈ s.journal → x.isHere s.engine = false
  misses : s.Misses x ↔
    x.isHere s.engine = false ∨ ∃ id ∈ s.underway.map Prod.fst, x = .trigger id
  /-- Whoever is not there or is firing already is passed over. -/
  passed : s.Misses x → ∀ d s', Run.serve host invoke x p s = .ok d s' →
    d = .untouched p ∧ s' = { s with budget := s'.budget }
  fires : ∀ id t, x = .trigger id → s.engine.shelf.get? id = some t →
    ∀ d s', Run.serve host invoke x p s = .ok d s' →
      ∃ later, s'.journal = later ++ .firing id t :: s.journal
  called : ∀ id code, x = .handler id → s.engine.listeners.handler? id = some code →
    Run.serve host invoke x p s = invoke code p { s with journal := .handling id :: s.journal }

/-- A trigger cannot be fired if its slot is gone or if it is firing already. -/
theorem Disciplined.misses_iff (h : s.Disciplined) (x : Subscriber) : s.Misses x ↔
    x.isHere s.engine = false ∨ ∃ id ∈ s.underway.map Prod.fst, x = .trigger id := by
  cases x with
  | handler id => simp [Misses, Subscriber.isHere]
  | trigger id =>
    have hfires : id ∈ s.underway.map Prod.fst ↔ id ∈ s.fires.map Fire.id := by
      simp [underway, Journal.underway, fires]
    constructor
    · intro hget
      cases hin : s.engine.shelf.contains id with
      | false => exact .inl hin
      | true =>
        rcases Shelf.get?_or_isOut hin with ⟨t, ht⟩ | hout
        · cases hget.symm.trans ht
        · obtain ⟨f, hf, rfl, -⟩ := (h.out id).1 hout
          exact .inr ⟨f.id, hfires.2 (List.mem_map_of_mem hf), rfl⟩
    · rintro (hout | ⟨i, hi, hx⟩)
      · cases hget : s.engine.shelf.get? id with
        | none => exact hget
        | some t => cases hout.symm.trans (Shelf.contains_of_get? hget)
      · cases hx
        cases hget : s.engine.shelf.get? id with
        | none => exact hget
        | some t => exact absurd (hfires.1 hi) (h.not_fire_of_get? hget)

theorem attempt (hd : s.Disciplined) (hs : s.Settled) (depth : Nat) (p : Payload) (x : Subscriber) :
    s.Attempt host (Run.code host depth) p x where
  removed h := by
    obtain ⟨later, earlier, hj⟩ := List.append_of_mem h
    exact (hs.away x later earlier hj).1
  misses := hd.misses_iff x
  passed hmiss d s' h := by
    cases x with
    | trigger id => exact Run.fire_of_none hmiss h
    | handler id =>
      rw [Run.serve, Run.engine_bind, hmiss] at h
      obtain ⟨rfl, rfl⟩ := Run.pure_eq_ok.1 h
      exact ⟨rfl, rfl⟩
  fires id t hx hget d s' h := by
    subst hx
    have hcode := (Run.follows_traversal host).code host.within_free depth
    exact Run.fire_of_get? ((Run.follows_traversal host).react hcode) hget h
  called id code hx hcode := by
    subst hx
    rw [Run.serve, Run.engine_bind, hcode]
    rfl

/-! ## Deliveries -/

/-- What it comes to when an event is emitted to all listeners. -/
structure Broadcasts (s : Session κ σ) (host : Host κ σ) (invoke : Invoke κ σ) (event : String)
    (p : Payload) : Prop where
  once : (s.engine.listeners.subscribers event).Nodup
  /-- The subscribers that are served are those on the list when the event is emitted: all of them,
  or those up to the first that fails. -/
  served : ∀ d s', Run.emit host invoke event p s = .ok d s' ↔
    (∃ outcomes, Run.Rounds (Run.serve host invoke) (s.engine.listeners.subscribers event) p
        { s with journal := .emitted event p :: s.journal } outcomes d.payload s' ∧
      (∀ o ∈ outcomes, o = .ok ()) ∧ d.outcome = .ok ()) ∨
    ∃ done x rest outcomes p₁ s₁, s.engine.listeners.subscribers event = done ++ x :: rest ∧
      Run.Rounds (Run.serve host invoke) done p
          { s with journal := .emitted event p :: s.journal } outcomes p₁ s₁ ∧
        (∀ o ∈ outcomes, o = .ok ()) ∧ Run.serve host invoke x p₁ s₁ = .ok d s' ∧
          d.outcome ≠ .ok ()
  /-- A run that stops on the way has served a part of them, in the same order. -/
  stopped : ∀ stop s', Run.emit host invoke event p s = .error stop s' →
    ∃ done x rest outcomes p₁ s₁, s.engine.listeners.subscribers event = done ++ x :: rest ∧
      Run.Rounds (Run.serve host invoke) done p
          { s with journal := .emitted event p :: s.journal } outcomes p₁ s₁ ∧
        (∀ o ∈ outcomes, o = .ok ()) ∧ Run.serve host invoke x p₁ s₁ = .error stop s'
  attempts : ∀ done x rest outcomes p₁ s₁,
    s.engine.listeners.subscribers event = done ++ x :: rest →
      Run.Rounds (Run.serve host invoke) done p
          { s with journal := .emitted event p :: s.journal } outcomes p₁ s₁ →
        s₁.Attempt host invoke p₁ x

theorem emit_eq_untilFailure {invoke : Invoke κ σ} {event : String} {p : Payload}
    (hglobal : p.position = none ∨ p.world ≠ some s.engine.world.id) :
    Run.emit host invoke event p s =
      Run.untilFailure (Run.serve host invoke) (s.engine.listeners.subscribers event) p
        { s with journal := .emitted event p :: s.journal } := by
  have hnowhere : s.engine.deliveryPosition? p = none := by
    rw [Engine.deliveryPosition?]
    split
    · rename_i hworld
      exact hglobal.resolve_right fun h => h hworld
    · rfl
  rw [emit_run, hnowhere]

theorem broadcasts_of_moves {world : WorldId} {settings : Settings} {state : σ} {budget : Nat}
    {p : Payload} (hm : Moves .free (opening world settings state budget) s)
    (hglobal : p.position = none ∨ p.world ≠ some s.engine.world.id) (depth : Nat)
    (event : String) : s.Broadcasts host (Run.code host depth) event p := by
  have hkept : ∀ {s' : Session κ σ}, Moves .free (opening world settings state budget) s' →
      s'.Numbered ∧ s'.Disciplined ∧ s'.Settled ∧ s'.engine.listeners.UniqueLists := fun hm =>
    hm.keep
      (P := fun s => s.Numbered ∧ s.Disciplined ∧ s.Settled ∧ s.engine.listeners.UniqueLists)
      (fun _ _ hm ⟨hn, hd, hs, hu⟩ =>
        ⟨hn.move hm, hd.move hm hn, hs.move hm hn, unique_move hm hu⟩)
      ⟨.opening .., .opening .., .opening .., Listeners.uniqueLists_empty⟩
  refine ⟨(hkept hm).2.2.2 event, fun d s' => ?_, fun stop s' h => ?_,
    fun done x rest outcomes p₁ s₁ _ hrounds => ?_⟩
  · rw [emit_eq_untilFailure hglobal]
    exact Run.untilFailure_eq_ok
  · rw [emit_eq_untilFailure hglobal] at h
    exact Run.untilFailure_eq_error h
  · have hcode := (Run.follows_traversal host).code host.within_free depth
    have hserve := (Run.follows_traversal host).serve hcode
    obtain ⟨-, hd, hs, -⟩ := hkept ((hm.tail (.note _ rfl rfl)).trans (hrounds.moves hserve))
    exact attempt hd hs depth p₁ x

/-- A trigger of each of two entities and then a handler listen to a noise. -/
def crowd : Program Unit Unit Bool :=
  .perform (.change (.spawn "host" .npc)) fun first =>
    .perform (.change (.spawn "guest" .npc)) fun second =>
      .perform (.change (.register first (.new "noise" .always (.function "leave" ())))) fun _ =>
        .perform (.change (.register second (.new "noise" .always (.function "leave" ())))) fun _ =>
          .perform (.change (.addHandler ())) fun handler =>
            .perform (.change (.subscribe "noise" handler)) .done

/-- In every session of a run, an event without a position in this world is served to those who are
subscribed to it as it is emitted, once each and in their order, up to the first failure. -/
theorem global_delivery {α : Type} (host : Host κ σ) (program : Program κ σ α) (world : WorldId)
    (settings : Settings) (state : σ) (budget : Nat) (s : Session κ σ)
    (hs : s = (opening world settings state budget).reached host program) (event : String)
    (p : Payload) (hglobal : p.position = none ∨ p.world ≠ some s.engine.world.id)
    (depth budget' : Nat) :
    Broadcasts { s with budget := budget' } host (Run.code host depth) event p := by
  subst hs
  have hm := reached_moves host.within_free program.within_free
    (s := opening world settings state budget)
  exact broadcasts_of_moves (hm.tail (.pay budget')) hglobal depth event

/-- So it is when the first of the crowd makes the second one leave, whose trigger is then passed
over, though the handler behind it is called. -/
theorem global_delivery_crowd : ∃ s : Session Unit Unit,
    s = (opening Engine.defaultWorld {} () 100).reached (.removing ⟨2⟩) crowd ∧
      s.engine.listeners.subscribers "noise" = [.trigger ⟨1⟩, .trigger ⟨2⟩, .handler ⟨0⟩] ∧
        Broadcasts { s with budget := 20 } (.removing ⟨2⟩) (Run.code (.removing ⟨2⟩) 5) "noise" {} ∧
          ∃ d s', Run.emit (.removing ⟨2⟩) (Run.code (.removing ⟨2⟩) 5) "noise" {}
              { s with budget := 20 } = .ok d s' ∧ d.outcome.isOk = true ∧
            s'.journal.any (Subscriber.starts (.trigger ⟨1⟩)) = true ∧
              s'.journal.any (Subscriber.starts (.trigger ⟨2⟩)) = false ∧
                s'.journal.any (Subscriber.starts (.handler ⟨0⟩)) = true := by
  refine ⟨_, rfl, ?_, global_delivery _ crowd _ _ _ _ _ rfl "noise" {} (.inl rfl) 5 20, ?_⟩
  · decide +kernel
  · refine Run.ok_of_check _ (fun (d : Delivery) s' => d.outcome.isOk = true ∧
      s'.journal.any (Subscriber.starts (.trigger ⟨1⟩)) = true ∧
        s'.journal.any (Subscriber.starts (.trigger ⟨2⟩)) = false ∧
          s'.journal.any (Subscriber.starts (.handler ⟨0⟩)) = true) ?_
    decide +kernel

end Session

end Encounter
