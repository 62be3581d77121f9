import Encounter.Proofs.Serving
import Encounter.Proofs.Storing

/-!
# What built-in reactions do

An event that no handler hears and that meets only built-in reactions does not fail, and leaves most
of the engine alone. `Session.Affects` lists what it may change: hit points of the target, recorded
fires, the dice, tasks at the end of the agenda, and what the host is told. It holds of each
reaction (`Run.react_harmless`), of a chain of them while its trigger is off the shelf
(`Run.respond_harmless`), and so of a fire, whatever becomes of it (`Run.fire_harmless`), and of
everybody who is served (`Session.builtin_emit`).

The judgement on the way is `Run.Settles m s post`: with a large enough budget, `m` started in `s`
comes to its end, and its answer and its last session satisfy `post`.
-/

set_option autoImplicit false

namespace Encounter

/-! ## Recorded fires -/

/-- Is the reaction a built-in one? -/
def Reaction.isBuiltin {κ : Type} : Reaction κ → Bool
  | .function _ _ => false
  | _ => true

/-- No trigger on the shelf runs a named function. -/
def Engine.HasBuiltins {κ : Type} (e : Engine κ) : Prop :=
  ∀ id t, e.shelf.get? id = some t → ∀ l ∈ t.links, l.reaction.isBuiltin = true

instance {κ : Type} (e : Engine κ) : Decidable e.HasBuiltins :=
  decidable_of_iff
    (∀ id ∈ e.shelf.ids, ∀ t ∈ e.shelf.get? id, ∀ l ∈ t.links, l.reaction.isBuiltin = true)
    ⟨fun h id t hget => h id (Shelf.mem_ids.2 (Shelf.contains_of_get? hget)) t hget,
      fun h id _ t hget => h id t hget⟩

/-- The link with a fire recorded if it reacted. -/
def Link.marked {κ : Type} (reacted : Bool) (turn : Option UInt64) (l : Link κ) : Link κ :=
  if reacted then l.recordFire turn else l

/-- The trigger with a fire recorded for each of its links that reacted. -/
def Trigger.marked {κ : Type} (reacted : Nat → Bool) (turn : Option UInt64) (t : Trigger κ) :
    Trigger κ :=
  ⟨t.head.marked (reacted 0) turn, t.rest.mapIdx fun i l => l.marked (reacted (i + 1)) turn⟩

namespace Journal

variable {κ : Type}

/-- Did the link of a trigger at a place react? -/
def reacted (ns : List (Notice κ)) (id : TriggerId) (place : Nat) : Bool :=
  ns.any fun
    | .reacted i k _ => i = id && k = place
    | _ => false

theorem reacted_append (later earlier : List (Notice κ)) (id : TriggerId) :
    reacted (later ++ earlier) id =
      fun place => reacted later id place || reacted earlier id place :=
  funext fun _ => List.any_append

end Journal

section
variable {κ : Type} {turn : Option UInt64}

theorem Link.marked_marked (a b : Bool) (l : Link κ) :
    (l.marked b turn).marked a turn = l.marked (a || b) turn := by
  cases a <;> cases b <;> cases turn <;> simp [marked, recordFire]

theorem Link.reaction_marked (b : Bool) (l : Link κ) : (l.marked b turn).reaction = l.reaction := by
  cases b <;> rfl

theorem Trigger.marked_marked (f g : Nat → Bool) (t : Trigger κ) :
    (t.marked g turn).marked f turn = t.marked (fun i => f i || g i) turn := by
  simp [marked, Link.marked_marked, List.mapIdx_mapIdx, Function.comp_def]

theorem Trigger.marked_none (t : Trigger κ) : t.marked (fun _ => false) turn = t := by
  have hrest : (t.rest.mapIdx fun _ l => l) = t.rest := List.ext_getElem (by simp) (by simp)
  simp [marked, Link.marked, hrest]

theorem Trigger.marked_cons (f : Nat → Bool) (l next : Link κ) (rest : List (Link κ)) :
    marked f turn ⟨l, next :: rest⟩ =
      ⟨l.marked (f 0) turn, (marked (fun i => f (i + 1)) turn ⟨next, rest⟩).links⟩ := by
  simp [marked, links]

theorem Trigger.exists_mem_of_marked {f : Nat → Bool} {t : Trigger κ} {l : Link κ}
    (h : l ∈ (t.marked f turn).links) : ∃ l' ∈ t.links, l.reaction = l'.reaction := by
  rcases List.mem_cons.1 h with rfl | h
  · exact ⟨t.head, List.mem_cons_self, Link.reaction_marked _ _⟩
  · obtain ⟨i, hi, rfl⟩ := List.mem_mapIdx.1 h
    exact ⟨t.rest[i], List.mem_cons_of_mem _ (List.getElem_mem hi), Link.reaction_marked _ _⟩

end

/-! ## Dice -/

section
variable (r : Roller)

theorem Roller.seed_face (sides : UInt32) (tries : Nat) : (r.face sides tries).2.seed = r.seed := by
  induction tries generalizing r with
  | zero => rfl
  | succ tries ih =>
    dsimp only [face]
    split
    · rfl
    · exact ih _

theorem Roller.seed_rollDie (sides : UInt32) : (r.rollDie sides).2.seed = r.seed := by
  unfold rollDie
  split
  · rfl
  · exact seed_face r sides _

theorem Roller.seed_rollD20 (mode : RollMode) : (r.rollD20 mode).2.seed = r.seed := by
  cases mode <;> simp only [rollD20, seed_rollDie]

/-- A condition may roll the dice, but they stay in the stream of their seed. -/
theorem Condition.seed_evaluate {κ σ : Type} (test : κ → Payload → σ → Bool × σ) (c : Condition κ)
    (p : Payload) (state : σ) : (c.evaluate test p r state).2.1.seed = r.seed := by
  cases c with
  | always | function name code => rfl
  | perception difficulty =>
    dsimp only [evaluate]
    split <;> rfl
  | skill check =>
    dsimp only [evaluate, SkillCheck.attempt]
    split
    · rfl
    · split
      · rfl
      · exact Roller.seed_rollD20 r p.rollMode

end

/-! ## Effects -/

/-- The host is asked about a named condition, or told something through a gamemaster or an audio
output, if there is one. -/
inductive Host.Told {κ σ : Type} (host : Host κ σ) (gamemaster audio : Bool) : σ → σ → Prop
  | holds (code : κ) (p : Payload) (state : σ) :
      Told host gamemaster audio state (host.holds code p state).2
  | alerted (h : gamemaster = true) (message : String) (state : σ) :
      Told host gamemaster audio state (host.alerted message state)
  | play (h : audio = true) (file : String) (state : σ) :
      Told host gamemaster audio state (host.play file state).2

/-- What an event that meets only built-in reactions may change. The notices are those that it adds
to the journal. -/
structure Session.Affects {κ σ : Type} (host : Host κ σ) (p : Payload) (ns : List (Notice κ))
    (s s' : Session κ σ) : Prop where
  journal : s'.journal = ns ++ s.journal
  /-- Listeners, roster, owners, turn order, actors, interruptions, vocabulary and the rest stay. -/
  rest : s'.engine = { s.engine with
    world := s'.engine.world
    shelf := s'.engine.shelf
    clock := s'.engine.clock
    roller := s'.engine.roller }
  /-- The dice go on in the stream of their seed. -/
  seed : s'.engine.roller.seed = s.engine.roller.seed
  /-- Tiles stay, and so does where the search for a free number starts. -/
  world : s'.engine.world = { s.engine.world with entities := s'.engine.world.entities }
  entities : ∀ x, p.target ≠ some x → s'.engine.world.entity? x = s.engine.world.entity? x
  /-- Of the target only the hit points may change. -/
  target : ∀ x, p.target = some x → ∃ change : Int64 → Int64,
    s'.engine.world.entity? x = (s.engine.world.entity? x).map fun record =>
      { record with vitals := record.vitals.map fun v => { v with current := change v.current } }
  /-- The turn stays, and every new task emits an event with a copy of the payload. -/
  clock : ∃ later : List (AgendaEntry (Deferred κ)),
    (∀ entry ∈ later, ∃ turns event,
      entry = ⟨s.engine.clock.turn + turns, .emit event, p⟩) ∧
    s'.engine.clock = { s.engine.clock with
      agenda := { s.engine.clock.agenda with
        entries := s.engine.clock.agenda.entries ++ later } }
  nextId : s'.engine.shelf.nextId = s.engine.shelf.nextId
  /-- Triggers stay as they are but for the fires that were recorded for links that reacted. -/
  slots : ∀ id, s'.engine.shelf.slots[id]? = s.engine.shelf.slots[id]?.map
    (Option.map (Trigger.marked (Journal.reacted ns id) (s.engine.turnFor p.world)))
  host : Relation.ReflTransGen (host.Told s.engine.gamemaster s.engine.audio) s.host s'.host

namespace Session.Affects

variable {κ σ : Type} {host : Host κ σ} {p : Payload} {ns ns' : List (Notice κ)}
  {s s' s'' : Session κ σ}

theorem turnFor (h : s.Affects host p ns s') (world : Option WorldId) :
    s'.engine.turnFor world = s.engine.turnFor world := by
  obtain ⟨later, -, hclock⟩ := h.clock
  rw [Engine.turnFor, Engine.turnFor, hclock, h.world]

theorem trans (h : s.Affects host p ns s') (h' : s'.Affects host p ns' s'') :
    s.Affects host p (ns' ++ ns) s'' where
  journal := by rw [h'.journal, h.journal, List.append_assoc]
  rest := h'.rest.trans (by rw [h.rest])
  seed := h'.seed.trans h.seed
  world := h'.world.trans (by rw [h.world])
  entities x hx := (h'.entities x hx).trans (h.entities x hx)
  target x hx := by
    obtain ⟨change, hc⟩ := h.target x hx
    obtain ⟨change', hc'⟩ := h'.target x hx
    refine ⟨change' ∘ change, ?_⟩
    rw [hc', hc, Option.map_map]
    refine congrArg (Option.map · _) (funext fun record => ?_)
    simp [Function.comp_def]
  clock := by
    obtain ⟨later, hl, hc⟩ := h.clock
    obtain ⟨later', hl', hc'⟩ := h'.clock
    refine ⟨later ++ later', fun entry he => ?_, ?_⟩
    · rcases List.mem_append.1 he with he | he
      · exact hl entry he
      · obtain ⟨turns, event, rfl⟩ := hl' entry he
        exact ⟨turns, event, by rw [hc]⟩
    · rw [hc', hc]
      simp
  nextId := h'.nextId.trans h.nextId
  slots id := by
    rw [h'.slots, h.slots, h.turnFor, Option.map_map]
    refine congrArg (Option.map · _) (funext fun slot => ?_)
    cases slot with
    | none => rfl
    | some t => simp [Trigger.marked_marked, Journal.reacted_append]
  host := by
    have hg : s'.engine.gamemaster = s.engine.gamemaster := by rw [h.rest]
    have ha : s'.engine.audio = s.engine.audio := by rw [h.rest]
    have hafter := h'.host
    rw [hg, ha] at hafter
    exact h.host.trans hafter

theorem get?_eq_none (h : s.Affects host p ns s') {id : TriggerId}
    (hout : s.engine.shelf.get? id = none) : s'.engine.shelf.get? id = none := by
  rw [Shelf.get?_eq] at hout ⊢
  rw [h.slots]
  cases hslot : s.engine.shelf.slots[id]? with
  | none => rfl
  | some slot =>
    rw [hslot] at hout
    cases hout
    rfl

/-- A recorded fire leaves the reactions as they are. -/
theorem hasBuiltins (h : s.Affects host p ns s') (hb : s.engine.HasBuiltins) :
    s'.engine.HasBuiltins := by
  intro id t hget l hl
  rw [Shelf.get?_eq_some, h.slots, Option.map_eq_some_iff] at hget
  obtain ⟨slot, hslot, hmap⟩ := hget
  obtain ⟨t₀, rfl, rfl⟩ := Option.map_eq_some_iff.1 hmap
  obtain ⟨l₀, hl₀, hr⟩ := Trigger.exists_mem_of_marked hl
  rw [hr]
  exact hb id t₀ (Shelf.get?_eq_some.2 hslot) l₀ hl₀

/-- Without a fire of its own a trigger stays as it is. -/
theorem slot_eq {id : TriggerId} (hn : Journal.reacted ns id = fun _ => false)
    (turn : Option UInt64) : s.engine.shelf.slots[id]? =
      s.engine.shelf.slots[id]?.map (Option.map (Trigger.marked (Journal.reacted ns id) turn)) := by
  rw [hn]
  cases s.engine.shelf.slots[id]? with
  | none => rfl
  | some slot => cases slot <;> simp [Trigger.marked_none]

section
variable (hn : ∀ id, Journal.reacted ns id = fun _ => false)
include hn

/-- The host is consulted, and may roll the dice. -/
theorem attend {roller : Roller} {state : σ} {budget : Nat}
    (hseed : roller.seed = s.engine.roller.seed)
    (h : Relation.ReflTransGen (host.Told s.engine.gamemaster s.engine.audio) s.host state) :
    s.Affects host p ns ⟨{ s.engine with roller }, state, ns ++ s.journal, budget⟩ where
  journal := rfl
  rest := rfl
  seed := hseed
  world := rfl
  entities _ _ := rfl
  target _ _ := ⟨id, by simp⟩
  clock := ⟨[], by simp, by simp⟩
  nextId := rfl
  slots id := slot_eq (hn id) _
  host := h

/-- The target is damaged. -/
theorem damage {x : EntityId} {amount : Int64} {budget : Nat} (hx : p.target = some x) :
    s.Affects host p ns ⟨s.engine.damage x amount, s.host, ns ++ s.journal, budget⟩ where
  journal := rfl
  rest := rfl
  seed := rfl
  world := rfl
  entities y hy := by
    dsimp only [Engine.damage]
    rw [World.entity?_modifyEntity, if_neg fun he => hy (hx.trans (congrArg some he))]
  target y hy := by
    cases hx.symm.trans hy
    refine ⟨fun hp => max 0 (saturate64 (hp.toInt - amount.toInt)), ?_⟩
    dsimp only [Engine.damage]
    rw [World.entity?_modifyEntity, if_pos rfl]
    rfl
  clock := ⟨[], by simp, by simp [Engine.damage]⟩
  nextId := rfl
  slots id := slot_eq (hn id) _
  host := .refl

/-- An event is put down for later. -/
theorem schedule {turns : UInt64} {event : String} {budget : Nat} :
    s.Affects host p ns
      ⟨s.engine.schedule turns (.emit event) p, s.host, ns ++ s.journal, budget⟩ where
  journal := rfl
  rest := rfl
  seed := rfl
  world := rfl
  entities _ _ := rfl
  target _ _ := ⟨id, by simp [Engine.schedule]⟩
  clock := ⟨[⟨s.engine.clock.turn + turns, .emit event, p⟩], by simp, rfl⟩
  nextId := rfl
  slots id := slot_eq (hn id) _
  host := .refl

end

theorem noted {n : Notice κ} (hn : ∀ id, Journal.reacted [n] id = fun _ => false) :
    s.Affects host p [n] { s with journal := n :: s.journal } :=
  attend hn rfl .refl

/-- The fire of a link is written down while its trigger is off the shelf. -/
theorem note_reacted {id : TriggerId} {place : Nat} {turn : Option UInt64}
    (hout : s.engine.shelf.get? id = none) :
    s.Affects host p [.reacted id place turn]
      { s with journal := .reacted id place turn :: s.journal } where
  journal := rfl
  rest := rfl
  seed := rfl
  world := rfl
  entities _ _ := rfl
  target _ _ := ⟨fun hp => hp, by simp⟩
  clock := ⟨[], by simp, by simp⟩
  nextId := rfl
  slots i := by
    by_cases hi : id = i
    · subst hi
      rw [Shelf.get?_eq] at hout
      dsimp only
      cases hslot : s.engine.shelf.slots[id]? with
      | none => rfl
      | some slot =>
        rw [hslot] at hout
        cases hout
        rfl
    · have hother : Journal.reacted [(.reacted id place turn : Notice κ)] i = fun _ => false := by
        funext k
        simp [Journal.reacted, hi]
      exact slot_eq hother _
  host := .refl

end Session.Affects

/-! ## Runs that come to their end -/

namespace Run

variable {κ σ α β : Type}

/-- With a large enough budget the run, started in `s`, comes to its end, and its answer and its
last session satisfy `post`. -/
def Settles (m : Run κ σ α) (s : Session κ σ) (post : α → Session κ σ → Prop) : Prop :=
  ∃ cost a s', post a s' ∧
    ∀ budget, m { s with budget := cost + budget } = .ok a { s' with budget }

section
variable {m : Run κ σ α} {s : Session κ σ} {P Q : α → Session κ σ → Prop}

theorem Settles.bind {f : α → Run κ σ β} {R : β → Session κ σ → Prop} (hm : Settles m s P)
    (hf : ∀ a s', P a s' → Settles (f a) s' R) : Settles (m >>= f) s R := by
  obtain ⟨cost, a, s₁, hp, hrun⟩ := hm
  obtain ⟨cost', b, s₂, hr, hrun'⟩ := hf a s₁ hp
  refine ⟨cost + cost', b, s₂, hr, fun budget => ?_⟩
  rw [Nat.add_assoc, bind_of_ok (hrun (cost' + budget)), hrun' budget]

theorem Settles.mono (hm : Settles m s P) (h : ∀ a s', P a s' → Q a s') : Settles m s Q := by
  obtain ⟨cost, a, s', hp, hrun⟩ := hm
  exact ⟨cost, a, s', h a s' hp, hrun⟩

theorem settles_pure {a : α} (h : P a s) : Settles (pure a) s P :=
  ⟨0, a, s, h, fun budget => by rw [Nat.zero_add]; rfl⟩

theorem settles_engine {P : Engine κ → Session κ σ → Prop} (h : P s.engine s) :
    Settles engine s P :=
  ⟨0, s.engine, s, h, fun budget => by rw [Nat.zero_add]; rfl⟩

theorem settles_note {n : Notice κ} {P : Unit → Session κ σ → Prop}
    (h : P () { s with journal := n :: s.journal }) : Settles (note n) s P :=
  ⟨0, (), { s with journal := n :: s.journal }, h, fun budget => by rw [Nat.zero_add]; rfl⟩

theorem settles_step {f : Engine κ → σ → α × Engine κ × σ}
    (h : P (f s.engine s.host).1
      { s with engine := (f s.engine s.host).2.1, host := (f s.engine s.host).2.2 }) :
    Settles (step f) s P :=
  ⟨1, _, _, h, fun budget => step_eq_ok.2 ⟨budget, Nat.add_comm 1 budget, rfl, rfl⟩⟩

theorem settles_makeChange {c : Change κ α} (hend : c.isEndless s.engine = false)
    (hfit : c.overflows s.engine = false) (h : P (c.apply s.engine).1 { s with
      engine := (c.apply s.engine).2
      journal := c.notices s.engine (c.apply s.engine).2 ++ s.journal }) :
    Settles (makeChange c) s P :=
  ⟨1, _, _, h, fun budget =>
    makeChange_eq_ok.2 ⟨budget, Nat.add_comm 1 budget, hend, hfit, rfl, rfl⟩⟩

end

/-! ## Reactions -/

variable (host : Host κ σ) {invoke : Invoke κ σ} {s : Session κ σ} {p : Payload} {id : TriggerId}

/-- A built-in reaction does not fail, and records no fire. -/
theorem react_harmless {r : Reaction κ} (hr : r.isBuiltin = true) :
    Settles (react host invoke r p) s fun d s' => d = .untouched p ∧
      ∃ ns, s.Affects host p ns s' ∧ ∀ id, Journal.reacted ns id = fun _ => false := by
  cases r with
  | damage type amount =>
    unfold react
    dsimp only
    cases hx : p.target with
    | none => exact settles_pure ⟨rfl, [], .attend (fun _ => rfl) rfl .refl, fun _ => rfl⟩
    | some x =>
      refine Settles.bind (P := fun _ s' => s.Affects host p [] s') ?_ fun _ s' h =>
        settles_pure ⟨rfl, [], h, fun _ => rfl⟩
      refine settles_makeChange rfl (Change.overflows_eq_false rfl rfl) ?_
      rw [Journal.notices_eq_remarks rfl rfl]
      exact .damage (fun _ => rfl) hx
  | alert message =>
    refine Settles.bind (P := fun _ s' => s.Affects host p [] s') ?_ fun _ s' h =>
      settles_pure ⟨rfl, [], h, fun _ => rfl⟩
    refine settles_step (.attend (fun _ => rfl) rfl ?_)
    dsimp only
    split
    · rename_i hg
      exact .single (.alerted hg message s.host)
    · exact .refl
  | sound file =>
    refine Settles.bind (P := fun _ s' => s.Affects host p [] s') ?_ fun _ s' h =>
      settles_pure ⟨rfl, [], h, fun _ => rfl⟩
    refine settles_step ?_
    dsimp only
    split
    · rename_i ha
      exact .attend (fun _ => rfl) rfl (.single (.play ha file s.host))
    · exact .attend (fun _ => rfl) rfl .refl
  | schedule turns event =>
    refine Settles.bind (P := fun _ s' => s.Affects host p
        [.scheduled .turns s.engine.clock.turn turns ⟨.emit event, p⟩] s') ?_ fun _ s' h =>
      settles_pure ⟨rfl, _, h, fun _ => rfl⟩
    refine settles_makeChange rfl (Change.overflows_eq_false rfl rfl) ?_
    rw [Journal.notices_eq_remarks rfl rfl]
    exact .schedule fun _ => rfl
  | function name code => cases hr

/-! ## Fires -/

theorem ask_harmless (l : Link κ) (turn : Option UInt64) :
    Settles (ask host l turn p) s fun _ s' => s.Affects host p [] s' := by
  unfold ask
  split
  · exact settles_pure (.attend (fun _ => rfl) rfl .refl)
  · refine settles_step (.attend (fun _ => rfl) (Condition.seed_evaluate _ _ _ _ _) ?_)
    unfold Link.admits Condition.evaluate
    dsimp only
    split
    · exact .refl
    · split <;> exact .refl
    · exact .refl
    · exact .single (.holds _ _ _)

/-- A link with a built-in reaction either stays as it is, or its fire is written down and the chain
goes on. -/
theorem settles_respond {place : Nat} {l : Link κ} {rest : List (Link κ)}
    {post : Trigger κ × Delivery → Session κ σ → Prop} (hout : s.engine.shelf.get? id = none)
    (hl : l.reaction.isBuiltin = true)
    (hstay : ∀ ns s', s.Affects host p ns s' → (Journal.reacted ns id = fun _ => false) →
      post (⟨l, rest⟩, .untouched p) s')
    (hgo : ∀ ns s', s.Affects host p ns s' → (Journal.reacted ns id = fun k => place == k) →
      Settles (follow host invoke id place (l.recordFire (s.engine.turnFor p.world)) rest
        (.untouched p)) s' post) :
    Settles (respond host invoke id place l rest p) s post := by
  rw [respond_eq]
  refine (settles_engine (P := fun e s' => s.engine = e ∧ s = s') ⟨rfl, rfl⟩).bind ?_
  rintro _ _ ⟨rfl, rfl⟩
  refine (ask_harmless host l _).bind fun answer s₁ h₁ => ?_
  refine (settles_note (P := fun _ s' => s.Affects host p
    [.asked id place p (s.engine.turnFor p.world) answer] s')
      (by simpa using h₁.trans (.noted fun _ => rfl))).bind fun _ s₂ h₂ => ?_
  cases answer with
  | resting | declined => exact settles_pure (hstay _ _ h₂ rfl)
  | willing =>
    refine (react_harmless host hl).bind ?_
    rintro d s₃ ⟨rfl, ns₃, h₃, hn₃⟩
    have h₃ := h₂.trans h₃
    have hrecord : s₃.Affects host p [.reacted id place (s.engine.turnFor p.world)]
        { s₃ with journal := .reacted id place (s.engine.turnFor p.world) :: s₃.journal } :=
      .note_reacted (h₃.get?_eq_none hout)
    refine (settles_note (P := fun _ s' => s' = _) rfl).bind ?_
    rintro _ _ rfl
    refine hgo _ _ (h₃.trans hrecord) ?_
    rw [Journal.reacted_append, Journal.reacted_append, hn₃]
    funext k
    simp [Journal.reacted, beq_eq_decide]

/-- A chain of links with built-in reactions does not fail. It comes back with a fire recorded for
each link that reacted. -/
theorem respond_harmless {place : Nat} {l : Link κ} {rest : List (Link κ)}
    (hout : s.engine.shelf.get? id = none)
    (hlinks : ∀ l' ∈ l :: rest, l'.reaction.isBuiltin = true) :
    Settles (respond host invoke id place l rest p) s fun r s' => r.2 = .untouched p ∧
      ∃ ns, s.Affects host p ns s' ∧ r.1 = Trigger.marked
        (fun i => Journal.reacted ns id (place + i)) (s.engine.turnFor p.world) ⟨l, rest⟩ := by
  induction rest generalizing place l s with
  | nil =>
    refine settles_respond host hout (hlinks l List.mem_cons_self) (fun ns s' h hn => ?_)
      fun ns s' h hn => ?_
    · exact ⟨rfl, ns, h, by rw [hn, Trigger.marked_none]⟩
    · refine settles_pure ⟨rfl, ns, h, ?_⟩
      simp [hn, Trigger.marked, Link.marked]
  | cons next rest ih =>
    refine settles_respond host hout (hlinks l List.mem_cons_self) (fun ns s' h hn => ?_)
      fun ns s' h hn => ?_
    · exact ⟨rfl, ns, h, by rw [hn, Trigger.marked_none]⟩
    · refine (ih (h.get?_eq_none hout) fun l' hl => hlinks l' (List.mem_cons_of_mem _ hl)).bind ?_
      rintro ⟨t, d⟩ s₁ ⟨hd, ns₁, h₁, ht⟩
      refine settles_pure ⟨hd, _, h.trans h₁, ?_⟩
      dsimp only at ht ⊢
      rw [Trigger.marked_cons, ht, h.turnFor, Journal.reacted_append, hn]
      have hlater : ∀ i, (place == place + (i + 1)) = false := fun i => by simp
      simp [Link.marked, hlater, Nat.add_comm, Nat.add_left_comm]

/-- What comes of taking a trigger off the shelf to fire. -/
def TakenOut (s : Session κ σ) (id : TriggerId) : Option (Trigger κ) → Session κ σ → Prop
  | none, s' => s.engine.shelf.get? id = none ∧ s' = s
  | some t, s' => s.engine.shelf.get? id = some t ∧ s' = { s with
      engine := { s.engine with shelf := (s.engine.shelf.checkOut id).2 }
      journal := .firing id t :: s.journal }

theorem settles_checkOut (id : TriggerId) : Settles (checkOut id) s (TakenOut s id) := by
  cases hget : s.engine.shelf.get? id with
  | none =>
    refine ⟨1, none, s, ⟨hget, rfl⟩, fun budget => ?_⟩
    rw [Nat.add_comm, checkOut, bind_of_ok (pay_eq_ok.2 ⟨budget, rfl, rfl⟩), modifyGet_eq]
    simp only [Shelf.checkOut, hget]
  | some t =>
    refine ⟨1, some t, _, ⟨hget, rfl⟩, fun budget => ?_⟩
    rw [Nat.add_comm, checkOut, bind_of_ok (pay_eq_ok.2 ⟨budget, rfl, rfl⟩), modifyGet_eq]
    simp only [Shelf.checkOut, hget]

theorem settles_checkIn {t : Trigger κ} {P : Unit → Session κ σ → Prop}
    (h : P () { s with
      engine := { s.engine with shelf := s.engine.shelf.checkIn id t }
      journal := .fired id t :: s.journal }) : Settles (checkIn id t) s P := by
  refine ⟨1, (), _, h, fun budget => ?_⟩
  rw [Nat.add_comm, checkIn, bind_of_ok (pay_eq_ok.2 ⟨budget, rfl, rfl⟩)]
  rfl

/-- What there is to say of serving anybody: no failure, and no effect but those that are
allowed. -/
def Harmless (host : Host κ σ) (p : Payload) (s : Session κ σ) (d : Delivery)
    (s' : Session κ σ) : Prop :=
  d = .untouched p ∧ ∃ ns, s.Affects host p ns s'

theorem harmless_refl (s : Session κ σ) : Harmless host p s (.untouched p) s :=
  ⟨rfl, [], .attend (fun _ => rfl) rfl .refl⟩

/-- A trigger that is taken off the shelf and put back, with a fire recorded for each link that
reacted in between. -/
theorem affects_of_fire {t t' : Trigger κ} {ns : List (Notice κ)} {s' : Session κ σ}
    (hget : s.engine.shelf.get? id = some t)
    (ht : t' = t.marked (Journal.reacted ns id) (s.engine.turnFor p.world))
    (h : Session.Affects host p ns { s with
      engine := { s.engine with shelf := (s.engine.shelf.checkOut id).2 }
      journal := .firing id t :: s.journal } s') :
    s.Affects host p (.fired id t' :: (ns ++ [.firing id t])) { s' with
      engine := { s'.engine with shelf := s'.engine.shelf.checkIn id t' }
      journal := .fired id t' :: s'.journal } := by
  have hns : ∀ i, Journal.reacted (.fired id t' :: (ns ++ [.firing id t])) i =
      Journal.reacted ns i := fun i => funext fun k => by simp [Journal.reacted]
  have hslot : (s.engine.shelf.checkOut id).2.slots[id]? = some none := by
    rw [Shelf.slots_checkOut hget, if_pos rfl]
  have hkept : s'.engine.shelf.slots[id]? = some none := by rw [h.slots]; simp [hslot]
  have hback : s'.engine.shelf.contains id = true := by rw [Shelf.contains_eq, hkept]; rfl
  constructor
  case journal => simp [h.journal]
  case rest => dsimp only; rw [h.rest]
  case seed => exact h.seed
  case world => exact h.world
  case entities => exact h.entities
  case target => exact h.target
  case clock => exact h.clock
  case nextId => exact Shelf.nextId_checkIn.trans (h.nextId.trans Shelf.nextId_checkOut)
  case slots =>
    intro i
    rw [hns]
    dsimp only
    rw [Shelf.slots_checkIn]
    by_cases hi : id = i
    · subst hi
      rw [if_pos ⟨rfl, hback⟩, Shelf.get?_eq_some.1 hget, ht]
      rfl
    · rw [if_neg fun hc => hi hc.1, h.slots]
      dsimp only
      rw [Shelf.slots_checkOut hget, if_neg hi]
      rfl
  case host => exact h.host

/-- A fire of a trigger with built-in reactions does not fail. One that is not on the shelf is
passed over. -/
theorem fire_harmless (hb : s.engine.HasBuiltins) :
    Settles (fire host invoke id p) s (Harmless host p s) := by
  refine (settles_checkOut id).bind ?_
  rintro (_ | t) s₁ ⟨hget, rfl⟩
  · exact settles_pure (harmless_refl host _)
  · refine (respond_harmless host (Shelf.get?_checkOut hget) (hb id t hget)).bind ?_
    rintro ⟨t', d⟩ s₂ ⟨rfl, ns, h, rfl⟩
    refine (settles_checkIn (P := fun _ s' => _ = s') rfl).bind ?_
    rintro _ _ rfl
    exact settles_pure ⟨rfl, _, affects_of_fire host hget (by simp only [Nat.zero_add]; rfl) h⟩

/-! ## Serving several -/

section
variable {β : Type} {serve : β → Payload → Run κ σ Delivery} {list : List β}

theorem untilFailure_harmless (hb : s.engine.HasBuiltins)
    (hserve : ∀ b ∈ list, ∀ s : Session κ σ, s.engine.HasBuiltins →
      Settles (serve b p) s (Harmless host p s)) :
    Settles (untilFailure serve list p) s (Harmless host p s) := by
  induction list generalizing s with
  | nil => exact settles_pure (harmless_refl host s)
  | cons b rest ih =>
    rw [List.forall_mem_cons] at hserve
    refine (hserve.1 s hb).bind ?_
    rintro _ s₁ ⟨rfl, ns, h⟩
    refine (ih (h.hasBuiltins hb) hserve.2).mono ?_
    rintro d s₂ ⟨hd, ns', h'⟩
    exact ⟨hd, _, h.trans h'⟩

theorem despiteFailures_harmless (hb : s.engine.HasBuiltins)
    (hserve : ∀ b ∈ list, ∀ s : Session κ σ, s.engine.HasBuiltins →
      Settles (serve b p) s (Harmless host p s)) :
    Settles (despiteFailures serve list p) s (Harmless host p s) := by
  induction list generalizing s with
  | nil => exact settles_pure (harmless_refl host s)
  | cons b rest ih =>
    rw [List.forall_mem_cons] at hserve
    refine (hserve.1 s hb).bind ?_
    rintro _ s₁ ⟨rfl, ns, h⟩
    refine (ih (h.hasBuiltins hb) hserve.2).bind ?_
    rintro _ s₂ ⟨rfl, ns', h'⟩
    exact settles_pure ⟨rfl, _, h.trans h'⟩

end

theorem serveEntity_harmless (event : String) (x : EntityId) (hb : s.engine.HasBuiltins) :
    Settles (serveEntity host invoke event x p) s (Harmless host p s) := by
  refine (settles_engine (P := fun _ s' => s' = s) rfl).bind ?_
  rintro e _ rfl
  exact untilFailure_harmless host hb fun _ _ _ hb => fire_harmless host hb

/-- Unless a handler listens, an event is served without failure. -/
theorem emit_harmless {event : String} (hb : s.engine.HasBuiltins)
    (hquiet : ∀ h, .handler h ∉ s.engine.listeners.subscribers event) :
    Settles (emit host invoke event p) s (Harmless host p s) := by
  refine (settles_note (P := fun _ s' => s'.engine = s.engine ∧
    s.Affects host p [.emitted event p] s') ⟨rfl, .noted fun _ => rfl⟩).bind ?_
  rintro _ s₁ ⟨he, h₁⟩
  have hend : ∀ d s', Harmless host p s₁ d s' → Harmless host p s d s' :=
    fun d s' ⟨hd, ns, h⟩ => ⟨hd, _, h₁.trans h⟩
  refine (settles_engine (P := fun e s' => e = s.engine ∧ s' = s₁) ⟨he, rfl⟩).bind ?_
  rintro _ _ ⟨rfl, rfl⟩
  have hb₁ := h₁.hasBuiltins hb
  split
  · exact (despiteFailures_harmless host hb₁
      fun x _ _ hb => serveEntity_harmless host event x hb).mono hend
  · refine (untilFailure_harmless host hb₁ fun subscriber hmem _ hb => ?_).mono hend
    cases subscriber with
    | trigger id => exact fire_harmless host hb
    | handler h => exact absurd hmem (hquiet h)

end Run

namespace Session

variable {κ σ : Type}

/-- An event that no handler listens to, emitted where no trigger runs a named function, does not
fail and leaves its payload as it is. It changes hit points of the target, the dice, the end of the
agenda and the recorded fires of links that reacted, and nothing else of the engine. -/
theorem builtin_emit (host : Host κ σ) (invoke : Invoke κ σ) (s : Session κ σ) (event : String)
    (p : Payload) (hb : s.engine.HasBuiltins)
    (hquiet : ∀ h, .handler h ∉ s.engine.listeners.subscribers event) :
    ∃ cost ns s', s.Affects host p ns s' ∧ ∀ budget,
      Run.emit host invoke event p { s with budget := cost + budget } =
        .ok (.untouched p) { s' with budget } := by
  have hend : Run.Settles (Run.emit host invoke event p) s (Run.Harmless host p s) :=
    Run.emit_harmless host hb hquiet
  obtain ⟨cost, _, s', ⟨rfl, ns, h⟩, hrun⟩ := hend
  exact ⟨cost, ns, s', h, hrun⟩

/-- A blow hurts a goblin and will echo two turns later; the gamemaster hears of it. -/
def ambushed : Program Unit Unit Unit :=
  .perform (.change (.spawn "goblin" .enemy)) fun goblin =>
    .perform (.change (.edit goblin fun record => { record with vitals := some (.full 10) })) fun _ =>
      .perform (.change (.register goblin ((Trigger.new "blow" .always (.damage "slashing" 3)).andThen
          (.new "" .always (.schedule 2 "echo"))))) fun _ =>
        .perform (.change (.register goblin (.new "blow" .always (.alert "a blow")))) fun _ =>
          .perform (.change (.setGamemaster true)) .done

/-- So it is with the blow, which costs the goblin three hit points. -/
theorem builtin_emit_ambushed : ∃ s : Session Unit Unit,
    s = (opening Engine.defaultWorld {} () 100).reached (.removing ⟨1⟩) ambushed ∧
      s.engine.HasBuiltins ∧ (∀ h, .handler h ∉ s.engine.listeners.subscribers "blow") ∧
        (∃ cost ns s', s.Affects (.removing ⟨1⟩)
            { world := some Engine.defaultWorld, target := some ⟨1⟩ } ns s' ∧ ∀ budget,
          Run.emit (.removing ⟨1⟩) (Run.code (.removing ⟨1⟩) 5) "blow"
              { world := some Engine.defaultWorld, target := some ⟨1⟩ }
              { s with budget := cost + budget } =
            .ok (.untouched { world := some Engine.defaultWorld, target := some ⟨1⟩ })
              { s' with budget }) ∧
          ∃ d s', Run.emit (.removing ⟨1⟩) (Run.code (.removing ⟨1⟩) 5) "blow"
              { world := some Engine.defaultWorld, target := some ⟨1⟩ }
              { s with budget := 20 } = .ok d s' ∧
            (s'.engine.world.entity? ⟨1⟩).map (·.vitals) = some (some ⟨7, 10⟩) ∧
              s'.engine.clock.agenda.entries.map (·.turn) = [2] ∧
                (s'.engine.shelf.get? ⟨1⟩).map (·.links.map (·.lastFired)) =
                  some [some 0, some 0] := by
  obtain ⟨s, hs⟩ : ∃ s : Session Unit Unit,
      s = (opening Engine.defaultWorld {} () 100).reached (.removing ⟨1⟩) ambushed := ⟨_, rfl⟩
  have hb : s.engine.HasBuiltins := by
    rw [hs]
    decide +kernel
  have hlist : s.engine.listeners.subscribers "blow" = [.trigger ⟨1⟩, .trigger ⟨2⟩] := by
    rw [hs]
    decide +kernel
  have hquiet : ∀ h, .handler h ∉ s.engine.listeners.subscribers "blow" := by simp [hlist]
  refine ⟨s, hs, hb, hquiet, builtin_emit _ _ _ _ _ hb hquiet, ?_⟩
  refine Run.ok_of_check _ (fun (_ : Delivery) (s' : Session Unit Unit) =>
    (s'.engine.world.entity? ⟨1⟩).map (·.vitals) = some (some ⟨7, 10⟩) ∧
      s'.engine.clock.agenda.entries.map (·.turn) = [2] ∧
        (s'.engine.shelf.get? ⟨1⟩).map (·.links.map (·.lastFired)) = some [some 0, some 0]) ?_
  rw [hs]
  decide +kernel

end Session

end Encounter
