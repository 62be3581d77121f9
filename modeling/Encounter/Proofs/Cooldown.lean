import Encounter.Proofs.Marking
import Encounter.Proofs.Origins

/-!
# The cooldown over whole runs

Every run keeps a link marked, as long as nobody rewrites the mark (`Run.heeds_traversal`). A fire
of its trigger takes it off the shelf, goes through the chain while nothing else can be told of it,
and puts it back with its new mark (`Run.heeds_fire_own`). `Session.cooldown_law` reads the law of
the cooldown off the journal. A trigger can bring a mark along from where it fired before, and a
link can be replaced by one without a mark: `Session.cooldown_law_recast` shows both.

The judgement on the way is `Run.Upholds inv m s post`: `m`, started in `s`, comes to a session that
satisfies `inv` wherever it stops, and if it ends its answer and its last session satisfy `post`.
-/

set_option autoImplicit false

namespace Encounter

open Journal

/-! ## Runs -/

namespace Run

variable {κ σ α β : Type}

/-- Started in `s`, the run comes to a session that satisfies `inv` wherever it stops; if it ends,
its answer and its last session satisfy `post` as well. -/
def Upholds (inv : Session κ σ → Prop) (m : Run κ σ α) (s : Session κ σ)
    (post : α → Session κ σ → Prop) : Prop :=
  match m s with
  | .ok a s' => inv s' ∧ post a s'
  | .error _ s' => inv s'

section
variable {inv : Session κ σ → Prop} {m : Run κ σ α} {s : Session κ σ}

theorem Upholds.bind {f : α → Run κ σ β} {P : α → Session κ σ → Prop} {Q : β → Session κ σ → Prop}
    (hm : Upholds inv m s P) (hf : ∀ a s', inv s' → P a s' → Upholds inv (f a) s' Q) :
    Upholds inv (m >>= f) s Q := by
  unfold Upholds at hm
  cases h : m s with
  | error stop s' =>
    rw [h] at hm
    rwa [Upholds, bind_eq_error.2 (.inl h)]
  | ok a s' =>
    rw [h] at hm
    rw [Upholds, bind_of_ok h]
    exact hf a s' hm.1 hm.2

theorem Upholds.mono {P Q : α → Session κ σ → Prop} (h : Upholds inv m s P)
    (hpq : ∀ a s', P a s' → Q a s') : Upholds inv m s Q := by
  unfold Upholds at h ⊢
  split at h
  · exact ⟨h.1, hpq _ _ h.2⟩
  · exact h

theorem upholds_pure {a : α} {P : α → Session κ σ → Prop} (hs : inv s) (h : P a s) :
    Upholds inv (pure a) s P :=
  ⟨hs, h⟩

theorem upholds_engine {P : Engine κ → Session κ σ → Prop} (hs : inv s) (h : P s.engine s) :
    Upholds inv engine s P :=
  ⟨hs, h⟩

/-- A run that spends its last step on the way stops where it is. -/
theorem upholds_paid {f : Unit → Run κ σ α} {P : α → Session κ σ → Prop} (hs : inv s)
    (h : ∀ budget, Upholds inv (f ()) { s with budget } P) : Upholds inv (pay >>= f) s P := by
  obtain ⟨e, state, j, budget⟩ := s
  cases budget with
  | zero => exact hs
  | succ budget => exact h budget

theorem upholds_step {f : Engine κ → σ → α × Engine κ × σ} {P : α → Session κ σ → Prop} (hs : inv s)
    (h : ∀ budget, inv ⟨(f s.engine s.host).2.1, (f s.engine s.host).2.2, s.journal, budget⟩ ∧
      P (f s.engine s.host).1
        ⟨(f s.engine s.host).2.1, (f s.engine s.host).2.2, s.journal, budget⟩) :
    Upholds inv (step f) s P :=
  upholds_paid hs h

theorem upholds_note {n : Notice κ} {P : Unit → Session κ σ → Prop}
    (hs : inv { s with journal := n :: s.journal })
    (h : P () { s with journal := n :: s.journal }) : Upholds inv (note n) s P :=
  ⟨hs, h⟩

end

/-- Wherever the link is marked, the run keeps it so, and it tells nothing of the link while its
trigger is firing. -/
def Heeds (test : κ → Payload → σ → Bool × σ) (world : WorldId) (id : TriggerId) (place : Nat)
    (m : Run κ σ α) : Prop :=
  ∀ s, s.Marked test world id place →
    Upholds (Session.Marked test world id place) m s fun _ s' => s.Leaves id place s'

section
variable {test : κ → Payload → σ → Bool × σ} {world : WorldId} {id : TriggerId} {place : Nat}
  {m : Run κ σ α}

theorem Heeds.bind {f : α → Run κ σ β} (hm : Heeds test world id place m)
    (hf : ∀ a, Heeds test world id place (f a)) : Heeds test world id place (m >>= f) := fun s hs =>
  (hm s hs).bind fun a s' hs' h => (hf a s' hs').mono fun _ _ h' => h.trans h'

/-- Whatever spares the link heeds it. -/
theorem heeds_of_spares (h : ∀ s, match m s with
    | .ok _ s' => s.Spares id place s'
    | .error _ s' => s.Spares id place s') : Heeds test world id place m := fun s hs => by
  have h := h s
  unfold Upholds
  cases hm : m s with
  | ok a s' =>
    rw [hm] at h
    exact ⟨hs.spares h, h.leaves⟩
  | error stop s' =>
    rw [hm] at h
    exact hs.spares h

theorem heeds_pure (a : α) : Heeds test world id place (pure a : Run κ σ α) :=
  heeds_of_spares fun s => .refl s

theorem heeds_get : Heeds test world id place (get : Run κ σ (Session κ σ)) :=
  heeds_of_spares fun s => .refl s

theorem heeds_throw (stop : Stop) : Heeds test world id place (throw stop : Run κ σ α) :=
  heeds_of_spares fun s => .refl s

theorem heeds_pay : Heeds test world id place (pay : Run κ σ Unit) :=
  heeds_of_spares fun ⟨e, state, j, budget⟩ => by
    cases budget with
    | zero => exact .refl _
    | succ budget => exact .pay _ budget

theorem heeds_note {n : Notice κ} (hn : n.concerns id place = false) (hturn : isTurn n = false) :
    Heeds test world id place (note n : Run κ σ Unit) :=
  heeds_of_spares fun s => .note s hn hturn

theorem heeds_step {f : Engine κ → σ → α × Engine κ × σ}
    (hf : ∀ e state, (f e state).2.1.world.id = e.world.id ∧
      (f e state).2.1.clock.turn = e.clock.turn ∧ (f e state).2.1.shelf = e.shelf) :
    Heeds test world id place (step f : Run κ σ α) :=
  heeds_pay.bind fun _ => heeds_of_spares fun s => by
    obtain ⟨hworld, hturn, hshelf⟩ := hf s.engine s.host
    exact ⟨hworld, hturn, congrArg Shelf.nextId hshelf, by rw [← hshelf], [], rfl,
      List.forall_mem_nil _⟩

theorem heeds_makeChange {c : Change κ α} (hk : c.KeepsMark id place) :
    Heeds test world id place (makeChange c : Run κ σ α) := by
  refine heeds_pay.bind fun _ s hs => ?_
  refine (upholds_engine (P := fun e s' => e = s'.engine ∧ s' = s) hs ⟨rfl, rfl⟩).bind ?_
  rintro _ s₁ hs₁ ⟨rfl, rfl⟩
  split
  · exact hs₁.spares (.pay _ 0)
  · rename_i hend
    split
    · exact hs₁
    · rename_i hfit
      rw [Bool.not_eq_true] at hend hfit
      exact ⟨hs₁.change c hk hend hfit, hs₁.change_leaves c hk hfit⟩

end

/-! ## Fires -/

section
variable (host : Host κ σ) {invoke : Invoke κ σ} {world : WorldId} {id : TriggerId} {place : Nat}
  {s : Session κ σ} {t : Trigger κ}

/-- A link that is asked answers what it has to, and nothing is told of it meanwhile. -/
theorem upholds_ask (l : Link κ) (turn : Option UInt64) (p : Payload)
    (hs : s.Marked host.holds world id place) :
    Upholds (Session.Marked host.holds world id place) (ask host l turn p) s fun answer s' =>
      s'.engine.shelf = s.engine.shelf ∧ s'.journal = s.journal ∧
        l.Answers host.holds p turn answer := by
  unfold ask
  split
  · rename_i hresting
    exact upholds_pure hs ⟨rfl, rfl, hresting⟩
  · rename_i hrested
    rw [Bool.not_eq_true] at hrested
    refine upholds_step hs fun budget => ⟨hs.spares ⟨rfl, rfl, rfl, rfl, [], rfl,
      List.forall_mem_nil _⟩, rfl, rfl, ?_⟩
    dsimp only
    split
    · rename_i hadmits
      exact ⟨hrested, _, _, hadmits⟩
    · rename_i hadmits
      exact ⟨hrested, _, _, by simpa using hadmits⟩

theorem mark_length (done rest : List (Link κ)) (l : Link κ) :
    ((done ++ l :: rest)[done.length]?).bind (·.lastFired) = l.lastFired := by
  rw [List.getElem?_append_right (Nat.le_refl _), Nat.sub_self]
  rfl

/-- The mark at a place after one of the links has recorded a fire. -/
theorem mark_recordFire {done rest : List (Link κ)} {l : Link κ} {mark : Option UInt64}
    (h : ((done ++ l :: rest)[place]?).bind (·.lastFired) = mark) (turn : Option UInt64) :
    ((done ++ l.recordFire turn :: rest)[place]?).bind (·.lastFired) =
      if done.length = place then turn.or mark else mark := by
  subst h
  split
  · rename_i hk
    subst hk
    rw [mark_length, mark_length]
    cases turn <;> rfl
  · rename_i hk
    rcases Nat.lt_or_gt_of_ne hk with hlt | hgt
    · obtain ⟨n, rfl⟩ := Nat.exists_eq_add_of_lt hlt
      have hle : done.length ≤ done.length + n + 1 := by omega
      have hsub : done.length + n + 1 - done.length = n + 1 := by omega
      rw [List.getElem?_append_right hle, List.getElem?_append_right hle, hsub]
      rfl
    · rw [List.getElem?_append_left hgt, List.getElem?_append_left hgt]

/-- While its trigger fires, a link either stays as it is, or its fire is written down and the chain
goes on with the link that recorded it. `done` are the links before it, as they are now: the chain
has the mark of the last fire all along. -/
theorem upholds_link {done rest : List (Link κ)} {l : Link κ} {p : Payload}
    {post : Trigger κ × Delivery → Session κ σ → Prop}
    (hr : ∀ r p, Heeds host.holds world id place (react host invoke r p))
    (hs : s.Firing host.holds world id place t) (hdrop : t.links.drop done.length = l :: rest)
    (hmark : ((done ++ l :: rest)[place]?).bind (·.lastFired) = lastFire id place s.journal)
    (hstay : ∀ d s', s'.Firing host.holds world id place t →
      ((done ++ l :: rest)[place]?).bind (·.lastFired) = lastFire id place s'.journal →
        post (⟨l, rest⟩, d) s')
    (hgo : ∀ l' d s', s'.Firing host.holds world id place t →
      ((done ++ l' :: rest)[place]?).bind (·.lastFired) = lastFire id place s'.journal →
        Upholds (Session.Marked host.holds world id place)
          (follow host invoke id done.length l' rest d) s' post) :
    Upholds (Session.Marked host.holds world id place) (respond host invoke id done.length l rest p)
      s post := by
  have hl : t.links[done.length]? = some l := by
    rw [← Nat.add_zero done.length, ← List.getElem?_drop, hdrop]
    rfl
  rw [respond_eq]
  have hm := hs.toMarked
  refine (upholds_engine (P := fun e s' => e = s.engine ∧ s = s') hm ⟨rfl, rfl⟩).bind ?_
  rintro _ _ - ⟨rfl, rfl⟩
  rw [hm.turnFor_eq]
  refine (upholds_ask host l _ p hm).bind fun answer s₁ hm₁ ⟨hshelf, hj, hanswer⟩ => ?_
  rw [← hj] at hanswer hmark ⊢
  have hs₁ : s₁.Firing host.holds world id place t := ⟨hm₁, hshelf ▸ hs.out, hj ▸ hs.taken⟩
  have hown : done.length = place → l.lastFired = lastFire id place s₁.journal := by
    rintro rfl
    rw [← hmark, mark_length]
  have hs₂ := hs₁.asked hl hown hanswer
  refine (upholds_note (P := fun _ s' => s' = _) hs₂.toMarked rfl).bind ?_
  rintro _ _ - rfl
  cases answer with
  | resting | declined => exact upholds_pure hs₂.toMarked (hstay _ _ hs₂ hmark)
  | willing =>
    refine (hr l.reaction p _ hs₂.toMarked).bind fun d s₃ hm₃ hleaves => ?_
    obtain ⟨hs₃, ns, hj₃, hns⟩ := hs₂.leaves hm₃ hleaves
    have hmark₃ : ((done ++ l :: rest)[place]?).bind (·.lastFired) =
        lastFire id place s₃.journal := by
      rw [hj₃, lastFire_append hns]
      exact hmark
    split
    · exact upholds_pure hm₃ (hstay _ _ hs₃ hmark₃)
    · -- nothing was told of the link while it reacted, so it was the last to be asked
      have hasked : done.length = place → s₃.journal.find? (·.concerns id place) =
          some (.asked id place p (turnAt world p s₁.journal) .willing) := by
        rintro rfl
        have hnone : ns.find? (·.concerns id done.length) = none := by simpa using hns
        rw [hj₃, List.find?_append, hnone]
        simp [Notice.concerns]
      obtain ⟨hs₄, hlast₄⟩ := hs₃.reacted hasked
      refine (upholds_note (P := fun _ s' => s' = _) hs₄.toMarked rfl).bind ?_
      rintro _ _ - rfl
      exact hgo _ _ _ hs₄ ((mark_recordFire hmark₃ _).trans hlast₄.symm)

/-- A chain comes back with the mark of the last fire. -/
theorem upholds_respond (hr : ∀ r p, Heeds host.holds world id place (react host invoke r p))
    {done rest : List (Link κ)} {l : Link κ} (p : Payload)
    (hs : s.Firing host.holds world id place t) (hdrop : t.links.drop done.length = l :: rest)
    (hmark : ((done ++ l :: rest)[place]?).bind (·.lastFired) = lastFire id place s.journal) :
    Upholds (Session.Marked host.holds world id place) (respond host invoke id done.length l rest p)
      s fun r s' => s'.Firing host.holds world id place t ∧
        ((done ++ r.1.links)[place]?).bind (·.lastFired) = lastFire id place s'.journal := by
  induction rest generalizing done l p s with
  | nil =>
    exact upholds_link host hr hs hdrop hmark (fun _ _ hs' hmark' => ⟨hs', hmark'⟩)
      fun l' d s' hs' hmark' => upholds_pure hs'.toMarked ⟨hs', hmark'⟩
  | cons next rest ih =>
    refine upholds_link host hr hs hdrop hmark (fun _ _ hs' hmark' => ⟨hs', hmark'⟩)
      fun l' d s' hs' hmark' => ?_
    have hlength : (done ++ [l']).length = done.length + 1 := by simp
    have hnext : t.links.drop (done ++ [l']).length = next :: rest := by
      rw [hlength, ← List.drop_drop, hdrop]
      rfl
    have hmore : ((done ++ [l'] ++ next :: rest)[place]?).bind (·.lastFired) =
        lastFire id place s'.journal := by
      rw [List.append_assoc]
      exact hmark'
    have hrest := ih d.payload hs' hnext hmore
    rw [hlength] at hrest
    refine hrest.bind fun r s₁ hs₁ ⟨hf, hm⟩ => upholds_pure hs₁ ⟨hf, ?_⟩
    rwa [List.append_assoc] at hm

/-- A trigger that is taken off the shelf to fire has the mark of the last fire of its link. -/
def TakenMarked (test : κ → Payload → σ → Bool × σ) (world : WorldId) (id : TriggerId) (place : Nat)
    (s : Session κ σ) : Option (Trigger κ) → Session κ σ → Prop
  | none, s' => s.Leaves id place s'
  | some t, s' => s.engine.shelf.get? id = some t ∧ s'.Firing test world id place t ∧
      t.mark place = lastFire id place s'.journal

theorem upholds_checkOut (hs : s.Marked host.holds world id place) :
    Upholds (Session.Marked host.holds world id place) (checkOut id) s
      (TakenMarked host.holds world id place s) := by
  refine upholds_paid hs fun budget => ?_
  have hpaid := hs.spares (.pay s budget)
  rw [Upholds, modifyGet_eq]
  cases hget : s.engine.shelf.get? id with
  | none =>
    simp only [Shelf.checkOut, hget]
    exact ⟨hpaid, (Session.Spares.pay s budget).leaves⟩
  | some t =>
    have hm := hpaid.checkOut hget
    have hf : Session.Firing host.holds world id place t _ :=
      ⟨hm, Shelf.get?_checkOut hget, by simp [firings]⟩
    have hmark := hm.lawful.lastFire_firing
    simp only [Shelf.checkOut, hget] at hf ⊢
    exact ⟨hf.toMarked, hget, hf, hmark.symm⟩

theorem upholds_checkIn (hs : s.Marked host.holds world id place)
    (hout : s.engine.shelf.get? id = none) (ht : t.mark place = lastFire id place s.journal) :
    Upholds (Session.Marked host.holds world id place) (checkIn id t) s fun _ _ => True := by
  refine upholds_paid hs fun budget => ?_
  exact ⟨(hs.spares (.pay s budget)).checkIn hout ht, trivial⟩

/-- The trigger is taken off the shelf with the mark of the last fire, and is put back so. -/
theorem heeds_fire_own (hr : ∀ r p, Heeds host.holds world id place (react host invoke r p))
    (p : Payload) : Heeds host.holds world id place (fire host invoke id p) := by
  intro s hs
  refine (upholds_checkOut host hs).bind ?_
  rintro (_ | t) s₁ hs₁ h₁
  · exact upholds_pure hs₁ h₁
  · obtain ⟨hget, hf, hmark⟩ := h₁
    have hdrop : t.links.drop ([] : List (Link κ)).length = t.head :: t.rest := rfl
    refine (upholds_respond host hr p hf hdrop hmark).bind fun r s₂ hs₂ h₂ => ?_
    refine (upholds_checkIn host hs₂ h₂.1.out h₂.2).bind fun _ s₃ hs₃ _ => ?_
    exact upholds_pure hs₃ fun hout => by cases hout.symm.trans hget

theorem heeds_sequencing : Sequencing fun {α} (m : Run κ σ α) =>
    Heeds host.holds world id place m where
  pure := heeds_pure
  bind := Heeds.bind
  get := heeds_get
  attend hf := heeds_step fun e s => by
    obtain ⟨roller, h⟩ := hf e s
    rw [h]
    exact ⟨rfl, rfl, rfl⟩

/-- A fire of another trigger spares the link, apart from the reactions that it meets. -/
theorem heeds_fire_other (hr : ∀ r p, Heeds host.holds world id place (react host invoke r p))
    {i : TriggerId} (hi : i ≠ id) (p : Payload) :
    Heeds host.holds world id place (fire host invoke i p) := by
  have hspares : ∀ {s : Session κ σ} {shelf : Shelf κ} {n : Notice κ},
      shelf.nextId = s.engine.shelf.nextId → shelf.slots[id]? = s.engine.shelf.slots[id]? →
        n.concerns id place = false → isTurn n = false → s.Spares id place { s with
          engine := { s.engine with shelf }
          journal := n :: s.journal } := fun {s shelf n} hnext hslot hn hturn =>
    ⟨rfl, rfl, hnext, hslot, [n], rfl, by simpa using ⟨hn, hturn⟩⟩
  have hout : Heeds host.holds world id place (checkOut i : Run κ σ (Option (Trigger κ))) :=
    heeds_pay.bind fun _ => heeds_of_spares fun s => by
      rw [modifyGet_eq]
      cases hget : s.engine.shelf.get? i with
      | none =>
        simp only [Shelf.checkOut, hget]
        exact .refl s
      | some t =>
        have hslot : (s.engine.shelf.checkOut i).2.slots[id]? = s.engine.shelf.slots[id]? := by
          rw [Shelf.slots_checkOut hget, if_neg hi]
        have hn : Notice.concerns id place (.firing i t) = false := by simp [Notice.concerns, hi]
        have h := hspares Shelf.nextId_checkOut hslot hn rfl
        simp only [Shelf.checkOut, hget] at h ⊢
        exact h
  have hin : ∀ t : Trigger κ, Heeds host.holds world id place (checkIn i t : Run κ σ Unit) :=
    fun t => heeds_pay.bind fun _ => heeds_of_spares fun s =>
      hspares Shelf.nextId_checkIn (by rw [Shelf.slots_checkIn, if_neg fun hc => hi hc.1]) rfl rfl
  have hnote : ∀ n : Notice κ, n.isOfLink i = true → Heeds host.holds world id place
      (note n : Run κ σ Unit) := fun n hn => by
    cases n with
    | asked j k | reacted j k =>
      have hj : j = i := by simpa [Notice.isOfLink] using hn
      exact heeds_note (by simp [Notice.concerns, hj, hi]) rfl
    | _ => cases hn
  refine hout.bind fun t => ?_
  cases t with
  | none => exact heeds_pure _
  | some t =>
    exact ((heeds_sequencing host).respond hnote hr 0 t.head t.rest p).bind fun r =>
      (hin r.1).bind fun _ => heeds_pure r.2

/-! ## The other parts -/

theorem heeds_handle (hi : ∀ code p, Heeds host.holds world id place (invoke code p))
    (handler : HandlerId) (p : Payload) :
    Heeds host.holds world id place (serve host invoke (.handler handler) p) := by
  refine (heeds_sequencing host).engine.bind fun e => ?_
  split
  · exact heeds_pure _
  · exact (heeds_note rfl rfl).bind fun _ => hi _ p

theorem heeds_all {act : β → Run κ σ (Except Failure Unit)}
    (ha : ∀ b, Heeds host.holds world id place (act b)) :
    ∀ list : List β, Heeds host.holds world id place (all act list)
  | [] => heeds_pure _
  | b :: rest => (ha b).bind fun _ => (heeds_all ha rest).bind fun _ => heeds_pure _

theorem heeds_runTask (hd : ∀ d, Heeds host.holds world id place (doTask host invoke d))
    (collection : Nat) (d : Deferred κ) :
    Heeds host.holds world id place (runTask host invoke collection d) := by
  rw [runTask_eq]
  exact (heeds_note rfl rfl).bind fun _ => hd d

/-- A turn that is gone to is written down at once. -/
theorem heeds_collect (hd : ∀ d, Heeds host.holds world id place (doTask host invoke d))
    (k : Dispatch) : Heeds host.holds world id place (collect host invoke k) := by
  have hcollect : collect host invoke k = pay >>= fun _ =>
      (modifyGet fun s => ((k.gather s.engine).1, { s with engine := (k.gather s.engine).2 })) >>=
        fun due => runDue host invoke k.calendar due.2 due.1 >>= fun outcome =>
          pure (outcome.map fun _ => due.2) := by
    simp only [collect, change, step, bind_assoc]
  rw [hcollect]
  refine heeds_pay.bind fun _ s hs => ?_
  obtain ⟨s', hs'⟩ : ∃ s' : Session κ σ, s' = { s with
      engine := (k.gather s.engine).2
      journal := .collected k.calendar (k.gather s.engine).1.2
        ((k.gather s.engine).1.1.map (·.item)) :: s.journal } := ⟨_, rfl⟩
  have hm : s'.Marked host.holds world id place := by
    cases k with
    | nextTurn => exact hs' ▸ hs.tick
    | startRound | endTurn =>
      exact hs' ▸ hs.spares ⟨rfl, rfl, rfl, rfl, [_], rfl, List.forall_mem_singleton.2 ⟨rfl, rfl⟩⟩
  have hleaves : s.Leaves id place s' := fun hout _ => by
    subst hs'
    refine ⟨?_, [_], rfl, by simp [Notice.concerns]⟩
    cases k <;> exact hout
  have hrest := ((heeds_all host (fun entry : AgendaEntry (Deferred κ) =>
    heeds_runTask host hd (s.journal.countP Notice.isCollected) entry.item)
      (k.gather s.engine).1.1).bind fun outcome =>
        heeds_pure (outcome.map fun _ => (k.gather s.engine).1.2)) s' hm
  -- nothing can stop the run before the collection is written down
  rw [hs'] at hrest hleaves
  exact Upholds.mono hrest fun _ _ h => hleaves.trans h

theorem heeds_takeNext :
    Heeds host.holds world id place (takeNext : Run κ σ (Option (Interruption κ))) := by
  refine (heeds_step fun e _ => ?_).bind fun first => ?_
  · dsimp only [Engine.dequeue]
    split <;> exact ⟨rfl, rfl, rfl⟩
  · cases first with
    | none => exact heeds_pure _
    | some i => exact (heeds_note rfl rfl).bind fun _ => heeds_pure _

theorem heeds_traversal : Traversal (Licence.keepsMark id place) host
    fun {α} (m : Run κ σ α) => Heeds host.holds world id place m where
  toSequencing := heeds_sequencing host
  throw := heeds_throw
  pay := heeds_pay
  remark {n} hn := by
    cases n with
    | emitted | acting => exact heeds_note rfl rfl
    | _ => cases hn
  makeChange hc := heeds_makeChange (by cases hc <;> first | assumption | trivial)
  takeNext := heeds_takeNext host
  strike target dice := heeds_step fun e _ => by
    dsimp only [Engine.strike]
    split <;> exact ⟨rfl, rfl, rfl⟩
  pass _ := heeds_step fun _ _ => ⟨rfl, rfl, rfl⟩
  fire hr i p := by
    by_cases hi : i = id
    · subst hi
      exact heeds_fire_own host hr p
    · exact heeds_fire_other host hr hi p
  handle := heeds_handle host
  collect hd k _ := heeds_collect host hd k

end

end Run

/-! ## Whole runs -/

namespace Session

variable {κ σ α : Type}

theorem marked_opening (test : κ → Payload → σ → Bool × σ) (world : WorldId) (id : TriggerId)
    (place : Nat) (settings : Settings) (state : σ) (budget : Nat) :
    (opening (κ := κ) world settings state budget).Marked test world id place where
  home := rfl
  clock := rfl
  slot h := by
    rw [Shelf.contains_eq] at h
    simp [opening, Engine.new, Shelf.slots_new] at h
  fired h := absurd rfl h
  shelved _ _ h := absurd rfl h
  lawful := .nil

/-- Every run of operations that leave the mark of a link to its fires keeps the link marked. -/
theorem reached_marked {host : Host κ σ} {p : Program κ σ α} {s : Session κ σ} {world : WorldId}
    {id : TriggerId} {place : Nat} (hs : s.Marked host.holds world id place)
    (hh : host.Within (.keepsMark id place)) (hp : p.Within (.keepsMark id place)) :
    (s.reached host p).Marked host.holds world id place := by
  have hJ := @Run.heeds_traversal κ σ host world id place
  have h := hJ.program (hJ.code hh s.budget) hp s hs
  unfold Run.Upholds at h
  unfold reached run
  split <;> rename_i heq <;> rw [heq] at h
  · exact h.1
  · exact h

/-- What a run has made of a link whose cooldown is `c` turns. -/
structure Cooled (host : Host κ σ) (world : WorldId) (id : TriggerId) (place c : Nat)
    (s : Session κ σ) : Prop where
  paced : Paced host.holds world id place c s.journal
  /-- A trigger that has fired bears the mark of the last recorded fire on the shelf, and takes it
  along if it is removed. -/
  shelved : ∀ t, s.engine.shelf.get? id = some t → firings id s.journal ≠ [] →
    t.mark place = lastFire id place s.journal
  /-- A fire is recorded if its reaction does not fail, for the turn that was read before the
  reaction, and only then. -/
  outcome : ∀ (invoke : Invoke κ σ) k l rest p (s s₁ s₂ : Session κ σ) d,
    Run.ask host l (s.engine.turnFor p.world) p s = .ok .willing s₁ →
      Run.react host invoke l.reaction p { s₁ with
        journal := .asked id k p (s.engine.turnFor p.world) .willing :: s₁.journal } = .ok d s₂ →
          Run.respond host invoke id k l rest p s = match d.outcome with
            | .error _ => .ok (⟨l, rest⟩, d) s₂
            | .ok () => Run.follow host invoke id k (l.recordFire (s.engine.turnFor p.world)) rest d
                { s₂ with
                  journal := .reacted id k (s.engine.turnFor p.world) :: s₂.journal }

/-- Wherever a run stands that leaves the mark of a link to its fires, the link keeps its pace if
its cooldown has been `c` turns. If the run brings no marks along either, each refusal comes less
than `c` turns after a recorded fire of the link. -/
theorem cooldown_law (host : Host κ σ) (program : Program κ σ α) (world : WorldId)
    (settings : Settings) (state : σ) (budget : Nat) (id : TriggerId) (place c : Nat)
    (hh : host.Within (.keepsMark id place)) (hp : program.Within (.keepsMark id place))
    (s : Session κ σ) (hs : s = (opening world settings state budget).reached host program)
    (hc : ∀ t ∈ firings id s.journal, ∀ l ∈ t.links[place]?, l.pause = c) :
    s.Cooled host world id place c ∧
      (host.Within .bringsUnmarked → program.Within .bringsUnmarked →
        ∀ later p turn earlier, s.journal = later ++ .asked id place p turn .resting :: earlier →
          ∃ now, turn = some now ∧ ∃ last ∈ recorded id place earlier,
            now.toNat - last.toNat < c) := by
  subst hs
  have hm := reached_marked (marked_opening host.holds world id place settings state budget) hh hp
  have hpaced := hm.lawful.paced hc
  refine ⟨⟨hpaced, hm.shelved, fun _ _ _ _ _ _ _ _ _ hask hreact =>
    Run.respond_of_willing host hask hreact⟩, fun hhu hpu later p turn earlier hj => ?_⟩
  obtain ⟨now, hturn, howed | ⟨-, last, hlast, -⟩⟩ := hpaced.owed later p turn earlier hj
  · exact ⟨now, hturn, howed⟩
  · rw [brought_eq_none hhu hpu] at hlast
    cases hlast

/-- An event is emitted for the world at each of some turns. -/
def hourly (event : String) : Nat → Program Unit Unit Unit
  | 0 => .done ()
  | turns + 1 => .perform (.emit event { world := some Engine.defaultWorld }) fun _ =>
    .perform .nextTurn fun _ => hourly event turns

/-- A bell with a cooldown of two turns is rung at each of four turns. -/
def belfry : Program Unit Unit Unit :=
  .perform (.change (.registerGlobal ((Trigger.new "hour" .always (.alert "ding")).withCooldown
    (some 2)))) fun _ => hourly "hour" 4

theorem hourly_within {allowed : Licence Unit Unit}
    (hemit : ∀ event p, allowed _ (.emit event p)) (hturn : allowed _ .nextTurn) (event : String)
    (turns : Nat) : (hourly event turns).Within allowed := by
  induction turns with
  | zero => trivial
  | succ turns ih => exact ⟨hemit _ _, fun _ => ⟨hturn, fun _ => ih⟩⟩

/-- So it is with the bell, which rings at every other turn. -/
theorem cooldown_law_belfry :
    Host.hurrying.Within (.keepsMark ⟨1⟩ 0) ∧ belfry.Within (.keepsMark ⟨1⟩ 0) ∧
      Host.hurrying.Within .bringsUnmarked ∧ belfry.Within .bringsUnmarked ∧
        ∃ s : Session Unit Unit,
          s = (opening Engine.defaultWorld {} () 100).reached .hurrying belfry ∧
            (∀ t ∈ firings ⟨1⟩ s.journal, ∀ l ∈ t.links[0]?, l.pause = 2) ∧
              s.Cooled .hurrying Engine.defaultWorld ⟨1⟩ 0 2 ∧
                attempts ⟨1⟩ 0 s.journal =
                  [(3, .resting), (2, .willing), (1, .resting), (0, .willing)] ∧
                  recorded ⟨1⟩ 0 s.journal = [2, 0] ∧
                    (∀ later p turn earlier,
                      s.journal = later ++ .asked ⟨1⟩ 0 p turn .resting :: earlier →
                        ∃ now, turn = some now ∧ ∃ last ∈ recorded ⟨1⟩ 0 earlier,
                          now.toNat - last.toNat < 2) ∧
                      (∀ t ∈ firings ⟨1⟩ s.journal, ∀ l ∈ t.links[0]?, l.condition = .always) ∧
                        Unfailing ⟨1⟩ 0 s.journal ∧ TurnByTurn (attempts ⟨1⟩ 0 s.journal) := by
  have hh : Host.hurrying.Within (.keepsMark ⟨1⟩ 0) := fun _ _ => ⟨trivial, fun _ => trivial⟩
  have hp : belfry.Within (.keepsMark ⟨1⟩ 0) :=
    ⟨trivial, fun _ => hourly_within (fun _ _ => trivial) trivial _ 4⟩
  have hhu : Host.hurrying.Within .bringsUnmarked := fun _ _ => ⟨trivial, fun _ => trivial⟩
  have hpu : belfry.Within .bringsUnmarked :=
    ⟨List.forall_mem_singleton.2 rfl, fun _ => hourly_within (fun _ _ => trivial) trivial _ 4⟩
  obtain ⟨s, hs⟩ : ∃ s : Session Unit Unit,
      s = (opening Engine.defaultWorld {} () 100).reached .hurrying belfry := ⟨_, rfl⟩
  have hc : ∀ t ∈ firings ⟨1⟩ s.journal, ∀ l ∈ t.links[0]?, l.pause = 2 := by
    rw [hs]
    decide +kernel
  have hattempts : attempts ⟨1⟩ 0 s.journal =
      [(3, .resting), (2, .willing), (1, .resting), (0, .willing)] := by
    rw [hs]
    decide +kernel
  obtain ⟨hcooled, hown⟩ := cooldown_law _ _ _ _ _ _ ⟨1⟩ 0 2 hh hp s hs hc
  refine ⟨hh, hp, hhu, hpu, s, hs, hc, hcooled, hattempts, ?_, hown hhu hpu, ?_, ?_, ?_⟩
  · rw [hs]
    decide +kernel
  · rw [hs]
    decide +kernel
  · rw [hs]
    decide +kernel
  · rw [hattempts]
    unfold TurnByTurn
    decide

/-- A bell that has rung at the first turn in another engine is taken over from there, and rung. -/
def secondhand : Program Unit Unit Unit :=
  let bell := Trigger.new "hour" .always (.alert "ding")
  .perform (.change (.registerGlobal
    { bell with head := { bell.head with cooldown := some 2, lastFired := some 0 } })) fun _ =>
      hourly "hour" 1

/-- A bell has an echo with a cooldown of two turns. Between two strokes in one turn the echo is
replaced by a new one. -/
def recast : Program Unit Unit Delivery :=
  let bell := Trigger.new "hour" .always (.alert "ding")
  let echo := (Trigger.new "hour" .always (.alert "dong")).withCooldown (some 2)
  let stroke : Operation Unit Unit Delivery := .emit "hour" { world := some Engine.defaultWorld }
  .perform (.change (.registerGlobal (bell.andThen echo))) fun _ =>
    .perform stroke fun _ =>
      .perform (.change (.editTrigger ⟨1⟩ (·.andThen echo))) fun _ => .perform stroke .done

/-- A link that brings a mark along is refused before any fire of it is recorded, and one that is
replaced between two fires fires twice in a turn. -/
theorem cooldown_law_recast :
    (∃ s : Session Unit Unit,
      s = (opening Engine.defaultWorld {} () 100).reached .hurrying secondhand ∧
        (∀ t ∈ firings ⟨1⟩ s.journal, ∀ l ∈ t.links[0]?, l.pause = 2) ∧
          attempts ⟨1⟩ 0 s.journal = [(0, .resting)] ∧ recorded ⟨1⟩ 0 s.journal = []) ∧
      ∃ s : Session Unit Unit,
        s = (opening Engine.defaultWorld {} () 100).reached .hurrying recast ∧
          (∀ t ∈ firings ⟨1⟩ s.journal, ∀ l ∈ t.links[1]?, l.pause = 2) ∧
            recorded ⟨1⟩ 1 s.journal = [0, 0] ∧
              ¬(recorded ⟨1⟩ 1 s.journal).Pairwise fun later earlier =>
                2 ≤ later.toNat - earlier.toNat :=
  ⟨⟨_, rfl, by decide +kernel, by decide +kernel, by decide +kernel⟩,
    ⟨_, rfl, by decide +kernel, by decide +kernel, by decide +kernel⟩⟩

end Session

end Encounter
