import Encounter.Proofs.Following
import Encounter.Proofs.Registration
import Encounter.Proofs.Rotation

/-!
# Who is next

While a turn is played, participants only leave the turn order (`Session.thinned_moves`), unless
some code sets the order anew, starts a round or plays a turn itself (`Licence.keepsOrder`).

`Session.playTurn_passes_turn` says who holds the turn when it has been played: the first of those
who waited behind the holder and are still there. There is one exception. If the holder itself has
left, the turn was passed on by that already and is passed on once more; where two or more are still
there, the first of them is skipped.
-/

set_option autoImplicit false

namespace Encounter

/-- Does the change only let participants leave the turn order? -/
def Change.KeepsOrder {κ α : Type} : Change κ α → Prop
  | .setOrder _ => False
  | _ => True

/-- The operations that only let participants leave the turn order. -/
def Licence.keepsOrder {κ σ : Type} : Licence κ σ
  | _, .change c => c.KeepsOrder
  | _, .startRound => False
  | _, .playTurn => False
  | _, _ => True

open Engine in
theorem Change.thinned {κ α : Type} {o : TurnOrder (Deferred κ)} {e : Engine κ} (c : Change κ α)
    (hc : c.KeepsOrder) (h : o.Thinned e.order) : o.Thinned (c.apply e).2.order := by
  have hapart : c.IsApart → (c.apply e).2.order = e.order := fun h => (c.apart h e).order
  cases c with
  | setOrder => exact hc.elim
  | removeEntity x =>
    refine orRefuse_cases (P := fun e => o.Thinned e.order) h fun removed e' hok => ?_
    obtain ⟨world, -, rfl⟩ := removeEntity_eq_ok hok
    show o.Thinned (TurnOrder.remove _ x)
    rw [(removeTriggers_apart _).order]
    exact h.remove
  | scheduleRounds => exact h.congr rfl rfl
  | addHandler | removeHandler => exact h
  | _ =>
    rw [hapart trivial]
    exact h

namespace Session

section
variable {κ σ : Type} {s s' : Session κ σ}

theorem keepsOrder_of_permits {α : Type} {c : Change κ α}
    (h : (Licence.keepsOrder (σ := σ)).Permits c) : c.KeepsOrder := by
  cases h with
  | asked h => exact h
  | _ => trivial

theorem thinned_move {o : TurnOrder (Deferred κ)} (hm : Move .keepsOrder s s')
    (h : o.Thinned s.engine.order) : o.Thinned s'.engine.order := by
  cases hm with
  | change c hc => exact c.thinned (keepsOrder_of_permits hc) h
  | startRound hs => exact hs.elim
  | collect hp => exact hp.elim
  | pass hp => exact hp.elim
  | strike target dice =>
    dsimp only [Engine.strike]
    split <;> exact h
  | _ => exact h

/-- While a turn is played, participants only leave. -/
theorem thinned_moves {o : TurnOrder (Deferred κ)} (hm : Moves .keepsOrder s s')
    (h : o.Thinned s.engine.order) : o.Thinned s'.engine.order :=
  hm.keep (fun _ _ => thinned_move) h

end

end Session

namespace Run

variable {κ σ α : Type} {host : Host κ σ} {invoke : Invoke κ σ} {s s' : Session κ σ}

theorem engine_of_change {f : Engine κ → α × Engine κ} {a : α} (h : change f s = .ok a s') :
    s'.engine = (f s.engine).2 := by
  obtain ⟨b, -, -, rfl⟩ := change_eq_ok.1 h
  rfl

section
variable {o : TurnOrder (Deferred κ)} (hi : ∀ code p, Follows .keepsOrder (invoke code p))
include hi

/-- The end of a turn lets participants leave, and passes the turn on. -/
theorem thinned_endTurn {ended : Except Failure Unit} (h : endTurn host invoke s = .ok ended s')
    (hs : o.Thinned s.engine.order) : ∃ o', o.Thinned o' ∧ s'.engine.order = o'.next := by
  unfold endTurn at h
  obtain ⟨⟨due, round⟩, s₁, hcollect, h⟩ := bind_eq_ok.1 h
  obtain ⟨outcome, s₂, hdue, h⟩ := bind_eq_ok.1 h
  obtain ⟨_, s₃, hpass, h⟩ := bind_eq_ok.1 h
  cases h
  have h₁ : o.Thinned s₁.engine.order := by
    rw [engine_of_change hcollect]
    exact hs.congr rfl rfl
  have h₂ := Session.thinned_moves ((follows_runDue host ((follows_traversal host).doTask hi)
    .rounds round due).moves hdue) h₁
  refine ⟨s₂.engine.order, h₂, ?_⟩
  rw [engine_of_change hpass]

/-- So does a turn that is played. -/
theorem thinned_playTurn {outcome : Except Failure TurnOutcome}
    (h : playTurn host invoke s = .ok outcome s') (hs : o.Thinned s.engine.order) :
    ∃ o', o.Thinned o' ∧ s'.engine.order = o'.next := by
  unfold playTurn at h
  obtain ⟨e, s₁, he, h⟩ := bind_eq_ok.1 h
  cases he
  cases hx : s.engine.order.current? with
  | some x =>
    rw [hx] at h
    obtain ⟨taken, s₂, htaken, h⟩ := bind_eq_ok.1 h
    obtain ⟨ended, s₃, hended, h⟩ := bind_eq_ok.1 h
    cases h
    refine thinned_endTurn hi hended ?_
    exact Session.thinned_moves (((follows_traversal host).takeTurn hi x).moves htaken) hs
  | none =>
    rw [hx] at h
    obtain ⟨taken, s₂, htaken, h⟩ := bind_eq_ok.1 h
    cases htaken
    obtain ⟨ended, s₃, hended, h⟩ := bind_eq_ok.1 h
    cases h
    exact thinned_endTurn hi hended hs

end

end Run

/-! ## Who holds the turn -/

namespace Session

/-- Three entities are in the order, and one acts for the first. -/
def seating : Program Unit Unit Unit :=
  .perform (.change (.spawn "first" .npc)) fun first =>
    .perform (.change (.spawn "second" .npc)) fun second =>
      .perform (.change (.spawn "third" .npc)) fun third =>
        .perform (.change (.setOrder [first, second, third])) fun _ =>
          .perform (.change (.setActor first ())) .done

/-- The session in which it is the turn of the first of three, which is about to remove one. -/
def trio (removed : EntityId) : Session Unit Unit :=
  (opening Engine.defaultWorld {} () 100).reached (.removing removed) seating

theorem removing_keepsOrder (removed : EntityId) : (Host.removing removed).Within .keepsOrder :=
  fun _ _ => ⟨trivial, fun _ => trivial⟩

/-- The turn has passed to the first successor of the holder, if the holder is still there or no
second successor is. Else it has passed to the second one. -/
theorem playTurn_passes_turn {κ σ : Type} {host : Host κ σ} {s s' : Session κ σ} {holder : EntityId}
    {outcome : Except Failure TurnOutcome} (hh : host.Within .keepsOrder)
    (hnd : s.engine.order.participants.Nodup) (hcur : s.engine.order.current? = some holder)
    (hrun : s.run host (.ofOperation .playTurn) = .ok outcome s') :
    s'.engine.order.current? = (if holder ∈ s'.engine.order.participants
      then s.engine.order.successors s'.engine.order.participants
      else (s.engine.order.successors s'.engine.order.participants).rotate 1).head? ∧
    (s'.engine.order.current? =
        (s.engine.order.successors s'.engine.order.participants).head? ↔
      holder ∈ s'.engine.order.participants ∨
        (s.engine.order.successors s'.engine.order.participants).length ≤ 1) := by
  obtain ⟨answer, s₁, hplay, h⟩ := Run.bind_eq_ok.1 hrun
  cases h
  have hs := TurnOrder.Thinned.refl hnd (TurnOrder.seated_of_current? hcur)
  obtain ⟨o, ho, hnext⟩ := Run.thinned_playTurn ((Run.follows_traversal host).code hh s.budget)
    hplay hs
  rw [hnext, TurnOrder.participants_next]
  refine ⟨?_, ho.current?_next hcur⟩
  rw [TurnOrder.current?_eq_head? TurnOrder.seated_next, ho.line_next hcur]

/-- So it is when the next in line is removed: the one behind it has the turn. -/
theorem playTurn_passes_turn_trio : (Host.removing ⟨2⟩).Within .keepsOrder ∧
    (trio ⟨2⟩).engine.order.participants.Nodup ∧
    (trio ⟨2⟩).engine.order.current? = some ⟨1⟩ ∧
    ∃ outcome s', (trio ⟨2⟩).run (.removing ⟨2⟩) (.ofOperation .playTurn) = .ok outcome s' ∧
      s'.engine.order.current? =
        ((trio ⟨2⟩).engine.order.successors s'.engine.order.participants).head? ∧
      s'.engine.order.current? = some ⟨3⟩ := by
  have hh := removing_keepsOrder ⟨2⟩
  have hnd : (trio ⟨2⟩).engine.order.participants.Nodup := by decide +kernel
  have hcur : (trio ⟨2⟩).engine.order.current? = some ⟨1⟩ := by decide +kernel
  obtain ⟨outcome, hrun⟩ : ∃ outcome, (trio ⟨2⟩).run (.removing ⟨2⟩) (.ofOperation .playTurn) =
      .ok outcome ((trio ⟨2⟩).reached (.removing ⟨2⟩) (.ofOperation .playTurn)) :=
    ok_of_ends (by decide +kernel)
  exact ⟨hh, hnd, hcur, outcome, _, hrun,
    (playTurn_passes_turn hh hnd hcur hrun).2.2 (.inl (by decide +kernel)), by decide +kernel⟩

/-- Who leaves in its own turn makes the next in line lose one. -/
theorem playTurn_skips : (Host.removing ⟨1⟩).Within .keepsOrder ∧
    (trio ⟨1⟩).engine.order.participants.Nodup ∧
    (trio ⟨1⟩).engine.order.current? = some ⟨1⟩ ∧
    ∃ outcome s', (trio ⟨1⟩).run (.removing ⟨1⟩) (.ofOperation .playTurn) = .ok outcome s' ∧
      ((trio ⟨1⟩).engine.order.successors s'.engine.order.participants).head? = some ⟨2⟩ ∧
      s'.engine.order.current? = some ⟨3⟩ := by
  obtain ⟨outcome, hrun⟩ : ∃ outcome, (trio ⟨1⟩).run (.removing ⟨1⟩) (.ofOperation .playTurn) =
      .ok outcome ((trio ⟨1⟩).reached (.removing ⟨1⟩) (.ofOperation .playTurn)) :=
    ok_of_ends (by decide +kernel)
  exact ⟨removing_keepsOrder ⟨1⟩, by decide +kernel, by decide +kernel, outcome, _, hrun,
    by decide +kernel, by decide +kernel⟩

end Session

end Encounter
