import Encounter.Proofs.Following
import Encounter.Proofs.Rolls
import Encounter.Proofs.World

/-!
# What a strike does

A strike takes the rolled total off the hit points of its target, which then lie between zero and
the limit of 64 bits (`Vitals.damage_spec`). Nothing but the dice and these hit points changes
(`Engine.strike_struck`).

`Run.strike_wounds` says when the hit points do not grow: exactly if the total is not negative, or
if they are as many as 64 bits allow. A total below zero, as `1d8-9` always shows, is added to them,
even beyond the maximum: `Run.strike_heals`.
-/

set_option autoImplicit false

namespace Encounter

/-! ## Hit points -/

theorem Vitals.toInt_damage (v : Vitals) (amount : Int64) : (v.damage amount).current.toInt =
    max 0 (min (v.current.toInt - amount.toInt) 0x7fffffffffffffff) := by
  rw [damage, toInt_max, toInt_saturate64, Int64.toInt_zero]
  omega

/-- Damage leaves no fewer hit points than none. Of those that there were it adds some exactly if
its amount is negative and there is room for more. -/
theorem Vitals.damage_spec {v : Vitals} (h : 0 ≤ v.current) (amount : Int64) :
    0 ≤ (v.damage amount).current ∧
      ((v.damage amount).current ≤ v.current ↔ 0 ≤ amount ∨ v.current = Int64.maxValue) := by
  have hlt := v.current.toInt_lt
  rw [Int64.le_iff_toInt_le, Int64.toInt_zero] at h
  simp only [eq_maxValue_iff, Int64.le_iff_toInt_le, toInt_damage, Int64.toInt_zero]
  omega

/-! ## Strikes -/

namespace Engine

variable {κ : Type} {e e' : Engine κ} {target : EntityId} {record : Entity} {v : Vitals}

/-- The engines differ in the dice and in the vitals of one entity at most. -/
structure Struck (e : Engine κ) (target : EntityId) (v : Vitals) (e' : Engine κ) : Prop where
  rest : e' = { e with
    roller := e'.roller
    world := { e.world with entities := e'.world.entities } }
  others : ∀ x ≠ target, e'.world.entity? x = e.world.entity? x
  struck : e'.world.entity? target =
    (e.world.entity? target).map fun record => { record with vitals := some v }

theorem strike_eq (hx : e.world.entity? target = some record) (dice : Dice) :
    e.strike target dice = (.ok (), { e with
      roller := (dice.roll e.roller).2
      world := e.world.modifyEntity target (·.takeDamage (dice.roll e.roller).1) }) := by
  have hsome : (e.world.entity? target).isSome := by rw [hx]; rfl
  exact if_pos hsome

theorem strike_struck (hx : e.world.entity? target = some record) (hv : record.vitals = some v)
    (dice : Dice) :
    Struck e target (v.damage (dice.roll e.roller).1) (e.strike target dice).2 := by
  rw [strike_eq hx]
  refine ⟨rfl, fun x hne => ?_, ?_⟩
  · exact World.entity?_modifyEntity.trans (if_neg hne.symm)
  · refine (World.entity?_modifyEntity.trans (if_pos rfl)).trans ?_
    simp only [hx, Option.map_some, Entity.takeDamage, hv]

end Engine

namespace Run

variable {κ σ : Type}

/-- A strike at an entity with hit points rolls the dice once and takes the total off the hit
points, down to zero at most. Everything else stays as it is. The hit points do not grow, unless the
total is negative and there is room for more; so they never grow under dice that show no negative
total. -/
theorem strike_wounds (host : Host κ σ) (invoke : Invoke κ σ) (attacker target : EntityId)
    (dice : Dice) (type : String) (s : Session κ σ) (record : Entity) (v : Vitals) (b : Nat)
    (hx : s.engine.world.entity? target = some record) (hv : record.vitals = some v)
    (hcurrent : 0 ≤ v.current) (hb : s.budget = b + 1) :
    ∃ (e' : Engine κ) (v' : Vitals),
      act host invoke (.strike attacker target dice type) s = .ok (.ok ()) { s with
        engine := e'
        journal := .acting (.strike attacker target dice type) :: s.journal
        budget := b } ∧
      s.engine.Struck target v' e' ∧ e'.roller = (dice.roll s.engine.roller).2 ∧
      v'.maximum = v.maximum ∧
      v'.current.toInt = max 0
        (min (v.current.toInt - (dice.roll s.engine.roller).1.toInt) 0x7fffffffffffffff) ∧
      0 ≤ v'.current ∧
      (v'.current ≤ v.current ↔
        0 ≤ (dice.roll s.engine.roller).1 ∨ v.current = Int64.maxValue) ∧
      (0 ≤ dice.minTotal → v'.current ≤ v.current) := by
  obtain ⟨hlow, hgrows⟩ := Vitals.damage_spec hcurrent (dice.roll s.engine.roller).1
  have hstrike := Engine.strike_eq hx dice
  refine ⟨_, _, ?_, Engine.strike_struck hx hv dice, ?_, rfl, v.toInt_damage _, hlow, hgrows,
    fun hmin => hgrows.2 (.inl ?_)⟩
  · show change (·.strike target dice)
      { s with journal := .acting (.strike attacker target dice type) :: s.journal } = _
    refine change_eq_ok.2 ⟨b, hb, ?_, rfl⟩
    rw [hstrike]
  · rw [hstrike]
  · exact Int64.le_trans hmin (dice.minTotal_le_roll _)

/-- A hero and an orc with ten hit points. -/
def sparring : Program Unit Unit Unit :=
  .perform (.change (.spawn "hero" .player)) fun _ =>
    .perform (.change (.spawn "orc" .enemy)) fun orc =>
      .perform (.change (.edit orc fun record => { record with vitals := some (.full 10) })) .done

/-- The session in which the two face each other. -/
def duel : Session Unit Unit :=
  (Session.opening Engine.defaultWorld {} () 4).reached (.removing ⟨1⟩) sparring

/-- Struck by `2d6-2`, the orc does not gain hit points. -/
theorem strike_wounds_orc : ∃ (record : Entity) (e' : Engine Unit) (v' : Vitals),
    duel.engine.world.entity? ⟨2⟩ = some record ∧ record.vitals = some (.full 10) ∧
    0 ≤ (Vitals.full 10).current ∧ duel.budget = 0 + 1 ∧
    act (.removing ⟨1⟩) (code (.removing ⟨1⟩) 1) (.strike ⟨1⟩ ⟨2⟩ ⟨2, 6, -2⟩ "slashing") duel =
      .ok (.ok ()) { duel with
        engine := e'
        journal := .acting (.strike ⟨1⟩ ⟨2⟩ ⟨2, 6, -2⟩ "slashing") :: duel.journal
        budget := 0 } ∧
    duel.engine.Struck ⟨2⟩ v' e' ∧ v'.maximum = 10 ∧ 0 ≤ v'.current ∧ v'.current ≤ 10 := by
  obtain ⟨record, hx, hv⟩ : ∃ record, duel.engine.world.entity? ⟨2⟩ = some record ∧
      record.vitals = some (.full 10) := by
    have hvitals : (duel.engine.world.entity? ⟨2⟩).bind Entity.vitals = some (.full 10) := by
      decide +kernel
    exact Option.bind_eq_some_iff.1 hvitals
  have hcurrent : 0 ≤ (Vitals.full 10).current := by decide
  have hbudget : duel.budget = 0 + 1 := by decide +kernel
  obtain ⟨e', v', hact, hstruck, -, hmaximum, -, hlow, -, hwounds⟩ :=
    strike_wounds (.removing ⟨1⟩) (code (.removing ⟨1⟩) 1) ⟨1⟩ ⟨2⟩ ⟨2, 6, -2⟩ "slashing" duel record
      (.full 10) 0 hx hv hcurrent hbudget
  exact ⟨record, e', v', hx, hv, hcurrent, hbudget, hact, hstruck, hmaximum, hlow,
    hwounds (by decide)⟩

/-- Struck by `1d8-9`, the orc has more hit points than before, and more than it can have. -/
theorem strike_heals : Dice.parse "1d8-9" = .ok ⟨1, 8, -9⟩ ∧
    (duel.engine.world.entity? ⟨2⟩).bind Entity.vitals = some ⟨10, 10⟩ ∧
    ∃ s', act (.removing ⟨1⟩) (code (.removing ⟨1⟩) 1) (.strike ⟨1⟩ ⟨2⟩ ⟨1, 8, -9⟩ "slashing")
        duel = .ok (.ok ()) s' ∧
      (s'.engine.world.entity? ⟨2⟩).bind Entity.vitals = some ⟨13, 10⟩ := by
  refine ⟨rfl, by decide +kernel, ?_⟩
  obtain ⟨answer, s', hact, rfl, hvitals⟩ := ok_of_check (s := duel)
    (act (.removing ⟨1⟩) (code (.removing ⟨1⟩) 1) (.strike ⟨1⟩ ⟨2⟩ ⟨1, 8, -9⟩ "slashing"))
    (fun answer s' => answer = .ok () ∧
      (s'.engine.world.entity? ⟨2⟩).bind Entity.vitals = some ⟨13, 10⟩) (by decide +kernel)
  exact ⟨s', hact, hvitals⟩

end Run

end Encounter
