import Encounter.Trigger.Condition
import Encounter.Trigger.Reaction

/-!
# Triggers

A trigger is a chain of links. Each link binds a condition to a reaction; once it has reacted, the
next link gets the same payload. The event that a trigger listens to, its label and its origin are
those of its first link.
-/

set_option autoImplicit false

namespace Encounter

/-- One link of a chain. -/
structure Link (κ : Type) where
  event : String
  condition : Condition κ
  reaction : Reaction κ
  /-- A name for display. -/
  label : String
  /-- Where the link comes from, usually the name of its entity. -/
  source : Option String := none
  /-- The least number of turns between two fires. -/
  cooldown : Option UInt64 := none
  /-- The turn of the last recorded fire. -/
  lastFired : Option UInt64 := none
  deriving DecidableEq, Repr, Inhabited

namespace Link

variable {κ κ' : Type}

/-- A link labelled after its event and its reaction. -/
def new (event : String) (condition : Condition κ) (reaction : Reaction κ) : Link κ :=
  { event, condition, reaction, label := event ++ ":" ++ reaction.tag }

/-- Does the cooldown keep the link from reacting at `turn`? -/
def onCooldown (l : Link κ) (turn : UInt64) : Bool :=
  match l.cooldown, l.lastFired with
  | some cooldown, some last => turn.toNat - last.toNat < cooldown.toNat
  | _, _ => false

/-- Is the link a saving throw? Then who passes its skill check is spared its damage. -/
def isSavingThrow (l : Link κ) : Bool :=
  l.condition.isSkillCheck && l.reaction.isDamage

/-- Evaluates the condition of the link on a payload, and tells whether the link reacts. -/
def admits {σ : Type} (test : κ → Payload → σ → Bool × σ) (l : Link κ) (p : Payload) (r : Roller)
    (host : σ) : Bool × Roller × σ :=
  let (holds, r, host) := l.condition.evaluate test p r host
  (holds != l.isSavingThrow, r, host)

/-- The link with a fire recorded for a turn, if there is one. -/
def recordFire (l : Link κ) (turn : Option UInt64) : Link κ :=
  { l with lastFired := turn <|> l.lastFired }

/-- Replaces the code behind the names. -/
def mapCode (f : κ → κ') (l : Link κ) : Link κ' where
  event := l.event
  condition := l.condition.mapCode f
  reaction := l.reaction.mapCode f
  label := l.label
  source := l.source
  cooldown := l.cooldown
  lastFired := l.lastFired

end Link

/-- A chain of links, never empty. -/
structure Trigger (κ : Type) where
  head : Link κ
  rest : List (Link κ) := []
  deriving DecidableEq, Repr, Inhabited

namespace Trigger

variable {κ κ' : Type}

/-- A trigger of one link. -/
def new (event : String) (condition : Condition κ) (reaction : Reaction κ) : Trigger κ :=
  ⟨.new event condition reaction, []⟩

/-- The links, first to last. -/
def links (t : Trigger κ) : List (Link κ) :=
  t.head :: t.rest

/-- The number of links. -/
def length (t : Trigger κ) : Nat :=
  t.rest.length + 1

/-- The event that the trigger listens to. -/
def event (t : Trigger κ) : String :=
  t.head.event

/-- The name for display. -/
def label (t : Trigger κ) : String :=
  t.head.label

/-- The trigger with another label. -/
def withLabel (t : Trigger κ) (label : String) : Trigger κ :=
  { t with head := { t.head with label } }

/-- The trigger with another origin. -/
def withSource (t : Trigger κ) (source : Option String) : Trigger κ :=
  { t with head := { t.head with source } }

/-- The trigger with another cooldown. -/
def withCooldown (t : Trigger κ) (cooldown : Option UInt64) : Trigger κ :=
  { t with head := { t.head with cooldown } }

/-- The trigger's first link followed by another trigger, in place of what followed it. -/
def andThen (t : Trigger κ) (next : Trigger κ) : Trigger κ :=
  ⟨t.head, next.links⟩

/-- Replaces the code behind the names. -/
def mapCode (f : κ → κ') (t : Trigger κ) : Trigger κ' :=
  ⟨t.head.mapCode f, t.rest.map (·.mapCode f)⟩

/-- Do both agree in all but the code behind the names? -/
def sameRecord (a b : Trigger κ) : Bool :=
  a.mapCode (fun _ => ()) = b.mapCode (fun _ => ())

end Trigger

end Encounter
