import Encounter.Payload

/-!
# Reactions

A reaction is what a trigger does once its condition holds. Besides the built-in ones there are
named functions; `κ` is the type of whatever stands for the code behind a name.
-/

set_option autoImplicit false

namespace Encounter

/-- An effect of a trigger. -/
inductive Reaction (κ : Type) where
  /-- Damages the payload's target. -/
  | damage (type : String) (amount : Int64)
  /-- Brings a message to the gamemaster's attention. -/
  | alert (message : String)
  /-- Plays a sound. -/
  | sound (file : String)
  /-- Emits an event with a copy of the payload some turns later. -/
  | schedule (turns : UInt64) (event : String)
  /-- Runs a named function. -/
  | function (name : String) (code : κ)
  deriving DecidableEq, Repr, Inhabited

namespace Reaction

variable {κ κ' : Type}

/-- The name of the kind of reaction in records and labels. -/
def tag : Reaction κ → String
  | damage _ _ => "ApplyDamage"
  | alert _ => "AlertGamemaster"
  | sound _ => "PlaySound"
  | schedule _ _ => "ScheduleEvent"
  | function _ _ => "function"

/-- Does the reaction deal damage? -/
def isDamage : Reaction κ → Bool
  | damage _ _ => true
  | _ => false

/-- Replaces the code behind a name. -/
def mapCode (f : κ → κ') : Reaction κ → Reaction κ'
  | damage type amount => damage type amount
  | alert message => alert message
  | sound file => sound file
  | schedule turns event => schedule turns event
  | function name code => function name (f code)

/-- Are both written as one record? The code behind a name does not matter. -/
def sameRecord (a b : Reaction κ) : Bool :=
  a.mapCode (fun _ => ()) = b.mapCode (fun _ => ())

end Reaction

end Encounter
