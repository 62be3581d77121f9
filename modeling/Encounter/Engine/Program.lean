import Encounter.Audio
import Encounter.Engine.Change

/-!
# Programs and hosts

A program is a sequence of operations on an engine, each chosen by the answers to the ones before
it. A host supplies what the engine has no code for: the programs behind the names of code, and the
collaborators at the table. Its own state has a type `σ`.
-/

set_option autoImplicit false

namespace Encounter

/-- What became of serving somebody: the payload as it was left, and whether that failed. -/
structure Delivery where
  payload : Payload
  outcome : Except Failure Unit

/-- The delivery of a payload to somebody who does nothing with it. -/
def Delivery.untouched (payload : Payload) : Delivery :=
  ⟨payload, .ok ()⟩

/-- An operation that is answered with an `α`. -/
inductive Operation (κ σ : Type) : Type → Type 1 where
  /-- Looks at the engine. -/
  | look : Operation κ σ (Engine κ)
  /-- Looks at the state of the host. -/
  | recall : Operation κ σ σ
  /-- Replaces the state of the host. -/
  | remember (host : σ) : Operation κ σ Unit
  /-- Changes the engine. -/
  | change {α : Type} (change : Change κ α) : Operation κ σ α
  /-- Emits an event. -/
  | emit (event : String) (payload : Payload) : Operation κ σ Delivery
  /-- Fires a trigger. -/
  | fire (trigger : TriggerId) (payload : Payload) : Operation κ σ Delivery
  /-- Goes to the next turn of the clock, and does what is due there. -/
  | nextTurn : Operation κ σ (Except Failure UInt64)
  /-- Starts the next round of the turn order, and does what is due there. -/
  | startRound : Operation κ σ (Except Failure UInt64)
  /-- Plays the turn of the current participant, and passes the turn on. -/
  | playTurn : Operation κ σ (Except Failure TurnOutcome)
  /-- Settles the interruptions that wait, and counts those that succeeded. -/
  | settle : Operation κ σ Nat
  /-- Alerts the gamemaster, if there is one. -/
  | alert (message : String) : Operation κ σ Bool
  /-- Plays a sound. -/
  | play (file : String) : Operation κ σ (Except AudioError Unit)
  /-- Stops the sounds. -/
  | silence : Operation κ σ Unit

/-- A sequence of operations that ends with an `α`. -/
inductive Program (κ σ : Type) (α : Type) : Type 1 where
  | done (result : α)
  | perform {β : Type} (operation : Operation κ σ β) (next : β → Program κ σ α)

namespace Program

variable {κ σ α β : Type}

/-- One program after another. -/
def andThen : Program κ σ α → (α → Program κ σ β) → Program κ σ β
  | done a, f => f a
  | perform operation next, f => perform operation fun b => (next b).andThen f

instance : Monad (Program κ σ) where
  pure := done
  bind := andThen

/-- The program of one operation. -/
def ofOperation (operation : Operation κ σ α) : Program κ σ α :=
  perform operation done

/-- The program that looks at the engine. -/
def look (view : Engine κ → α) : Program κ σ α :=
  perform .look fun e => done (view e)

/-- The program of one change. -/
def change (c : Change κ α) : Program κ σ α :=
  perform (.change c) done

/-- The program that updates the state of the host. -/
def consult (f : σ → α × σ) : Program κ σ α :=
  perform .recall fun s => perform (.remember (f s).2) fun () => done (f s).1

end Program

/-- What an engine has no code for. -/
structure Host (κ σ : Type) where
  /-- The predicate behind a named condition. -/
  holds : κ → Payload → σ → Bool × σ
  /-- The program of a handler, a named reaction, a task, a custom interruption or a custom action.
  It serves a payload; that of an interruption or an action is empty. -/
  behaviour : κ → Payload → Program κ σ Delivery
  /-- What an actor decides to do for an entity. -/
  decide : κ → EntityId → Engine κ → σ → Option (Action κ) × σ
  /-- Why a custom action cannot be carried out, if so. -/
  objection : κ → Engine κ → Option String
  /-- The description of a custom action or interruption. -/
  describe : κ → String
  /-- The gamemaster gets a message. -/
  alerted : String → σ → σ
  /-- The audio output plays a sound. -/
  play : String → σ → Except AudioError Unit × σ
  /-- The audio output stops. -/
  silence : σ → σ

end Encounter
