import Encounter.Id
import Encounter.Number.Saturation
import Encounter.Turn.Agenda

/-!
# The turn order

Participants act one after the other, round by round. What is put down for a round happens on the
first dispatch in or after it, so a round that is skipped loses nothing.
-/

set_option autoImplicit false

namespace Encounter

/-- Participants taking turns in rounds. -/
structure TurnOrder (α : Type) where
  participants : List EntityId
  /-- The place of the participant whose turn it is. -/
  index : Nat
  round : UInt64
  agenda : Agenda α
  deriving DecidableEq, Repr, Inhabited

namespace TurnOrder

variable {α : Type}

/-- The first round, with the given participants. -/
def new (participants : List EntityId) : TurnOrder α :=
  ⟨participants, 0, 1, .empty .atOrBefore⟩

/-- Replaces the participants; the first of them acts next. -/
def setParticipants (o : TurnOrder α) (participants : List EntityId) : TurnOrder α :=
  { o with participants, index := 0 }

/-- Drops the first occurrence of a participant. Whoever holds the turn keeps it; if the holder
leaves, the next in line gets it. -/
def remove (o : TurnOrder α) (entity : EntityId) : TurnOrder α :=
  match o.participants.idxOf? entity with
  | none => o
  | some place =>
    let participants := o.participants.eraseIdx place
    let index := if place < o.index then o.index - 1 else o.index
    { o with participants, index := if participants.length ≤ index then 0 else index }

/-- Whose turn it is. -/
def current? (o : TurnOrder α) : Option EntityId :=
  o.participants[o.index]?

/-- Passes the turn to the next participant. -/
def next (o : TurnOrder α) : TurnOrder α :=
  if o.participants.isEmpty then o
  else { o with index := (o.index + 1) % o.participants.length }

/-- Puts an item down for `rounds` rounds after the current one. -/
def schedule (o : TurnOrder α) (rounds : UInt64) (item : α) : TurnOrder α :=
  { o with agenda := o.agenda.push (saturateU64 (o.round.toNat + rounds.toNat)) item }

/-- Takes out what is due in the current round. -/
def takeDue (o : TurnOrder α) : List (AgendaEntry α) × TurnOrder α :=
  let (due, agenda) := o.agenda.takeDue o.round
  (due, { o with agenda })

/-- Starts the next round with the first participant and takes out what is due in it. -/
def startRound (o : TurnOrder α) : List (AgendaEntry α) × TurnOrder α :=
  takeDue { o with round := saturateU64 (o.round.toNat + 1), index := 0 }

end TurnOrder

end Encounter
