/-!
# Agendas

An agenda keeps what is to happen on later turns, in the order in which it was put down. Dispatching
a turn takes out what is due: under `exactTurn` what was put down for that very turn, and what was
put down for a turn already gone is dropped; under `atOrBefore` everything up to that turn.
-/

set_option autoImplicit false

namespace Encounter

/-- Which entries a dispatch takes. -/
inductive DuePolicy where
  | exactTurn
  | atOrBefore
  deriving DecidableEq, Repr, Inhabited

/-- Is an entry for `turn` due at `now`? -/
def DuePolicy.isDue (policy : DuePolicy) (turn now : UInt64) : Bool :=
  match policy with
  | .exactTurn => turn = now
  | .atOrBefore => turn ≤ now

/-- Something put down for a turn. -/
structure AgendaEntry (α : Type) where
  turn : UInt64
  item : α
  deriving DecidableEq, Repr

/-- Entries for later turns, in the order in which they were put down. -/
structure Agenda (α : Type) where
  policy : DuePolicy
  entries : List (AgendaEntry α)
  deriving DecidableEq, Repr

namespace Agenda

variable {α : Type}

/-- An agenda without entries. -/
def empty (policy : DuePolicy) : Agenda α :=
  ⟨policy, []⟩

instance : Inhabited (Agenda α) := ⟨empty default⟩

/-- Puts an item down for a turn. -/
def push (a : Agenda α) (turn : UInt64) (item : α) : Agenda α :=
  { a with entries := a.entries ++ [⟨turn, item⟩] }

/-- Is the entry taken by a dispatch at `now`? -/
def isDue (a : Agenda α) (now : UInt64) (entry : AgendaEntry α) : Bool :=
  a.policy.isDue entry.turn now

/-- Does the entry stay after a dispatch at `now`? One that is neither due nor ahead is dropped. -/
def isPending (a : Agenda α) (now : UInt64) (entry : AgendaEntry α) : Bool :=
  !a.isDue now entry && now ≤ entry.turn

/-- Takes out the entries due at `now`, in the order in which they were put down. -/
def takeDue (a : Agenda α) (now : UInt64) : List (AgendaEntry α) × Agenda α :=
  (a.entries.filter (a.isDue now), { a with entries := a.entries.filter (a.isPending now) })

/-- The number of entries. -/
def size (a : Agenda α) : Nat :=
  a.entries.length

/-- Inserts a turn into a strictly ascending list. -/
def insertTurn (turn : UInt64) : List UInt64 → List UInt64
  | [] => [turn]
  | t :: rest =>
    if turn < t then turn :: t :: rest
    else if turn = t then t :: rest
    else t :: insertTurn turn rest

/-- The turns that have an entry, each once, ascending. -/
def turns (a : Agenda α) : List UInt64 :=
  (a.entries.map (·.turn)).foldr insertTurn []

/-- Drops every entry. -/
def clear (a : Agenda α) : Agenda α :=
  { a with entries := [] }

end Agenda

end Encounter
