/-!
# Queues with a limit

A first-in-first-out queue. With a limit, a push onto a full queue drops the oldest entries to make
room, and the queue counts what it dropped.

* `EventQueue.push`, `pop?`, `retain`: the operations.
* `EventQueue.empty`: a queue with an optional limit, which is at least one.
-/

namespace Heartbeat

/-- Entries from the oldest to the newest, the limit on their number, and how many were dropped
because of it. -/
structure EventQueue (α : Type) where
  entries : List α
  limit? : Option Nat
  dropped : Nat
deriving Repr, DecidableEq

namespace EventQueue

variable {α : Type}

/-- The empty queue; a limit of zero counts as one (`EventQueue.new`). -/
def empty (limit? : Option Nat) : EventQueue α := ⟨[], limit?.map (max 1), 0⟩

/-- How many entries have to go before one more fits. -/
def excess (q : EventQueue α) : Nat :=
  match q.limit? with
  | some limit => q.entries.length + 1 - limit
  | none => 0

/-- Adds an entry behind all others, after the oldest ones made room (`EventQueue.push`). -/
def push (q : EventQueue α) (entry : α) : EventQueue α :=
  { q with
    entries := q.entries.drop q.excess ++ [entry]
    dropped := q.dropped + min q.excess q.entries.length }

/-- Adds entries one after another. -/
def pushAll (q : EventQueue α) (entries : List α) : EventQueue α := entries.foldl push q

/-- Takes the oldest entry (`EventQueue.pop`). -/
def pop? (q : EventQueue α) : Option (α × EventQueue α) :=
  match q.entries with
  | [] => none
  | entry :: rest => some (entry, { q with entries := rest })

/-- Keeps the entries that pass a test (`EventQueue.retain`). -/
def retain (q : EventQueue α) (keep : α → Bool) : EventQueue α :=
  { q with entries := q.entries.filter keep }

/-- The number of entries (`EventQueue.len`). -/
def size (q : EventQueue α) : Nat := q.entries.length

/-- Whether there is no entry (`EventQueue.is_empty`). -/
def isEmpty (q : EventQueue α) : Bool := q.entries.isEmpty

end EventQueue

end Heartbeat
