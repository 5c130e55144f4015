import Heartbeat.Event.Queue
import Heartbeat.Pattern.Matcher

/-!
# Events of a thread

A thread has named events, each with a pattern and a callback. A line of text is matched against
all of them, and each match waits in a queue until it is handed to the callback.

* `EventProcessor.register`: adds an event, or puts it in the place of the one of its name, whose
  waiting matches are discarded.
* `EventProcessor.unregister`: removes an event and its waiting matches.
* `EventProcessor.feed`: queues the matches of a line in the order of the events.
* `EventProcessor.pop?`: takes the oldest waiting match.

A callback is a value of a type `κ` of the script's choice.
-/

namespace Heartbeat

/-- A named event: the pattern that triggers it and the callback that its matches are for. -/
structure EventDefinition (κ : Type) where
  name : String
  pattern : Pattern
  callback : κ
deriving Repr, DecidableEq

/-- A match that waits for its callback. -/
structure PendingEvent (κ : Type) where
  definition : EventDefinition κ
  captures : Captures
deriving Repr, DecidableEq

/-- The name of the event that was matched. -/
def PendingEvent.name {κ : Type} (p : PendingEvent κ) : String := p.definition.name

/-- Events in order of registration, their patterns in the same order, and the waiting matches. -/
structure EventProcessor (κ : Type) where
  definitions : List (EventDefinition κ)
  matcher : PatternMatcher
  queue : EventQueue (PendingEvent κ)

namespace EventProcessor

variable {κ : Type}

/-- No events, and a queue with an optional limit (`EventProcessor.new`). -/
def empty (limit? : Option Nat) : EventProcessor κ := ⟨[], {}, .empty limit?⟩

/-- The position of the event of a name (`EventProcessor.position`). -/
def position? (p : EventProcessor κ) (name : String) : Option Nat :=
  p.definitions.findIdx? (·.name == name)

/-- The waiting matches of all events but one. -/
def discard (p : EventProcessor κ) (name : String) : EventQueue (PendingEvent κ) :=
  p.queue.retain (·.name != name)

/-- Adds an event with a pattern that was read before. -/
def define (p : EventProcessor κ) (definition : EventDefinition κ) : EventProcessor κ :=
  match p.position? definition.name with
  | some index =>
    { definitions := p.definitions.set index definition
      matcher := p.matcher.replace index definition.pattern
      queue := p.discard definition.name }
  | none =>
    { p with
      definitions := p.definitions ++ [definition]
      matcher := p.matcher.push definition.pattern }

/-- Adds an event, or puts it in the place of the one of its name (`EventProcessor.register`). -/
def register (p : EventProcessor κ) (engine : PatternEngine) (name pattern : String)
    (callback : κ) : Except PatternError (EventProcessor κ) :=
  (Pattern.compile engine pattern).map fun compiled => p.define ⟨name, compiled, callback⟩

/-- Removes an event and its waiting matches; says whether there was one of this name
(`EventProcessor.unregister`). -/
def unregister (p : EventProcessor κ) (name : String) : Bool × EventProcessor κ :=
  match p.position? name with
  | some index =>
    (true,
      { definitions := p.definitions.eraseIdx index
        matcher := (p.matcher.remove index).2
        queue := p.discard name })
  | none => (false, p)

/-- The match that a hit of the matcher stands for. -/
def pendingOf (definitions : List (EventDefinition κ)) (hit : Nat × Captures) :
    Option (PendingEvent κ) :=
  definitions[hit.1]?.map fun definition => ⟨definition, hit.2⟩

/-- Queues the matches of a line in the order of the events, and counts them
(`EventProcessor.feed`). -/
def feed (p : EventProcessor κ) (engine : PatternEngine) (line : String) :
    Nat × EventProcessor κ :=
  let (hits, matcher) := p.matcher.matchLine engine line
  let found := hits.filterMap (pendingOf p.definitions)
  (found.length, { p with matcher := matcher, queue := p.queue.pushAll found })

/-- Takes the oldest waiting match (`EventProcessor.pop`). -/
def pop? (p : EventProcessor κ) : Option (PendingEvent κ × EventProcessor κ) :=
  p.queue.pop?.map fun (entry, queue) => (entry, { p with queue := queue })

/-- The number of waiting matches (`EventProcessor.pending`). -/
def pending (p : EventProcessor κ) : Nat := p.queue.size

/-- The number of matches that were dropped for the limit of the queue (`EventProcessor.dropped`).
-/
def dropped (p : EventProcessor κ) : Nat := p.queue.dropped

/-- Whether there is an event of a name (`EventProcessor.is_registered`). -/
def isRegistered (p : EventProcessor κ) (name : String) : Bool := (p.position? name).isSome

/-- The names of the events, in order (`EventProcessor.names`). -/
def names (p : EventProcessor κ) : List String := p.definitions.map (·.name)

/-- The number of events (`EventProcessor.len`). -/
def size (p : EventProcessor κ) : Nat := p.definitions.length

end EventProcessor

end Heartbeat
