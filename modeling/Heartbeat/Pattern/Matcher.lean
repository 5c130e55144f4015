import Heartbeat.Pattern.Captures
import Heartbeat.Pattern.Reader

/-!
# Many patterns at once

A `PatternMatcher` is a list of patterns matched together against a line. The candidates are found
with a `PatternSet`, an index over the patterns that is made anew when a line comes after a change.
If the engine makes no index over the patterns, every pattern is a candidate.

* `PatternMatcher.push`, `replace`, `remove`: changes to the list.
* `PatternMatcher.matchLine`: the positions and captures of the patterns that match a line.
-/

namespace Heartbeat

/-- An index over patterns (`RegexSet`). -/
structure PatternSet where
  members : List Pattern
deriving Repr, DecidableEq

namespace PatternSet

/-- The index over patterns, if the engine makes one (`RegexSet.new`). -/
def ofList? (engine : PatternEngine) (patterns : List Pattern) : Option PatternSet :=
  if engine.indexes (patterns.map fun p => engine.expression p.segments) then some ⟨patterns⟩
  else none

/-- The positions from `start` on of the patterns that match a line. -/
def hitsFrom (line : String) : Nat → List Pattern → List Nat
  | _, [] => []
  | start, p :: patterns =>
    if p.isMatch line then start :: hitsFrom line (start + 1) patterns
    else hitsFrom line (start + 1) patterns

/-- The positions of the members that match a line, in ascending order (`RegexSet.matches`). -/
def hits (set : PatternSet) (line : String) : List Nat := hitsFrom line 0 set.members

end PatternSet

/-- Patterns in order, the index over them, and whether they changed since it was made. -/
structure PatternMatcher where
  patterns : List Pattern := []
  set? : Option PatternSet := none
  stale : Bool := false
deriving Repr, DecidableEq

namespace PatternMatcher

/-- Adds a pattern at the end (`PatternMatcher.push`). -/
def push (m : PatternMatcher) (p : Pattern) : PatternMatcher :=
  { m with patterns := m.patterns ++ [p], stale := true }

/-- Puts a pattern in the place of the one at a position; beyond the end nothing changes
(`PatternMatcher.replace`). -/
def replace (m : PatternMatcher) (index : Nat) (p : Pattern) : PatternMatcher :=
  if index < m.patterns.length then
    { m with patterns := m.patterns.set index p, stale := true }
  else m

/-- Removes the pattern at a position and gives it back (`PatternMatcher.remove`). -/
def remove (m : PatternMatcher) (index : Nat) : Option Pattern × PatternMatcher :=
  match m.patterns[index]? with
  | some p => (some p, { m with patterns := m.patterns.eraseIdx index, stale := true })
  | none => (none, m)

/-- Makes the index anew if the patterns changed since it was made (`rebuild_if_dirty`). -/
def refresh (m : PatternMatcher) (engine : PatternEngine) : PatternMatcher :=
  if m.stale then { m with set? := PatternSet.ofList? engine m.patterns, stale := false } else m

/-- The positions of the patterns to try on a line. -/
def candidates (m : PatternMatcher) (line : String) : List Nat :=
  match m.set? with
  | some set => set.hits line
  | none => List.range m.patterns.length

/-- The pattern at a position with what it captures of a line. -/
def tryAt (m : PatternMatcher) (line : String) (index : Nat) : Option (Nat × Captures) :=
  m.patterns[index]? >>= fun p => (p.captures? line).map fun captures => (index, captures)

/-- The positions and captures of the patterns that match a line, in order
(`PatternMatcher.matches`). -/
def matchLine (m : PatternMatcher) (engine : PatternEngine) (line : String) :
    List (Nat × Captures) × PatternMatcher :=
  if m.patterns.isEmpty then ([], m)
  else
    let m := m.refresh engine
    ((m.candidates line).filterMap (m.tryAt line), m)

end PatternMatcher

end Heartbeat
