/-!
# Line patterns

A pattern describes a whole line as a sequence of segments: fixed texts, and gaps that any text may
fill. A named gap captures the text that fills it.

* `Segment`, `Pattern`: the parts of a pattern, and the pattern with the text it was written as.
* `Pattern.names`: the names of the captures.
-/

namespace Heartbeat

/-- A part of a pattern. -/
inductive Segment where
  /-- A fixed text. -/
  | literal (text : List Char)
  /-- A place that any text may fill, captured under the name if there is one. -/
  | gap (name? : Option String)
deriving Repr, DecidableEq

/-- The name of a capturing segment. -/
def Segment.name? : Segment → Option String
  | .literal _ => none
  | .gap name? => name?

/-- A line pattern: the text it was written as, and its segments (`CompiledPattern`). -/
structure Pattern where
  source : String
  segments : List Segment
deriving Repr, DecidableEq

/-- The names of the captures, in pattern order (`CompiledPattern.capture_names`). -/
def Pattern.names (p : Pattern) : List String := p.segments.filterMap Segment.name?

end Heartbeat
