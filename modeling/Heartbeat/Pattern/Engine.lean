import Heartbeat.Pattern.Basic

/-!
# Pattern engines

Lines are matched by an engine for regular expressions, which is not part of the program. A pattern
is handed to it as an expression for the whole line. The engine may turn an expression down, for its
size say, and it may decline to make an index over many of them. Which expressions these are depends
on the engine, so that what is said of patterns is said for every engine.

* `PatternEngine`: what the program asks of an engine.
* `PatternEngine.expression`: the expression for the segments of a pattern.
* `PatternEngine.boundless`: an engine that takes every expression.
-/

namespace Heartbeat

/-- What the program asks of an engine for regular expressions. -/
structure PatternEngine where
  /-- An expression that matches a fixed text only: `escape`. -/
  escape : String → String
  /-- What is said of an expression that is turned down: the error of `Regex::new`. -/
  refusal? : String → Option String
  /-- Whether an index over expressions is made: the success of `RegexSet::new`. -/
  indexes : List String → Bool

namespace PatternEngine

/-- The expression for one segment, as `flush_literal` and `push_capture` write it. -/
def segmentExpression (engine : PatternEngine) : Segment → String
  | .literal text => engine.escape (String.ofList text)
  | .gap none => "(?:.*?)"
  | .gap (some _) => "(.*?)"

/-- The expression for segments that make up a whole line, in which a gap may hold line breaks
(`CompiledPattern.compile`). -/
def expression (engine : PatternEngine) (segments : List Segment) : String :=
  "(?s)^" ++ String.join (segments.map engine.segmentExpression) ++ "$"

/-- The engine takes a pattern with these segments. -/
def Takes (engine : PatternEngine) (segments : List Segment) : Prop :=
  engine.refusal? (engine.expression segments) = none

/-- The characters that stand for something else in an expression. -/
def metaCharacters : List Char :=
  ['\\', '.', '+', '*', '?', '(', ')', '|', '[', ']', '\x7b', '\x7d', '^', '$', '#', '&', '-', '~']

/-- A text with a backslash in front of what would stand for something else. -/
def escaped (text : String) : String :=
  String.ofList (text.toList.flatMap fun c => if c ∈ metaCharacters then ['\\', c] else [c])

/-- An engine that takes every expression. -/
def boundless : PatternEngine := ⟨escaped, fun _ => none, fun _ => true⟩

end PatternEngine

end Heartbeat
