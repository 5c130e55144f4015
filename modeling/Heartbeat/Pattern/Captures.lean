import Heartbeat.Pattern.Basic
import Heartbeat.Text.Blank

/-!
# Matching a line

A pattern matches a line when the line is its segments put together, with some text in each gap.
Among all ways to fill the gaps the one is taken whose first gap is shortest, among those the one
whose second gap is shortest, and so on.

* `fit`: fills the gaps of a list of segments.
* `Pattern.captures?`: the captured texts of a line, in pattern order.
* `Captures.get?`, `Captures.values`: reading captures.

The search never tries an earlier gap again once a later gap could not be filled: what a later gap
finds nowhere in the rest of the line, it finds nowhere in a shorter rest.
-/

namespace Heartbeat

open Heartbeat.Text

/-- Captured texts with the names of their captures, in pattern order (`CapturedArgs`). -/
abbrev Captures := List (String × String)

namespace Captures

/-- The text captured under a name (`CapturedArgs.get`). -/
def get? (captures : Captures) (name : String) : Option String :=
  (captures.find? (·.1 == name)).map Prod.snd

/-- The captured texts, in pattern order (`CapturedArgs.values`). -/
def values (captures : Captures) : List String := captures.map Prod.snd

end Captures

/-- The result of trying segments at one place of a line. -/
inductive Fit where
  /-- The texts that fill the gaps, in order. -/
  | found (values : List (List Char))
  /-- The segments do not fit here; they may fit further on. -/
  | mismatch
  /-- The segments fit neither here nor anywhere further on. -/
  | hopeless
deriving Repr, DecidableEq

namespace Fit

/-- The result with an empty text in one more gap in front. -/
def openGap : Fit → Fit
  | .found values => .found ([] :: values)
  | other => other

/-- The result with one more character in the first gap. -/
def growGap (c : Char) : Fit → Fit
  | .found values => .found (consFirst c values)
  | other => other

/-- The texts that fill the gaps, if the segments fit. -/
def values? : Fit → Option (List (List Char))
  | .found values => some values
  | _ => none

end Fit

/-- Fills a gap with the shortest text after which the rest fits. -/
def shortestGap (rest : List Char → Fit) : List Char → Fit
  | [] =>
    match rest [] with
    | .mismatch => .hopeless
    | here => here.openGap
  | c :: s =>
    match rest (c :: s) with
    | .mismatch => (shortestGap rest s).growGap c
    | here => here.openGap

/-- Fits segments to a whole text. -/
def fit : List Segment → List Char → Fit
  | [], s => if s = [] then .found [] else .mismatch
  | .literal text :: segments, s =>
    match text.isPrefixOf? s with
    | some rest => fit segments rest
    | none => .mismatch
  | .gap _ :: segments, s => shortestGap (fit segments) s

/-- The texts that fill the gaps, with the names of their segments. -/
def captured : List Segment → List (List Char) → Captures
  | .literal _ :: segments, values => captured segments values
  | .gap (some name) :: segments, value :: values =>
    (name, String.ofList value) :: captured segments values
  | .gap none :: segments, _ :: values => captured segments values
  | _, _ => []

/-- The captured texts of a line that the pattern matches (`CompiledPattern.captures`). -/
def Pattern.captures? (p : Pattern) (line : String) : Option Captures :=
  (fit p.segments line.toList).values?.map (captured p.segments)

/-- Whether the pattern matches a line. -/
def Pattern.isMatch (p : Pattern) (line : String) : Bool :=
  (fit p.segments line.toList).values?.isSome

end Heartbeat
