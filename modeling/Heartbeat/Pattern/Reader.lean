import Heartbeat.Pattern.Engine
import Heartbeat.Text.Decimal
import Heartbeat.Text.Split

/-!
# Reading patterns

Patterns are written as text:

* `#*#` is a gap without a name;
* `#12#`, with any digits, is a gap named by the digits;
* `{name}` is a gap named `name`, in ASCII letters, digits and underscores;
* two braces of a kind stand for one, and every other character stands for itself.

No two gaps have the same name, no pattern is empty, and the engine takes it.

* `Pattern.compile`: reads a pattern, or says why it cannot.
* `PatternFault.reason`: the wording of the reasons.
-/

namespace Heartbeat

open Heartbeat.Text

/-- Why a text is no pattern. -/
inductive PatternFault where
  | empty
  /-- An opening brace without a closing one. -/
  | unterminated
  | emptyName
  /-- A name with other characters than ASCII letters, digits and underscores. -/
  | badName (name : String)
  /-- A closing brace without an opening one. -/
  | unmatched
  /-- A second capture of the same name. -/
  | duplicate (name : String)
  /-- The engine turns the pattern down, and says this. -/
  | refused (reason : String)
deriving Repr, DecidableEq

/-- The wording of the reason. -/
def PatternFault.reason : PatternFault → String
  | .empty => "pattern is empty"
  | .unterminated => "unterminated '\x7b'"
  | .emptyName => "empty capture name"
  | .badName name => s!"bad capture name '{name}'"
  | .unmatched => "unmatched '\x7d'"
  | .duplicate name => s!"duplicate capture '{name}'"
  | .refused reason => reason

/-- A text that is no pattern, and why (`InvalidPattern`). -/
structure PatternError where
  pattern : String
  fault : PatternFault
deriving Repr, DecidableEq

/-- What is said of a text that is no pattern. -/
def PatternError.message (e : PatternError) : String :=
  s!"invalid event pattern '{e.pattern}': {e.fault.reason}"

/-! ## Reading a pattern -/

/-- Puts a character in front of segments: it joins the fixed text that stands first, or becomes a
fixed text of its own. -/
def Segment.consChar (c : Char) : List Segment → List Segment
  | .literal text :: rest => .literal (c :: text) :: rest
  | rest => .literal [c] :: rest

/-- A gap written between hashes: the text right after an opening hash is `*#` or digits and a hash
(`parse_hash_token`). Gives the gap and what follows it. -/
def hashGap? : List Char → Option (Option String × List Char)
  | '*' :: '#' :: rest => some (none, rest)
  | s =>
    match s.dropWhile isDigit with
    | '#' :: rest =>
      if s.takeWhile isDigit = [] then none
      else some (some (String.ofList (s.takeWhile isDigit)), rest)
    | _ => none

/-- What follows a gap between hashes is shorter than what follows its opening hash. -/
theorem length_lt_of_hashGap? {s rest : List Char} {name? : Option String}
    (h : hashGap? s = some (name?, rest)) : rest.length < s.length := by
  unfold hashGap? at h
  split at h
  · simp only [Option.some.injEq, Prod.mk.injEq] at h
    rw [← h.2]
    simp only [List.length_cons]
    omega
  · split at h
    · rename_i after hd
      split at h
      · exact absurd h (by simp)
      · simp only [Option.some.injEq, Prod.mk.injEq] at h
        have hle := length_dropWhile_le isDigit s
        rw [hd, List.length_cons, h.2] at hle
        omega
    · exact absurd h (by simp)

/-- A name for a capture that is not among those seen (`push_capture`). -/
def checkName (seen : List String) (name : List Char) : Except PatternFault String :=
  if name = [] then .error .emptyName
  else if !name.all isNameChar then .error (.badName (String.ofList name))
  else if String.ofList name ∈ seen then .error (.duplicate (String.ofList name))
  else .ok (String.ofList name)

/-- The segments of a pattern's text, read from left to right; `seen` are the names of the captures
before it. -/
def readSegments (seen : List String) (s : List Char) : Except PatternFault (List Segment) :=
  match s with
  | [] => .ok []
  | '{' :: '{' :: rest => (Segment.consChar '{') <$> readSegments seen rest
  | '}' :: '}' :: rest => (Segment.consChar '}') <$> readSegments seen rest
  | '{' :: rest =>
    match h : splitAt? '}' rest with
    | none => .error .unterminated
    | some (text, after) =>
      have : after.length < rest.length := length_lt_of_splitAt? h
      match checkName seen text with
      | .error fault => .error fault
      | .ok name => (Segment.gap (some name) :: ·) <$> readSegments (name :: seen) after
  | '}' :: _ => .error .unmatched
  | '#' :: rest =>
    match h : hashGap? rest with
    | none => (Segment.consChar '#') <$> readSegments seen rest
    | some (none, after) =>
      have : after.length < rest.length := length_lt_of_hashGap? h
      (Segment.gap none :: ·) <$> readSegments seen after
    | some (some name, after) =>
      have : after.length < rest.length := length_lt_of_hashGap? h
      if name ∈ seen then .error (.duplicate name)
      else (Segment.gap (some name) :: ·) <$> readSegments (name :: seen) after
  | c :: rest => (Segment.consChar c) <$> readSegments seen rest
termination_by s.length
decreasing_by all_goals (simp only [List.length_cons]; omega)

/-- Reads a pattern for an engine (`CompiledPattern.compile`). -/
def Pattern.compile (engine : PatternEngine) (source : String) : Except PatternError Pattern :=
  if source = "" then .error ⟨source, .empty⟩
  else match readSegments [] source.toList with
    | .ok segments =>
      match engine.refusal? (engine.expression segments) with
      | none => .ok ⟨source, segments⟩
      | some reason => .error ⟨source, .refused reason⟩
    | .error fault => .error ⟨source, fault⟩

end Heartbeat
