import Heartbeat.Text.Blank
import Heartbeat.Text.Decimal
import Heartbeat.Text.Lowercase

/-!
# Durations

A duration is a number of milliseconds. It is written as a run of ASCII digits and a unit, with
blanks allowed around both: nothing or `ms` for milliseconds, `s`, `m` and `h` for seconds,
minutes and hours, in any case. The digits must fit in 64 bits, and so must the number of whole
seconds that a unit above the millisecond gives.

* `Duration.parse`: reads a duration, or says why it cannot.
* `DurationError.message`: the wording of the reasons.
* `Duration.text`: a duration in seconds with as few decimals as needed, or in milliseconds.
-/

namespace Heartbeat

open Heartbeat.Text

/-- A time or a length of time, in milliseconds. -/
abbrev Millis := Nat

/-- The latest time that a clock shows. -/
def Millis.latest : Millis := maxWord64

/-- The time that a clock shows when some time has passed; behind the latest time it starts over
(`ManualClock.advance`). -/
def Millis.advance (now passed : Millis) : Millis := (now + passed) % (maxWord64 + 1)

/-- The end of a wait that starts at a time: it stays at the latest time if it would pass it. -/
def Millis.after (start wait : Millis) : Millis := min (start + wait) Millis.latest

/-- Why a text is no duration (`parse_duration`). -/
inductive DurationError where
  /-- There is nothing but blanks. -/
  | empty
  /-- The text does not start with a digit. -/
  | noNumber (text : String)
  /-- The digits do not fit in 64 bits. -/
  | numberTooLarge (digits : String)
  /-- The seconds do not fit in 64 bits. -/
  | tooLarge (text : String)
  /-- The unit is not known; it is kept in lower case. -/
  | unknownUnit (unit : String)
deriving Repr, DecidableEq

/-- The wording of the reason. -/
def DurationError.message : DurationError → String
  | .empty => "empty duration string"
  | .noNumber text => s!"duration '{text}' must start with a number"
  | .numberTooLarge digits =>
    s!"invalid duration number '{digits}': number too large to fit in target type"
  | .tooLarge text => s!"duration '{text}' is too large"
  | .unknownUnit unit => s!"unsupported duration unit '{unit}'; expected ms, s, m, or h"

/-- The units of a duration. -/
inductive DurationUnit where
  | millisecond
  | second
  | minute
  | hour
deriving Repr, DecidableEq

/-- The whole seconds in a unit; a millisecond has none. -/
def DurationUnit.seconds : DurationUnit → Nat
  | .millisecond => 0
  | .second => 1
  | .minute => 60
  | .hour => 3600

/-- The milliseconds in a unit. -/
def DurationUnit.millis : DurationUnit → Millis
  | .millisecond => 1
  | unit => 1000 * unit.seconds

/-- The unit that a lower-case text names. -/
def DurationUnit.ofText? (unit : List Char) : Option DurationUnit :=
  if unit = [] ∨ unit = ['m', 's'] then some .millisecond
  else if unit = ['s'] then some .second
  else if unit = ['m'] then some .minute
  else if unit = ['h'] then some .hour
  else none

namespace Duration

/-- The duration of a text that is made of digits and a rest. -/
def ofParts (s digits rest : List Char) : Except DurationError Millis :=
  if digits = [] then .error (.noNumber (String.ofList s))
  else
    let n := natOfDigits digits
    if maxWord64 < n then .error (.numberTooLarge (String.ofList digits))
    else
      let unit := lower (trim rest)
      match DurationUnit.ofText? unit with
      | none => .error (.unknownUnit (String.ofList unit))
      | some unit =>
        if maxWord64 < n * unit.seconds then .error (.tooLarge (String.ofList s))
        else .ok (n * unit.millis)

/-- Reads a duration from a text without blanks at its ends. -/
def parseTrimmed (s : List Char) : Except DurationError Millis :=
  if s = [] then .error .empty
  else ofParts s (s.takeWhile isDigit) (s.dropWhile isDigit)

/-- Reads a duration (`parse_duration`). -/
def parse (text : String) : Except DurationError Millis := parseTrimmed (trim text.toList)

/-- The whole seconds of a duration. -/
def seconds (d : Millis) : Nat := d / 1000

/-- The milliseconds of a duration beyond its whole seconds. -/
def subsecond (d : Millis) : Millis := d % 1000

/-- A thousandth as three digits, without the zeros at its end. -/
def thousandths (n : Nat) : List Char :=
  let digits := Nat.toDigits 10 n
  let padded := List.replicate (3 - digits.length) '0' ++ digits
  (padded.reverse.dropWhile (· == '0')).reverse

/-- A duration as a reader sees it: in seconds from one second on, in milliseconds below, and no
time at all as `0ns` (`print_dry_run`). -/
def text (d : Millis) : String :=
  if d = 0 then "0ns"
  else if d < 1000 then s!"{d}ms"
  else if subsecond d = 0 then s!"{seconds d}s"
  else s!"{seconds d}.{String.ofList (thousandths (subsecond d))}s"

end Duration

end Heartbeat
