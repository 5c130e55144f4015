import Heartbeat.Text.Decimal

/-!
# TOML dates and times

A date is `YYYY-MM-DD`, a time `HH:MM`, or `HH:MM:SS` with an optional fraction. Together they stand
with `T`, `t` or a space between them, and then `Z`, `z` or an offset `+HH:MM` may follow.

* `isDate`, `isTime`: the parts.
* `isMoment`: a date, a time, or both.
-/

namespace Heartbeat.Toml.Moment

open Heartbeat.Text

/-- The number of two digits, if it lies in a range. -/
def pairIn (low high : Nat) (a b : Char) : Bool :=
  isDigit a && isDigit b && low ≤ natOfDigits [a, b] && natOfDigits [a, b] ≤ high

/-- The days of a month. -/
def daysOf (year month : Nat) : Nat :=
  if month = 2 then
    if year % 4 = 0 ∧ (year % 100 ≠ 0 ∨ year % 400 = 0) then 29 else 28
  else if month = 4 ∨ month = 6 ∨ month = 9 ∨ month = 11 then 30
  else 31

/-- Whether a text is a date that the calendar has. -/
def isDate : List Char → Bool
  | [y1, y2, y3, y4, '-', m1, m2, '-', d1, d2] =>
    [y1, y2, y3, y4].all isDigit && pairIn 1 12 m1 m2 &&
      pairIn 1 (daysOf (natOfDigits [y1, y2, y3, y4]) (natOfDigits [m1, m2])) d1 d2
  | _ => false

/-- Whether a text is a fraction of a second with its point, or empty. -/
def isFraction : List Char → Bool
  | [] => true
  | '.' :: s => (digits? s).isSome
  | _ => false

/-- Whether a text is the seconds of a time with their colon, or empty. -/
def isSeconds : List Char → Bool
  | [] => true
  | ':' :: s1 :: s2 :: s => pairIn 0 60 s1 s2 && isFraction s
  | _ => false

/-- Whether a text is a time of day. -/
def isTime : List Char → Bool
  | h1 :: h2 :: ':' :: m1 :: m2 :: s => pairIn 0 23 h1 h2 && pairIn 0 59 m1 m2 && isSeconds s
  | _ => false

/-- Whether a text is an offset from the universal time, or empty. -/
def isOffset : List Char → Bool
  | [] => true
  | ['Z'] => true
  | ['z'] => true
  | [sign, h1, h2, ':', m1, m2] =>
    (sign == '+' || sign == '-') && pairIn 0 23 h1 h2 && pairIn 0 59 m1 m2
  | _ => false

/-- Whether a character may stand between a date and a time. -/
def isSeparator (c : Char) : Bool := c == 'T' || c == 't' || c == ' '

/-- Whether a character may stand in a time of day. -/
def isTimeChar (c : Char) : Bool := isDigit c || c == ':' || c == '.'

/-- Whether a text is a date, a time, or both. -/
def isMoment (s : List Char) : Bool :=
  isTime s || isDate s ||
    (isDate (s.take 10) &&
      match s.drop 10 with
      | [] => false
      | c :: time =>
        isSeparator c && isTime (time.takeWhile isTimeChar) && isOffset (time.dropWhile isTimeChar))

end Heartbeat.Toml.Moment
