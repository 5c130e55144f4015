/-!
# Decimal numbers in text

Numbers are written in ASCII digits. A reader takes a whole text and the largest number that it
may hold.

* `natOfDigits`: the value of a run of digits.
* `readNat?`: an unsigned number up to a limit, with an optional plus sign.
* `readInt?`: a signed number in a range that is one longer below zero than above.
-/

namespace Heartbeat.Text

/-- Whether a character is one of the ten ASCII digits. -/
def isDigit (c : Char) : Bool := '0' ≤ c && c ≤ '9'

/-- Whether a character is an ASCII letter or digit or the underscore. -/
def isNameChar (c : Char) : Bool :=
  isDigit c || ('a' ≤ c && c ≤ 'z') || ('A' ≤ c && c ≤ 'Z') || c == '_'

/-- The value of a digit. -/
def digitValue (c : Char) : Nat := c.toNat - '0'.toNat

/-- The value of a run of digits, most significant first. -/
def natOfDigits (digits : List Char) : Nat :=
  digits.foldl (fun n c => 10 * n + digitValue c) 0

/-- The value of a text that is a nonempty run of digits. -/
def digits? (s : List Char) : Option Nat :=
  if s ≠ [] ∧ s.all isDigit then some (natOfDigits s) else none

/-- An unsigned number of at most `limit`; one plus sign may stand before the digits. -/
def readNat? (limit : Nat) (s : List Char) : Option Nat :=
  let n? := match s with
    | '+' :: rest => digits? rest
    | _ => digits? s
  n?.filter (· ≤ limit)

/-- A signed number from `-limit - 1` to `limit`; one sign may stand before the digits. -/
def readInt? (limit : Nat) (s : List Char) : Option Int :=
  match s with
  | '-' :: rest => ((digits? rest).filter (· ≤ limit + 1)).map fun n => -(n : Int)
  | _ => (readNat? limit s).map Int.ofNat

/-- The largest number of 32 bits. -/
def maxWord32 : Nat := 4294967295

/-- The largest number of 64 bits. -/
def maxWord64 : Nat := 18446744073709551615

/-- The largest signed number of 64 bits. -/
def maxInt64 : Nat := 9223372036854775807

end Heartbeat.Text
