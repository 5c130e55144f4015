/-!
# Sets of characters given as ranges of code points

A `CodeRanges` lists closed ranges of code points in ascending order, none touching the next.
The tables of character properties are values of this type.

* `CodeRanges.contains`: whether a character lies in one of the ranges.
-/

namespace Heartbeat.Text

/-- Closed ranges of code points, in ascending order. -/
abbrev CodeRanges := List (Nat × Nat)

/-- The search stops at the first range that begins beyond the character. -/
def CodeRanges.containsCode : CodeRanges → Nat → Bool
  | [], _ => false
  | (first, last) :: rest, code =>
    if code < first then false
    else if code ≤ last then true
    else containsCode rest code

/-- Whether the character lies in one of the ranges. -/
def CodeRanges.contains (ranges : CodeRanges) (c : Char) : Bool :=
  ranges.containsCode c.toNat

end Heartbeat.Text
