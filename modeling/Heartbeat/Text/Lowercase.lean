import Heartbeat.Text.Lowercase.Table

/-!
# Lower case

`lower` gives the full lower-case form of a text as Unicode defines it without a language: each
character by its own mapping, and a capital sigma by its place, as `ς` at the end of a word and as
`σ` elsewhere. A word ends at a sigma when, apart from characters with the property
`Case_Ignorable`, a cased character stands before it and none follows.

* `lower`: the lower-case form of a text.
* `eqIgnoringCase`: equality up to the case of ASCII letters.
-/

namespace Heartbeat.Text

/-- The lower-case form of one character, the capital sigma taken as inside a word. -/
def lowerChar (c : Char) : List Char :=
  if c.toNat < 0x80 then
    [if 'A' ≤ c && c ≤ 'Z' then Char.ofNat (c.toNat + 32) else c]
  else if c.toNat == 0x130 then ['i', '\u0307']
  else match lowerRuns.findSome? (LowerRun.lower? · c.toNat) with
    | some code => [Char.ofNat code]
    | none => [c]

/-- Whether a character is `Case_Ignorable`. -/
def isCaseIgnorable (c : Char) : Bool := ignorableRanges.contains c

/-- Whether a character is cased and not `Case_Ignorable`. -/
def isCased (c : Char) : Bool := casedRanges.contains c

/-- Whether the first character that is not `Case_Ignorable` is cased. -/
def startsCased : List Char → Bool
  | [] => false
  | c :: s => if isCaseIgnorable c then startsCased s else isCased c

/-- The lower-case form of what follows in a text. The flag says whether the last character before
it that is not `Case_Ignorable` is cased. -/
def lowerAfter (afterCased : Bool) : List Char → List Char
  | [] => []
  | c :: s =>
    let here := if c == 'Σ' && afterCased && !startsCased s then ['ς'] else lowerChar c
    here ++ lowerAfter (if isCaseIgnorable c then afterCased else isCased c) s

/-- The lower-case form of a text (`to_lowercase`). -/
def lower (s : List Char) : List Char := lowerAfter false s

/-- The lower-case form of an ASCII letter; any other character is kept. -/
def lowerAscii (c : Char) : Char :=
  if 'A' ≤ c && c ≤ 'Z' then Char.ofNat (c.toNat + 32) else c

/-- Equality up to the case of ASCII letters (`eq_ignore_ascii_case`). -/
def eqIgnoringCase (s t : List Char) : Bool := s.map lowerAscii == t.map lowerAscii

end Heartbeat.Text
