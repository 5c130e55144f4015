/-!
# Blanks, words and lines

Texts are cut at blanks and at line ends. All functions work on the list of characters of a text.

* `isBlank`: the Unicode property `White_Space`.
* `trim`: without the blanks at both ends.
* `words`: the longest runs without a blank.
* `splitAtBlank?`: what stands before and after the first blank.
* `lines`: the lines of a text; a line feed ends a line, and one carriage return before it belongs
  to the line end.
-/

namespace Heartbeat.Text

/-- Whether a character has the Unicode property `White_Space`. -/
def isBlank (c : Char) : Bool :=
  let code := c.toNat
  (0x9 ≤ code && code ≤ 0xD) || code == 0x20 || code == 0x85 || code == 0xA0 || code == 0x1680 ||
    (0x2000 ≤ code && code ≤ 0x200A) || code == 0x2028 || code == 0x2029 || code == 0x202F ||
    code == 0x205F || code == 0x3000

/-- A text without the blanks at its start. -/
def trimLeft (s : List Char) : List Char := s.dropWhile isBlank

/-- A text without the blanks at its end. -/
def trimRight (s : List Char) : List Char := (s.reverse.dropWhile isBlank).reverse

/-- A text without the blanks at both ends. -/
def trim (s : List Char) : List Char := trimRight (trimLeft s)

/-- Puts a character in front of the first piece, which is made if there is none. -/
def consFirst {α : Type} (a : α) : List (List α) → List (List α)
  | [] => [[a]]
  | piece :: pieces => (a :: piece) :: pieces

/-- Whether a text starts with a character that is no blank. -/
def startsWord : List Char → Bool
  | [] => false
  | c :: _ => !isBlank c

/-- The longest runs of characters that are no blanks, in order (`split_whitespace`). -/
def words : List Char → List (List Char)
  | [] => []
  | c :: s =>
    if isBlank c then words s
    else if startsWord s then consFirst c (words s)
    else [c] :: words s

/-- What stands before and after the first blank, if there is a blank (`split_once`). -/
def splitAtBlank? : List Char → Option (List Char × List Char)
  | [] => none
  | c :: s =>
    if isBlank c then some ([], s)
    else (splitAtBlank? s).map fun (before, after) => (c :: before, after)

/-- The lines of a text. A line feed ends a line, together with one carriage return right before
it; what follows the last line feed is a line only if it is not empty. -/
def lines : List Char → List (List Char)
  | [] => []
  | '\n' :: s => [] :: lines s
  | '\r' :: '\n' :: s => [] :: lines s
  | c :: s => consFirst c (lines s)

/-! ## The same on strings -/

/-- A string without the blanks at both ends. -/
def trimmed (s : String) : String := String.ofList (trim s.toList)

/-- The lines of a string. -/
def linesOf (s : String) : List String := (lines s.toList).map String.ofList

end Heartbeat.Text
