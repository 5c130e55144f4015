/-!
# TOML strings

Strings stand between quotes or between triple quotes. With single quotes all characters stand for
themselves; with double quotes a backslash starts an escape. Between triple quotes there may be
line ends, the first of which does not count if it stands at once, and a backslash at the end of a
line hides the blanks and line ends behind it. Control characters other than the tab are not
allowed.

* `Quoted.line?`: a string between quotes.
* `Quoted.string?`: a string of any kind.
-/

namespace Heartbeat.Toml

/-- A reader gives what it read and the rest, or fails. -/
abbrev Reader (α : Type) := List Char → Option (α × List Char)

/-- Whether a character is a control character other than the tab. -/
def isControl (c : Char) : Bool := (c.toNat < 0x20 && c != '\t') || c.toNat == 0x7F

/-- Whether a character is a space or a tab. -/
def isGap (c : Char) : Bool := c == ' ' || c == '\t'

namespace Quoted

/-- The value of a hexadecimal digit. -/
def hexValue? (c : Char) : Option Nat :=
  if '0' ≤ c ∧ c ≤ '9' then some (c.toNat - '0'.toNat)
  else if 'a' ≤ c ∧ c ≤ 'f' then some (c.toNat - 'a'.toNat + 10)
  else if 'A' ≤ c ∧ c ≤ 'F' then some (c.toNat - 'A'.toNat + 10)
  else none

/-- What a character behind a backslash stands for. -/
def escaped? : Char → Option Char
  | 'b' => some '\x08'
  | 'e' => some '\x1b'
  | 't' => some '\t'
  | 'n' => some '\n'
  | 'f' => some '\x0c'
  | 'r' => some '\r'
  | '"' => some '"'
  | '\\' => some '\\'
  | _ => none

/-- Puts a character in front of what is read from the rest. -/
def prepend (c : Char) : Option (List Char × List Char) → Option (List Char × List Char)
  | some (text, rest) => some (c :: text, rest)
  | none => none

/-- Whether a text starts with a line end. -/
def startsLineEnd : List Char → Bool
  | '\n' :: _ => true
  | '\r' :: '\n' :: _ => true
  | _ => false

/-- Whether a character is part of a line end or may stand in a string. -/
def isAllowed (lines : Bool) (c : Char) (s : List Char) : Bool :=
  !isControl c || (lines && startsLineEnd (c :: s))

/-- The end of a string between triple quotes, if a text starts with it: up to two quotes that
belong to the string, and what follows the closing ones. -/
def closing? (quote : Char) (s : List Char) : Option (List Char × List Char) :=
  let count := (s.takeWhile (· == quote)).length
  if count < 3 then none
  else
    let own := min (count - 3) 2
    some (List.replicate own quote, s.drop (own + 3))

/-- Where a reader of escapes is. -/
inductive Mode where
  | plain
  | backslash
  /-- So many hexadecimal digits of a code point are to come, behind those that give a value. -/
  | code (left value : Nat)
  /-- The line end that a backslash hides is to come. -/
  | lineEnd
  /-- Blanks and line ends are hidden. -/
  | hidden
deriving Repr, DecidableEq

/-- The rest of a string with escapes, between double quotes or, with line ends, between triple
ones. -/
def escapedText (lines : Bool) : Mode → List Char → Option (List Char × List Char)
  | _, [] => none
  | mode, c :: s =>
    match mode with
    | .backslash =>
      if c = 'x' then escapedText lines (.code 2 0) s
      else if c = 'u' then escapedText lines (.code 4 0) s
      else if c = 'U' then escapedText lines (.code 8 0) s
      else
        match escaped? c with
        | some x => prepend x (escapedText lines .plain s)
        | none =>
          if lines && c == '\n' then escapedText lines .hidden s
          else if lines && (isGap c || startsLineEnd (c :: s)) then escapedText lines .lineEnd s
          else none
    | .code left value =>
      match hexValue? c with
      | none => none
      | some digit =>
        let value := 16 * value + digit
        if left ≤ 1 then
          if value.isValidChar then prepend (Char.ofNat value) (escapedText lines .plain s)
          else none
        else escapedText lines (.code (left - 1) value) s
    | .lineEnd =>
      if c == '\n' then escapedText lines .hidden s
      else if isGap c || startsLineEnd (c :: s) then escapedText lines .lineEnd s
      else none
    | mode =>
      if mode = .hidden && (isGap c || startsLineEnd (c :: s)) then escapedText lines .hidden s
      else if c = '\\' then escapedText lines .backslash s
      else if c = '"' then
        if lines then
          match closing? '"' (c :: s) with
          | some ending => some ending
          | none => prepend c (escapedText lines .plain s)
        else some ([], s)
      else if isAllowed lines c s then prepend c (escapedText lines .plain s)
      else none

/-- The rest of a string without escapes, between single quotes or, with line ends, between triple
ones. -/
def literalText (lines : Bool) : List Char → Option (List Char × List Char)
  | [] => none
  | c :: s =>
    if c = '\'' then
      if lines then
        match closing? '\'' (c :: s) with
        | some ending => some ending
        | none => prepend c (literalText lines s)
      else some ([], s)
    else if isAllowed lines c s then prepend c (literalText lines s)
    else none

/-- A text without the line end at its start. -/
def dropLineEnd : List Char → List Char
  | '\n' :: s => s
  | '\r' :: '\n' :: s => s
  | s => s

/-- The text that was read, as a string. -/
def toText : Option (List Char × List Char) → Option (String × List Char) :=
  Option.map fun (text, rest) => (String.ofList text, rest)

/-- A string on one line, with its quotes. -/
def line? : Reader String
  | '"' :: s => toText (escapedText false .plain s)
  | '\'' :: s => toText (literalText false s)
  | _ => none

/-- A string, with its quotes. -/
def string? : Reader String
  | '"' :: '"' :: '"' :: s => toText (escapedText true .plain (dropLineEnd s))
  | '\'' :: '\'' :: '\'' :: s => toText (literalText true (dropLineEnd s))
  | s => line? s

end Quoted

end Heartbeat.Toml
