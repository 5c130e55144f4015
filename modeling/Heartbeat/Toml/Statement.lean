import Heartbeat.Toml.Moment
import Heartbeat.Toml.Number
import Heartbeat.Toml.Value

/-!
# TOML statements

A document is a list of statements: an entry `key = value`, a header `[key]` and a header `[[key]]`.
Keys are dotted and have at most `maxKeyParts` parts, which are bare words or strings on one line.
Blanks and comments may stand around statements and inside arrays and inline tables. A comma may
stand behind the last item or entry of these. Values are nested at most `maxNesting` deep.

* `Statement`: the statements.
* `value?`: a value.
* `statements?`: the statements of a document.
-/

namespace Heartbeat.Toml

open Heartbeat.Text

/-- A dotted key: the names of tables, and the last name. -/
structure KeyPath where
  tables : List String
  name : String
deriving Repr, DecidableEq

/-- A statement. -/
inductive Statement where
  | entry (key : KeyPath) (value : Value)
  /-- Opens a table. -/
  | header (key : KeyPath)
  /-- Opens another table in a list of tables. -/
  | nextHeader (key : KeyPath)

/-! ## Blanks and comments -/

/-- A text without the spaces and tabs at its start. -/
def dropGap (s : List Char) : List Char := s.dropWhile isGap

/-- A text without the blanks, line ends and comments at its start, if the comments are well formed;
the flag says whether the text starts inside a comment. -/
def skip? : Bool → List Char → Option (List Char)
  | _, [] => some []
  | true, '\n' :: s => skip? false s
  | true, '\r' :: '\n' :: s => skip? false s
  | true, c :: s => if isControl c then none else skip? true s
  | false, ' ' :: s => skip? false s
  | false, '\t' :: s => skip? false s
  | false, '\n' :: s => skip? false s
  | false, '\r' :: '\n' :: s => skip? false s
  | false, '#' :: s => skip? true s
  | false, s => some s

/-- What follows the end of a statement, which is the end of its line but for a comment. -/
def endStatement? (s : List Char) : Option (List Char) :=
  match dropGap s with
  | [] => some []
  | c :: s => if c = '#' ∨ Quoted.startsLineEnd (c :: s) then skip? false (c :: s) else none

/-! ## Keys -/

/-- Whether a character may stand in a bare key. -/
def isKeyChar (c : Char) : Bool := isNameChar c || c == '-'

/-- A part of a key. -/
def keyPart? : Reader String
  | [] => none
  | c :: s =>
    if c = '"' ∨ c = '\'' then Quoted.line? (c :: s)
    else
      match (c :: s).takeWhile isKeyChar with
      | [] => none
      | word => some (String.ofList word, (c :: s).dropWhile isKeyChar)

/-- How many parts a key may have. -/
def maxKeyParts : Nat := 80

/-- A key of at most so many parts. -/
def keyWithin? : Nat → Reader KeyPath
  | 0, _ => none
  | parts + 1, s =>
    match keyPart? s with
    | none => none
    | some (part, s) =>
      match dropGap s with
      | '.' :: s =>
        (keyWithin? parts (dropGap s)).map fun (key, s) => (⟨part :: key.tables, key.name⟩, s)
      | s => some (⟨[], part⟩, s)

/-- A key, with the spaces behind it. -/
def key? : Reader KeyPath := keyWithin? maxKeyParts

/-- A key and the equals sign behind it, with the spaces around it, on one line. -/
def assignedKey? (s : List Char) : Option (KeyPath × List Char) :=
  match key? s with
  | some (key, '=' :: s) => some (key, dropGap s)
  | _ => none

/-- A key and the equals sign behind it, with the blanks, line ends and comments around it. -/
def looseKey? (s : List Char) : Option (KeyPath × List Char) :=
  match key? s with
  | none => none
  | some (key, s) =>
    match skip? false s with
    | some ('=' :: s) => (skip? false s).map fun s => (key, s)
    | _ => none

/-! ## Values -/

/-- Whether a character may stand in a value without quotes and brackets. -/
def isWordChar (c : Char) : Bool :=
  !(isGap c || c == '\r' || c == '\n' || c == ',' || c == '=' || c == '#' || c == '[' || c == ']' ||
    c == '\x7b' || c == '\x7d')

/-- What a word stands for. -/
def wordValue? (word : List Char) : Option Value :=
  if word = ['t', 'r', 'u', 'e'] then some (.boolean true)
  else if word = ['f', 'a', 'l', 's', 'e'] then some (.boolean false)
  else
    match Number.ofText? word with
    | some (.integer n) => some (.integer n)
    | some .other => some (.numeral (String.ofList word))
    | none => if Moment.isMoment word then some (.moment (String.ofList word)) else none

/-- Whether what stands behind a gap belongs to the word in front of it. -/
def resumesWord : List Char → Bool
  | [] => false
  | c :: _ => isWordChar c && c != '"' && c != '\''

/-- The characters of a word and what follows. A word goes on behind a gap if neither a delimiter
nor a string stands there. -/
def word : List Char → List Char × List Char
  | [] => ([], [])
  | c :: s =>
    if isWordChar c || (isGap c && resumesWord (dropGap s)) then
      let (more, rest) := word s
      (c :: more, rest)
    else ([], c :: s)

/-- How deep arrays and inline tables may be nested. -/
def maxNesting : Nat := 80

mutual

/-- A value that may hold others to a depth. Each value, item and entry in it takes one of the steps
that are given. -/
def valueWithin? : Nat → Nat → Reader Value
  | 0, _, _ => none
  | _ + 1, _, [] => none
  | steps + 1, depth, c :: s =>
    if c = '"' ∨ c = '\'' then
      (Quoted.string? (c :: s)).map fun (text, s) => (.text text, s)
    else if c = '[' then
      if depth = 0 then none
      else (itemsWithin? steps (depth - 1) s).map fun (items, s) => (.array items, s)
    else if c = '\x7b' then
      if depth = 0 then none
      else
        (entriesWithin? steps (depth - 1) [] s).map fun (entries, s) => (.table .inline entries, s)
    else (wordValue? (word (c :: s)).1).map fun value => (value, (word (c :: s)).2)

/-- The items of an array and its closing bracket. -/
def itemsWithin? : Nat → Nat → Reader (List Value)
  | 0, _, _ => none
  | steps + 1, depth, s =>
    match skip? false s with
    | some (']' :: s) => some ([], s)
    | some s =>
      match valueWithin? steps depth s with
      | none => none
      | some (value, s) =>
        match skip? false s with
        | some (',' :: s) => (itemsWithin? steps depth s).map fun (items, s) => (value :: items, s)
        | some (']' :: s) => some ([value], s)
        | _ => none
    | none => none

/-- Adds the entries of an inline table to those that were read, up to its closing brace. -/
def entriesWithin? : Nat → Nat → Entries → Reader Entries
  | 0, _, _, _ => none
  | steps + 1, depth, entries, s =>
    match skip? false s with
    | some ('\x7d' :: s) => some (entries, s)
    | some s =>
      match looseKey? s with
      | none => none
      | some (key, s) =>
        match valueWithin? steps depth s with
        | none => none
        | some (value, s) =>
          match entries.insert? key.tables key.name value with
          | none => none
          | some entries =>
            match skip? false s with
            | some (',' :: s) => entriesWithin? steps depth entries s
            | some ('\x7d' :: s) => some (entries, s)
            | _ => none
    | none => none

end

/-- A value. Each step but the first of an array or a table reads a character, so that two steps
for each character suffice. -/
def value? : Reader Value := fun s => valueWithin? (2 * s.length + 1) maxNesting s

/-! ## Statements -/

/-- A header behind its opening brackets, up to its closing ones. -/
def header? (s : List Char) (closing : List Char) : Option (KeyPath × List Char) :=
  match key? (dropGap s) with
  | some (key, s) => if closing.isPrefixOf s then some (key, s.drop closing.length) else none
  | none => none

/-- A statement. -/
def statement? : Reader Statement
  | '[' :: '[' :: s => (header? s [']', ']']).map fun (key, s) => (.nextHeader key, s)
  | '[' :: s => (header? s [']']).map fun (key, s) => (.header key, s)
  | s =>
    match assignedKey? s with
    | none => none
    | some (key, s) => (value? s).map fun (value, s) => (.entry key value, s)

/-- At most so many statements up to the end of a text. -/
def statementsWithin? : Nat → List Char → Option (List Statement)
  | _, [] => some []
  | 0, _ => none
  | count + 1, s =>
    match statement? s with
    | none => none
    | some (statement, s) =>
      match endStatement? s with
      | none => none
      | some s => (statementsWithin? count s).map (statement :: ·)

/-- The statements of a document. A byte order mark may stand before them. -/
def statements? (s : List Char) : Option (List Statement) :=
  let s := match s with
    | '\uFEFF' :: s => s
    | s => s
  (skip? false s).bind fun s => statementsWithin? s.length s

end Heartbeat.Toml
