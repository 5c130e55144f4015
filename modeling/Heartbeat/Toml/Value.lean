/-!
# TOML values

A TOML document is a table. Tables hold values under keys; how a table was written decides whether
later lines may add to it.

* `Value`: the values, tables among them.
* `Entries`: the contents of a table.
* `Entries.insert?`: an entry under a dotted key.
* `Entries.alter?`: a change of the table that a header names.
-/

namespace Heartbeat.Toml

/-- How a table was written. -/
inductive TableKind where
  /-- Opened by a header of its own. -/
  | header
  /-- Named only in the headers of tables below it. -/
  | implied
  /-- Made by dotted keys. -/
  | dotted
  /-- Written as a value; it is complete. -/
  | inline
deriving Repr, DecidableEq

/-- A value. -/
inductive Value where
  | text (text : String)
  | integer (number : Int)
  /-- A number with a fraction or an exponent, an infinity or no number, or digits that give no
  integer, as it was written. -/
  | numeral (literal : String)
  | boolean (flag : Bool)
  /-- A date, a time, or both, as it was written. -/
  | moment (literal : String)
  | array (items : List Value)
  | table (kind : TableKind) (entries : List (String × Value))
  /-- Tables that headers in double brackets opened one by one. -/
  | tables (tables : List (List (String × Value)))

/-- The contents of a table, in the order of the keys' first appearance. -/
abbrev Entries := List (String × Value)

namespace Entries

/-- The value under a key. -/
def get? (entries : Entries) (key : String) : Option Value :=
  (entries.find? (·.1 == key)).map Prod.snd

/-- Puts a value under a key, in the place of the old one if there is one. -/
def set (entries : Entries) (key : String) (value : Value) : Entries :=
  if entries.any (·.1 == key) then
    entries.map fun entry => if entry.1 == key then (key, value) else entry
  else entries ++ [(key, value)]

/-- Adds an entry under a dotted key. The tables on the way are new or were made by dotted keys, and
the last key is new. -/
def insert? : List String → String → Value → Entries → Option Entries
  | [], key, value, entries =>
    match entries.get? key with
    | none => some (entries.set key value)
    | some _ => none
  | name :: path, key, value, entries =>
    match entries.get? name with
    | none => (insert? path key value []).map fun inner => entries.set name (.table .dotted inner)
    | some (.table .dotted inner) =>
      (insert? path key value inner).map fun inner => entries.set name (.table .dotted inner)
    | some _ => none

/-- Changes the table at the end of a path of headers. Tables on the way that do not exist are
implied; of tables in double brackets the last one is meant. -/
def alter? (change : Entries → Option Entries) : List String → Entries → Option Entries
  | [], entries => change entries
  | name :: path, entries =>
    match entries.get? name with
    | none => (alter? change path []).map fun inner => entries.set name (.table .implied inner)
    | some (.table kind inner) =>
      if kind = .inline then none
      else (alter? change path inner).map fun inner => entries.set name (.table kind inner)
    | some (.tables tables) =>
      match tables.getLast? with
      | none => none
      | some last =>
        (alter? change path last).map fun last =>
          entries.set name (.tables (tables.dropLast ++ [last]))
    | some _ => none

/-- Opens a table by its header: it is new, or was only implied. -/
def openTable? (key : String) (entries : Entries) : Option Entries :=
  match entries.get? key with
  | none => some (entries.set key (.table .header []))
  | some (.table .implied inner) => some (entries.set key (.table .header inner))
  | some _ => none

/-- Opens another table by its header in double brackets. -/
def openNextTable? (key : String) (entries : Entries) : Option Entries :=
  match entries.get? key with
  | none => some (entries.set key (.tables [[]]))
  | some (.tables tables) => some (entries.set key (.tables (tables ++ [[]])))
  | some _ => none

end Entries

end Heartbeat.Toml
