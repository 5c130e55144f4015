import Heartbeat.Toml.Statement

/-!
# TOML documents

The statements of a document make up its table one after another. Entries go into the table that
the last header opened.

* `Document.parse?`: the table of a document, if its text is well formed.
-/

namespace Heartbeat.Toml

/-- A document that is being made up. -/
structure Document where
  entries : Entries := []
  /-- The path of the table that is open. -/
  here : List String := []

namespace Document

/-- Adds a statement. -/
def add? (d : Document) : Statement → Option Document
  | .entry key value =>
    (d.entries.alter? (Entries.insert? key.tables key.name value) d.here).map fun entries =>
      { d with entries := entries }
  | .header key =>
    (d.entries.alter? (Entries.openTable? key.name) key.tables).map fun entries =>
      ⟨entries, key.tables ++ [key.name]⟩
  | .nextHeader key =>
    (d.entries.alter? (Entries.openNextTable? key.name) key.tables).map fun entries =>
      ⟨entries, key.tables ++ [key.name]⟩

/-- The document of some statements. -/
def ofStatements? (statements : List Statement) : Option Document :=
  statements.foldlM add? {}

/-- The table of a document (`toml.from_str`). -/
def parse? (text : String) : Option Entries :=
  ((statements? text.toList).bind ofStatements?).map Document.entries

end Document

end Heartbeat.Toml
