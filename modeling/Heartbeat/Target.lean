import Heartbeat.Text.Blank
import Heartbeat.Text.Decimal
import Heartbeat.Text.Lowercase

/-!
# Targets

A target says which scripts a request is aimed at: one process identifier, a script name, or all
scripts. It is written as `all` in any case, as a positive number, or as any other text that is
not blank, which is a name.

* `Target.parse?`: reads a target; only a blank text has none.
* `Target.ofOptional`: the target of an optional text, all scripts if there is none.
* `Target.text`: how messages name a target.
-/

namespace Heartbeat

open Heartbeat.Text

/-- A process identifier. -/
abbrev Pid := Nat

/-- The first number that is no process identifier any more (`allocate_pid`). -/
def Pid.limit : Nat := maxWord32

/-- Who a request is aimed at. -/
inductive Target where
  /-- The script with this process identifier. -/
  | pid (pid : Pid)
  /-- A script with this name. -/
  | name (name : String)
  /-- Every script. -/
  | all
deriving Repr, DecidableEq

namespace Target

/-- Reads a target from a text without blanks at its ends. -/
def parseTrimmed? (s : List Char) : Option Target :=
  if s = [] then none
  else if eqIgnoringCase s ['a', 'l', 'l'] then some .all
  else match readNat? maxWord32 s with
    | some (n + 1) => some (.pid (n + 1))
    | _ => some (.name (String.ofList s))

/-- Reads a target (`Target.from_str`). -/
def parse? (text : String) : Option Target := parseTrimmed? (trim text.toList)

/-- What is said of a text that is no target (`Target.from_str`). -/
def emptyMessage : String := "empty target"

/-- The target of an optional text: all scripts if there is no text or only blanks
(`Target.from_optional`). -/
def ofOptional (text? : Option String) : Target := (text?.bind parse?).getD .all

/-- How messages name a target (`Target.fmt`). -/
def text : Target → String
  | .pid p => s!"pid {p}"
  | .name n => s!"'{n}'"
  | .all => "all scripts"

/-- Whether a script with this identifier and name counts itself as aimed at (`targets_self`). -/
def includes (target : Target) (ownPid : Pid) (ownName : String) : Bool :=
  match target with
  | .pid p => p == ownPid
  | .name n => n == ownName
  | .all => true

end Target

end Heartbeat
