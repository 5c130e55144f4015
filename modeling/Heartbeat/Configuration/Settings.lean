import Heartbeat.Dispatch
import Heartbeat.Text.Decimal
import Heartbeat.Toml.Document

/-!
# Settings

Settings are what a configuration file says, before it is checked. The file is a TOML document with
the sections `scheduler`, `scripts` and `host`; sections and settings that it leaves out have
default values, and one that is not known is an error. A section may also be an array of the values
of its settings, in the order in which they are listed here.

* `Settings`: the settings.
* `Settings.ofDocument?`: the settings of a document, if all are known and of the right type.
* `SettingsSource`: what may stand in the place of the file.
* `Settings.load`: the settings of a file.
-/

namespace Heartbeat

open Heartbeat.Text Heartbeat.Toml

/-- The settings of the scheduler, as they are written (`RawSchedulerSection`). -/
structure SchedulerSettings where
  /-- The steps of a thread in a heartbeat. -/
  turbo : Nat := 500
  /-- How long finished entries are kept. -/
  retention : String := "1h"
  dispatch : Dispatch := .onResume
  /-- The limit of the queues of matches. -/
  queueLimit? : Option Nat := none
deriving Repr, DecidableEq

/-- Where scripts are found (`ScriptsSection`). -/
structure ScriptSettings where
  /-- The folder that is searched first. -/
  folder : String := "scripts"
  /-- The folders that are searched after it. -/
  moreFolders : List String := []
  /-- What is appended to names of scripts that have no extension. -/
  extension : String := "step"
deriving Repr, DecidableEq

/-- The folders in the order in which they are searched (`all_search_paths`). -/
def ScriptSettings.searchPath (s : ScriptSettings) : List String := s.folder :: s.moreFolders

/-- The settings of the host, as they are written (`RawHostSection`). -/
structure HostSettings where
  /-- The time between heartbeats. -/
  interval : String := "50ms"
  /-- Whether news about the course of life alone is hidden. -/
  squelch : Bool := false
deriving Repr, DecidableEq

/-- What a configuration file says (`RawConfigFile`). -/
structure Settings where
  scheduler : SchedulerSettings := {}
  scripts : ScriptSettings := {}
  host : HostSettings := {}
deriving Repr, DecidableEq

/-- What stands in the place of a configuration file. -/
inductive SettingsSource where
  | missing
  /-- Something that cannot be read as a text. -/
  | unreadable
  | text (text : String)
deriving Repr, DecidableEq

/-- Why there are no settings. -/
inductive SettingsError where
  | unreadable
  /-- The text is no TOML document, or one that holds something else than settings. -/
  | malformed
deriving Repr, DecidableEq

/-- The wording of the reason. -/
def SettingsError.message : SettingsError → String
  | .unreadable => "IO error: the configuration file cannot be read"
  | .malformed => "TOML parsing error: the configuration file is malformed"

namespace Settings

/-! ## Values -/

/-- A text. -/
def text? : Value → Option String
  | .text text => some text
  | _ => none

/-- An unsigned number up to a limit. -/
def nat? (limit : Nat) : Value → Option Nat
  | .integer n => if 0 ≤ n ∧ n ≤ (limit : Int) then some n.toNat else none
  | _ => none

/-- A truth value. -/
def flag? : Value → Option Bool
  | .boolean flag => some flag
  | _ => none

/-- Texts in a row. -/
def texts? : Value → Option (List String)
  | .array items => items.mapM text?
  | _ => none

/-- When callbacks run: a key, or a table that has nothing but an empty value under the key. -/
def dispatch? : Value → Option Dispatch
  | .text key => Dispatch.ofKey? key
  | .table _ [(key, .table _ [])] => Dispatch.ofKey? key
  | .table _ [(key, .array [])] => Dispatch.ofKey? key
  | _ => none

/-! ## Sections -/

/-- The entries of a section that has settings of some names. -/
def section? (names : List String) : Value → Option Entries
  | .table _ entries =>
    if entries.all fun entry => names.contains entry.1 then some entries else none
  | .array items => some (names.zip items)
  | _ => none

/-- The value of a setting, or its default. -/
def setting {α : Type} (entries : Entries) (name : String) (read : Value → Option α) (default : α) :
    Option α :=
  match entries.get? name with
  | none => some default
  | some value => read value

/-- The settings of the scheduler. -/
def scheduler? (value : Value) : Option SchedulerSettings := do
  let entries ← section? ["turbo", "info_gc", "event_dispatch", "event_queue_limit"] value
  let d : SchedulerSettings := {}
  return {
    turbo := ← setting entries "turbo" (nat? maxWord32) d.turbo
    retention := ← setting entries "info_gc" text? d.retention
    dispatch := ← setting entries "event_dispatch" dispatch? d.dispatch
    queueLimit? := ← setting entries "event_queue_limit" (fun v => (nat? maxWord64 v).map some)
      d.queueLimit? }

/-- Where scripts are found. -/
def scripts? (value : Value) : Option ScriptSettings := do
  let entries ← section? ["dir", "search_paths", "extension"] value
  let d : ScriptSettings := {}
  return {
    folder := ← setting entries "dir" text? d.folder
    moreFolders := ← setting entries "search_paths" texts? d.moreFolders
    extension := ← setting entries "extension" text? d.extension }

/-- The settings of the host. -/
def host? (value : Value) : Option HostSettings := do
  let entries ← section? ["pulse_interval", "squelch_status"] value
  let d : HostSettings := {}
  return {
    interval := ← setting entries "pulse_interval" text? d.interval
    squelch := ← setting entries "squelch_status" flag? d.squelch }

/-- The settings of a document. -/
def ofDocument? (entries : Entries) : Option Settings := do
  let entries ← section? ["scheduler", "scripts", "host"] (.table .header entries)
  return {
    scheduler := ← setting entries "scheduler" scheduler? {}
    scripts := ← setting entries "scripts" scripts? {}
    host := ← setting entries "host" host? {} }

/-- The settings of a file, which must be there (`load_from_path`). -/
def load : SettingsSource → Except SettingsError Settings
  | .missing => .error .unreadable
  | .unreadable => .error .unreadable
  | .text text =>
    match (Document.parse? text).bind ofDocument? with
    | some settings => .ok settings
    | none => .error .malformed

end Settings

end Heartbeat
