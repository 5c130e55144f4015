import Heartbeat.Text.Blank
import Heartbeat.Text.Lowercase

/-!
# Log levels

* `LogLevel.parse?`: reads a level in any case; `warning` stands for `warn`.
* `LogLevel.ofOption?`: the level as an option on the command line names it.
-/

namespace Heartbeat

open Heartbeat.Text

/-- How much a program reports about itself, the least first. -/
inductive LogLevel where
  | error
  | warn
  | info
  | debug
  | trace
deriving Repr, DecidableEq

namespace LogLevel

/-- The name of a level. -/
def text : LogLevel → String
  | .error => "ERROR"
  | .warn => "WARN"
  | .info => "INFO"
  | .debug => "DEBUG"
  | .trace => "TRACE"

/-- The level of exactly this name in lower case. -/
def ofOption? : String → Option LogLevel
  | "error" => some .error
  | "warn" => some .warn
  | "info" => some .info
  | "debug" => some .debug
  | "trace" => some .trace
  | _ => none

/-- Reads a level (`parse_level_str`). -/
def parse? (text : String) : Option LogLevel :=
  match String.ofList (lower (trim text.toList)) with
  | "warning" => some .warn
  | name => ofOption? name

end LogLevel

end Heartbeat
