import Heartbeat.Text.Blank
import Heartbeat.Text.Lowercase

/-!
# When callbacks run

Matches of a script's events wait in a queue. Either the scheduler hands them to their callbacks
right before it resumes the script, or only the script itself does.

* `Dispatch.parse`: reads the choice in any case.
* `Dispatch.ofKey?`: the choice as a configuration names it.
-/

namespace Heartbeat

open Heartbeat.Text

/-- When queued matches are handed to their callbacks (`EventDispatch`). -/
inductive Dispatch where
  /-- Before each resume of the script. -/
  | onResume
  /-- When the script asks. -/
  | explicit
deriving Repr, DecidableEq, Inhabited

namespace Dispatch

/-- The name of a choice. -/
def text : Dispatch → String
  | .onResume => "OnResume"
  | .explicit => "Explicit"

/-- The choice under exactly this key. -/
def ofKey? : String → Option Dispatch
  | "on_resume" => some .onResume
  | "explicit" => some .explicit
  | _ => none

/-- Reads a choice; a text that is none is given back trimmed and in lower case
(`EventDispatch.from_str`). -/
def parse (text : String) : Except String Dispatch :=
  match String.ofList (lower (trim text.toList)) with
  | "on_resume" => .ok .onResume
  | "onresume" => .ok .onResume
  | "explicit" => .ok .explicit
  | other => .error other

/-- What is said of a text that is no choice (`EventDispatch.from_str`). -/
def invalidMessage (text : String) : String :=
  s!"invalid event_dispatch: {text} (expected \"on_resume\" or \"explicit\")"

end Dispatch

end Heartbeat
