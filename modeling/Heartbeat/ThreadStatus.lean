import Heartbeat.Text.Blank
import Heartbeat.Text.Lowercase

/-!
# Thread statuses

The four statuses that a listing of processes shows, two of a live thread and two of an ended one.

* `ThreadStatus.parse`: reads a status in any case; `error` stands for `errored`.
* `ThreadStatus.text`: how listings write it.
-/

namespace Heartbeat

open Heartbeat.Text

/-- The status of a process. -/
inductive ThreadStatus where
  | running
  | paused
  | exited
  | errored
deriving Repr, DecidableEq

namespace ThreadStatus

/-- Whether the process has ended (`ThreadStatus.is_terminal`). -/
def isTerminal : ThreadStatus → Bool
  | .exited | .errored => true
  | .running | .paused => false

/-- The statuses of live threads, which a listing shows unless told otherwise (`ThreadStatus.LIVE`).
-/
def live : List ThreadStatus := [.running, .paused]

/-- How listings write a status (`ThreadStatus.fmt`). -/
def text : ThreadStatus → String
  | .running => "RUNNING"
  | .paused => "PAUSED"
  | .exited => "EXITED"
  | .errored => "ERRORED"

/-- Reads a status; a text that is none is given back trimmed and in lower case
(`ThreadStatus.from_str`). -/
def parse (text : String) : Except String ThreadStatus :=
  match String.ofList (lower (trim text.toList)) with
  | "running" => .ok .running
  | "paused" => .ok .paused
  | "exited" => .ok .exited
  | "errored" => .ok .errored
  | "error" => .ok .errored
  | other => .error other

/-- What is said of a text that is no status (`ThreadStatus.from_str`). -/
def invalidMessage (text : String) : String := s!"invalid status: {text}"

end ThreadStatus

end Heartbeat
