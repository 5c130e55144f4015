import Heartbeat.Fault
import Heartbeat.RequestError

/-!
# Status events

A status event tells the host what happened to a thread, or why a request was not carried out.

* `ThreadReport`: what can happen to a thread.
* `StatusEvent.kind`, `message`: the sort of an event and its wording.
* `StatusEvent.isRoutine`: whether a host may hide the event.
* `StatusEvent.shown`: the line that a terminal gets.
-/

namespace Heartbeat

/-- What happened to a thread. -/
inductive ThreadReport where
  | started
  /-- The script ended by itself with these values. -/
  | exited (values : List String)
  /-- The thread was marked for stopping. -/
  | stopping
  /-- The thread was stopped and is gone. -/
  | stopped
  /-- The script ended with an error. -/
  | faulted (detail : String)
  /-- The callback of an event went wrong; the script goes on. -/
  | callbackFaulted (event : String) (fault : CallbackFault)
  | paused
  | resumed
  /-- The script printed a text. -/
  | output (text : String)
deriving Repr, DecidableEq

/-- A piece of news for the host. -/
inductive StatusEvent where
  /-- Something happened to a thread. -/
  | thread (pid : Pid) (name : String) (report : ThreadReport)
  /-- A request was not carried out. -/
  | refused (error : RequestError)
  /-- A line that the host asked for. -/
  | notice (text : String)
deriving Repr, DecidableEq

/-- The sort of a status event. -/
inductive StatusKind where
  | started
  | ended
  | errored
  | paused
  | resumed
  | stopping
  | output
  | notice
deriving Repr, DecidableEq

/-- The name of a sort. -/
def StatusKind.text : StatusKind → String
  | .started => "Started"
  | .ended => "Ended"
  | .errored => "Errored"
  | .paused => "Paused"
  | .resumed => "Resumed"
  | .stopping => "Stopping"
  | .output => "Output"
  | .notice => "Notice"

namespace ThreadReport

/-- The sort of a report. -/
def kind : ThreadReport → StatusKind
  | .started => .started
  | .exited _ | .stopped => .ended
  | .stopping => .stopping
  | .faulted _ | .callbackFaulted _ _ => .errored
  | .paused => .paused
  | .resumed => .resumed
  | .output _ => .output

/-- The wording of a report on a thread (`launch`, `record_outcome`, `abandon`, `set_paused`,
`do_events`). -/
def message (pid : Pid) (name : String) : ThreadReport → String
  | .started => s!"Running script '{name}' with pid {pid}"
  | .exited [] => s!"Ending script '{name}' with pid {pid}"
  | .exited values =>
    s!"Ending script '{name}' with pid {pid} and return values: " ++ ", ".intercalate values
  | .stopping => s!"Ending script '{name}' with pid {pid}"
  | .stopped => s!"Ended script '{name}' with pid {pid}"
  | .faulted detail => s!"Script '{name}' (pid {pid}) ended with an error: {detail}"
  | .callbackFaulted event fault =>
    s!"{name} (pid {pid}): event '{event}' callback failed: {fault.message}"
  | .paused => s!"Paused script '{name}' with pid {pid}"
  | .resumed => s!"Resumed script '{name}' with pid {pid}"
  | .output text => text

end ThreadReport

namespace StatusEvent

/-- The thread that an event is about. -/
def pid? : StatusEvent → Option Pid
  | .thread pid _ _ => some pid
  | .refused _ | .notice _ => none

/-- The name of the script that an event is about, empty if it is about none. -/
def name : StatusEvent → String
  | .thread _ name _ => name
  | .refused _ | .notice _ => ""

/-- The sort of an event. -/
def kind : StatusEvent → StatusKind
  | .thread _ _ report => report.kind
  | .refused _ | .notice _ => .notice

/-- The wording of an event. -/
def message : StatusEvent → String
  | .thread pid name report => report.message pid name
  | .refused error => error.message
  | .notice text => text

/-- Whether an event is about the course of life alone: a host may hide it
(`StatusEvent.is_squelchable`). Errors, notices and output are always shown. -/
def isRoutine (e : StatusEvent) : Bool :=
  match e.kind with
  | .started | .ended | .paused | .resumed | .stopping => true
  | .errored | .output | .notice => false

/-- The line that a terminal gets: output names the script that it comes from (`StatusEvent.fmt`).
-/
def shown : StatusEvent → String
  | .thread pid name (.output text) => s!"[{name}:{pid}] {text}"
  | e => e.message

end StatusEvent

end Heartbeat
