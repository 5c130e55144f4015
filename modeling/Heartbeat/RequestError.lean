import Heartbeat.Files.Library

/-!
# Requests that are not carried out

The host and scripts ask for scripts to be started, stopped and paused. What cannot be done is
reported and has no other effect.

* `RequestError.message`: the wording of the reasons.
-/

namespace Heartbeat

/-- Why a request was not carried out (`PulseError`). -/
inductive RequestError where
  | start (error : StartError)
  | noMatch (target : Target)
  | nothingToPause
deriving Repr, DecidableEq

/-- The wording of the reason. -/
def RequestError.message : RequestError → String
  | .start error => error.message
  | .noMatch target => s!"No script matching {target.text}"
  | .nothingToPause => "No running or paused scripts"

end Heartbeat
