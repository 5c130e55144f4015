import Heartbeat.Host.Event
import Heartbeat.Host.Listing
import Heartbeat.Scheduler.Tick

/-!
# Hosts

A host drives a scheduler: it gives it heartbeats, passes events on, and shows the news. It ends
after the heartbeat that follows a shutdown, or when no script is left and it is not to be kept
alive, or its input has come to an end.

* `Host.beat`: a heartbeat; says whether the host ends.
* `Host.handle`: an event.
* `Host.step`: either of them, or the end of the input.
-/

namespace Heartbeat

/-- How a host works. -/
structure HostOptions where
  /-- The time between heartbeats. -/
  interval : Millis
  /-- Whether news about the course of life alone is hidden. -/
  squelch : Bool
  /-- Whether the host goes on without scripts as long as its input does. -/
  keepAlive : Bool
deriving Repr, DecidableEq

/-- A scheduler with what the host knows beside it (`HostRuntime`). -/
structure Host (L : Language) where
  scheduler : Scheduler L
  options : HostOptions
  inputOpen : Bool := true
  shuttingDown : Bool := false

/-- What happens to a host. -/
inductive HostSignal where
  | beat
  | event (event : HostEvent)
  /-- The input comes to an end. -/
  | inputEnds
deriving Repr, DecidableEq

/-- What a host does on a signal. -/
structure HostReply (L : Language) where
  host : Host L
  /-- What is shown, in order. -/
  news : List StatusEvent
  /-- Whether the host ends. -/
  ends : Bool

namespace Host

variable {L : Language}

/-- Takes the news of the scheduler, without what is hidden (`flush_status`). -/
def flush (h : Host L) : List StatusEvent × Host L :=
  let (status, scheduler) := h.scheduler.drainStatus
  (status.filter fun e => !(h.options.squelch && e.isRoutine), { h with scheduler := scheduler })

/-- Whether the host ends after a heartbeat. -/
def isDone (h : Host L) : Bool :=
  h.shuttingDown || (h.scheduler.isIdle && (!h.options.keepAlive || !h.inputOpen))

/-- A heartbeat. -/
def beat (now : Millis) (h : Host L) : HostReply L :=
  let (news, h) := { h with scheduler := (h.scheduler.tick now).2 }.flush
  ⟨h, news, h.isDone⟩

/-- The report of a request that was not carried out. -/
def refusal {α : Type} : Except RequestError α → List StatusEvent
  | .ok _ => []
  | .error e => [.refused e]

/-- The answer to a start. -/
def startAnswer : Except StartError Pid → Except RequestError Pid
  | .ok pid => .ok pid
  | .error e => .error (.start e)

/-- Carries out an event. Gives the news that is shown at once. -/
def carryOut (now : Millis) (h : Host L) : HostEvent → List StatusEvent × Host L
  | .text line => ([], { h with scheduler := (h.scheduler.feed line).2 })
  | .run script args =>
    let (answer, s) := h.scheduler.run now script args
    (refusal (startAnswer answer), { h with scheduler := s })
  | .parse source =>
    let (answer, s) := h.scheduler.parse now source
    (refusal (startAnswer answer), { h with scheduler := s })
  | .stop target =>
    let (answer, s) := h.scheduler.stop target
    (refusal answer, { h with scheduler := s })
  | .pause target =>
    let (answer, s) := h.scheduler.pause target
    (refusal answer, { h with scheduler := s })
  | .list statuses? => ((Listing.table (h.scheduler.list statuses?)).map .notice, h)
  | .info target =>
    match h.scheduler.info? target with
    | some entry => ((Listing.details entry).map .notice, h)
    | none => ([.refused (.noMatch target)], h)
  | .shutdown => ([], { h with scheduler := h.scheduler.stopAll.2, shuttingDown := true })

/-- Carries out an event and shows the news (`handle_event`). -/
def handle (now : Millis) (h : Host L) (event : HostEvent) : HostReply L :=
  let (notices, h) := h.carryOut now event
  let (news, h) := h.flush
  ⟨h, notices ++ news, false⟩

/-- What the host does on a signal (`HostRuntime.run`). -/
def step (now : Millis) (h : Host L) : HostSignal → HostReply L
  | .beat => h.beat now
  | .event event => h.handle now event
  | .inputEnds =>
    let (news, h) := { h with inputOpen := false }.flush
    ⟨h, news, false⟩

end Host

end Heartbeat
