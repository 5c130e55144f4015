import Heartbeat.Dispatch
import Heartbeat.Files.Library
import Heartbeat.Process.Table
import Heartbeat.Thread

/-!
# The scheduler

The scheduler owns the live threads and the process table. Threads stand in the order of their
process identifiers, which is the order of their starts.

* `Clock`: what the clock shows when a request starts a script.
* `Scheduler`: the state.
* `Scheduler.stop`, `stopAll`: marking threads for stopping.
* `Scheduler.pause`, `toggleAll`: pausing and resuming threads.
* `Scheduler.recordOutcome`: closing the entry of a thread that ended.
* `Scheduler.feed`: matching a line against the events of all threads.

Every operation that needs the time takes it as an argument. Only a start that a script requests in
the middle of an operation reads the clock again.
-/

namespace Heartbeat

/-- What the work of a scheduler depends on. -/
structure SchedulerOptions where
  /-- The steps of a thread in a heartbeat. -/
  turbo : Nat := 500
  /-- How long finished entries are kept; without one they are kept for good. -/
  retention? : Option Millis := some 3600000
  dispatch : Dispatch := .onResume
  /-- The limit of the queues of matches. -/
  queueLimit? : Option Nat := none
deriving Repr, DecidableEq

/-- What the clock shows when a request launches the thread of an identifier, by the time of the
service that the request was made in (`Clock.now_millis`). An identifier is handed out once, so that
each launch has a reading of its own. -/
abbrev Clock : Type := Pid → Millis → Millis

/-- A clock that stands still while an operation goes on. -/
def Clock.still : Clock := fun _ now => now

/-- The live threads, the process table, and what comes with them. -/
structure Scheduler (L : Language) where
  threads : Roster (Thread.pid (L := L))
  table : ProcessTable
  nextPid : Pid
  options : SchedulerOptions
  clock : Clock
  library : ScriptLibrary
  searchPath : List ScriptPath
  /-- News for the host that it has not taken yet, the oldest first. -/
  status : List StatusEvent
  /-- The time of the last collection, at first the time of creation. -/
  lastCollection : Millis
  world : L.World

namespace Scheduler

variable {L : Language}

/-- A scheduler without threads (`Scheduler.new`). -/
def create (options : SchedulerOptions) (library : ScriptLibrary) (searchPath : List ScriptPath)
    (world : L.World) (now : Millis) (clock : Clock := .still) : Scheduler L where
  threads := .empty
  table := .empty
  nextPid := 1
  options := options
  clock := clock
  library := library
  searchPath := searchPath
  status := []
  lastCollection := now
  world := world

/-! ## Views -/

/-- The identifiers of the live threads, in ascending order (`live_pids`). -/
def livePids (s : Scheduler L) : List Pid := s.threads.keys

/-- Whether there is no live thread (`is_idle`). -/
def isIdle (s : Scheduler L) : Bool := s.threads.isEmpty

/-- The entries of some statuses, those of live threads if none are given (`Scheduler.list`). -/
def list (s : Scheduler L) (statuses? : Option (List ThreadStatus)) : List ProcessEntry :=
  s.table.list statuses?

/-- The entry that a target names (`Scheduler.info`). -/
def info? (s : Scheduler L) (target : Target) : Option ProcessEntry := s.table.lookup? target

/-- The active threads, in order. -/
def activeThreads (s : Scheduler L) : List (Thread L) := s.threads.members.filter Thread.isActive

/-- The active threads that a target names: a name stands for the oldest thread of this name
(`resolve_active`). -/
def resolveActive (s : Scheduler L) : Target → List Pid
  | .pid pid => ((s.activeThreads.find? (·.pid == pid)).map Thread.pid).toList
  | .name name => ((s.activeThreads.find? (·.name == name)).map Thread.pid).toList
  | .all => s.activeThreads.map Thread.pid

/-- What the clock shows when a request that was made in a service at a time launches a thread. It
is read when an identifier has been handed out, so not at all if none is left. -/
def launchTime (s : Scheduler L) (now : Millis) : Millis :=
  if Pid.limit ≤ s.nextPid then now else s.clock s.nextPid now

/-! ## Small changes -/

/-- Adds news for the host. -/
def announce (s : Scheduler L) (event : StatusEvent) : Scheduler L :=
  { s with status := s.status ++ [event] }

/-- Takes the news for the host (`drain_status`). -/
def drainStatus (s : Scheduler L) : List StatusEvent × Scheduler L :=
  (s.status, { s with status := [] })

/-- Changes the steps of a thread in a heartbeat; there is at least one (`set_turbo`). -/
def setTurbo (s : Scheduler L) (turbo : Nat) : Scheduler L :=
  { s with options := { s.options with turbo := max turbo 1 } }

/-- Puts a thread in the place of the one of its identifier. -/
def setThread (s : Scheduler L) (t : Thread L) : Scheduler L :=
  { s with threads := s.threads.insert t }

/-- Closes the entry of a thread that ended, and reports it (`record_outcome`). -/
def recordOutcome (s : Scheduler L) (pid : Pid) (outcome : ThreadOutcome) (now : Millis) :
    Scheduler L :=
  match s.table.find? pid with
  | none => s
  | some entry =>
    let (entry', report) : ProcessEntry × ThreadReport :=
      match outcome with
      | .exited values => (entry.exit now values, .exited values)
      | .stopped => (entry.exit now [], .stopped)
      | .errored fault => (entry.fail now fault.detail, .faulted fault.detail)
    { s with table := s.table.insert entry' }.announce (.thread pid entry.name report)

/-! ## Stopping -/

/-- Marks a thread for stopping, and reports it (`Scheduler.abandon`). -/
def abandon (s : Scheduler L) (pid : Pid) : Scheduler L :=
  match s.threads.find? pid with
  | none => s
  | some t => (s.setThread t.abandon).announce (.thread pid t.name .stopping)

/-- Marks threads for stopping, one after another. -/
def abandonAll (s : Scheduler L) (pids : List Pid) : Scheduler L := pids.foldl abandon s

/-- Stops every active thread, and says which these were (`stop_all`). -/
def stopAll (s : Scheduler L) : List Pid × Scheduler L :=
  let pids := s.resolveActive .all
  (pids, s.abandonAll pids)

/-- Stops the active threads that a target names (`Scheduler.stop`). A stopped thread steps no more
and is gone after the next heartbeat. -/
def stop (s : Scheduler L) (target : Target) : Except RequestError (List Pid) × Scheduler L :=
  let pids := s.resolveActive target
  if target ≠ .all ∧ pids = [] then (.error (.noMatch target), s)
  else (.ok pids, s.abandonAll pids)

/-! ## Pausing -/

/-- Gives a thread another state, notes its status in its entry and reports whether it is paused
(`set_paused`). -/
def changeState (change : ExecutionState L.Condition → ExecutionState L.Condition)
    (s : Scheduler L) (pid : Pid) : Scheduler L :=
  match s.threads.find? pid with
  | none => s
  | some t =>
    let t := { t with state := change t.state }
    let table := s.table.update pid fun entry => { entry with status := t.state.status }
    { s.setThread t with table := table }.announce
      (.thread pid t.name (if t.state.isPaused then .paused else .resumed))

/-- Pauses all active threads that are not paused; if there are none, resumes all (`toggle_all`). -/
def toggleAll (s : Scheduler L) : Except RequestError (List Pid) × Scheduler L :=
  let active := s.activeThreads
  if active.isEmpty then (.error .nothingToPause, s)
  else
    match active.filter fun t => !t.state.isPaused with
    | [] =>
      let pids := active.map Thread.pid
      (.ok pids, pids.foldl (changeState .resume) s)
    | running =>
      let pids := running.map Thread.pid
      (.ok pids, pids.foldl (changeState .pause) s)

/-- Pauses the active thread that a target names, or resumes it if it is paused (`Scheduler.pause`).
-/
def pause (s : Scheduler L) (target : Target) : Except RequestError (List Pid) × Scheduler L :=
  if target = .all then s.toggleAll
  else
    match s.resolveActive target with
    | [] => (.error (.noMatch target), s)
    | pid :: _ => (.ok [pid], s.changeState .toggle pid)

/-! ## Text -/

/-- A fed thread keeps its identifier. -/
theorem pid_feed (line : String) (t : Thread L) : ((t.feed line).2).pid = t.pid := by
  unfold Thread.feed
  split <;> rfl

/-- Matches a line against the events of all threads, and counts the matches (`on_text_line`). -/
def feed (s : Scheduler L) (line : String) : Nat × Scheduler L :=
  (s.threads.members.foldr (fun t count => (t.feed line).1 + count) 0,
    { s with threads := s.threads.map (fun t => (t.feed line).2) (pid_feed line) })

end Scheduler

end Heartbeat
