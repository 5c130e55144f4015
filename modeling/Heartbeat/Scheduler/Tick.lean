import Heartbeat.Scheduler.Start

/-!
# Heartbeats

A heartbeat services the threads that are live when it begins, in the order of their identifiers.
Then it removes the threads that ended or were stopped, and drops old entries from the process table
if it is time to.

* `Scheduler.tick`: a heartbeat, and a report on it.
* `Scheduler.sweep`: removing threads.
* `Scheduler.collectIfDue`, `collectGarbage`: dropping old entries.
-/

namespace Heartbeat

/-- What a heartbeat did. -/
structure TickReport where
  now : Millis
  /-- The threads that were resumed, in order of service. -/
  resumed : List Pid
  /-- The threads that were removed. -/
  reaped : List Pid
  /-- The entries that were dropped. -/
  collected : List Pid
deriving Repr, DecidableEq

/-- Whether nothing happened (`TickReport.is_quiet`). -/
def TickReport.isQuiet (r : TickReport) : Bool :=
  r.resumed.isEmpty && r.reaped.isEmpty && r.collected.isEmpty

namespace Scheduler

variable {L : Language}

/-- Services threads one after another, and says which of them were resumed. -/
def serviceAll (now : Millis) : List Pid → Scheduler L → List Pid × Scheduler L
  | [], s => ([], s)
  | pid :: pids, s =>
    let (resumed, s) := service spawn now pid s
    let (rest, s) := serviceAll now pids s
    (if resumed then pid :: rest else rest, s)

/-- Removes the threads that ended or were stopped, and says which (`sweep`). The entries of those
that were stopped are closed now. -/
def sweep (now : Millis) (s : Scheduler L) : List Pid × Scheduler L :=
  let gone := s.threads.members.filter (!·.isActive)
  let stopped := gone.filter (!·.isTerminated)
  let s := { s with threads := s.threads.filter Thread.isActive }
  (gone.map Thread.pid,
    (stopped.map Thread.pid).foldl (fun s pid => s.recordOutcome pid .stopped now) s)

/-- Drops the entries that have been kept for the retention, and says which (`garbage_collect`). -/
def collect (now retention : Millis) (s : Scheduler L) : List Pid × Scheduler L :=
  let (pids, table) := s.table.collect now retention
  (pids, { s with table := table, lastCollection := now })

/-- Drops old entries right away, unless they are kept for good (`collect_garbage`). -/
def collectGarbage (now : Millis) (s : Scheduler L) : List Pid × Scheduler L :=
  match s.options.retention? with
  | none => ([], s)
  | some retention => s.collect now retention

/-- Drops old entries if the retention has passed since the last time (`maybe_collect`). -/
def collectIfDue (now : Millis) (s : Scheduler L) : List Pid × Scheduler L :=
  match s.options.retention? with
  | none => ([], s)
  | some retention =>
    if now - s.lastCollection < retention then ([], s) else s.collect now retention

/-- A heartbeat, and a report on it (`tick`). -/
def tick (now : Millis) (s : Scheduler L) : TickReport × Scheduler L :=
  let (resumed, s) := serviceAll now s.livePids s
  let (reaped, s) := s.sweep now
  let (collected, s) := s.collectIfDue now
  (⟨now, resumed, reaped, collected⟩, s)

end Scheduler

end Heartbeat
