import Heartbeat.Duration
import Heartbeat.Process.Roster
import Heartbeat.Target
import Heartbeat.ThreadStatus

/-!
# The process table

The table has an entry for every run of a script, from its start until the entry is collected or
replaced. An entry is live until it gets an end time.

* `ProcessEntry.started`, `exit`, `fail`: the life of an entry.
* `ProcessTable.lookup?`: the entry that a target names.
* `ProcessTable.list`: the entries of some statuses.
* `ProcessTable.collect`: drops the entries that ended long enough ago.
-/

namespace Heartbeat

/-- What is known of a run of a script (`ThreadInfo`). -/
structure ProcessEntry where
  pid : Pid
  name : String
  path : String
  arguments : List String
  startTime : Millis
  endTime? : Option Millis
  returnValues : List String
  status : ThreadStatus
  error? : Option String
deriving Repr, DecidableEq

namespace ProcessEntry

/-- The entry of a run that starts (`ThreadInfo.started`). -/
def started (pid : Pid) (name path : String) (arguments : List String) (time : Millis) :
    ProcessEntry :=
  ⟨pid, name, path, arguments, time, none, [], .running, none⟩

/-- Whether the run has not ended (`ThreadInfo.is_live`). -/
def isLive (e : ProcessEntry) : Bool := e.endTime?.isNone

/-- The run ends with these values (`ThreadInfo.finish_exited`). -/
def exit (e : ProcessEntry) (time : Millis) (values : List String) : ProcessEntry :=
  { e with endTime? := some time, returnValues := values, status := .exited }

/-- The run ends with an error (`ThreadInfo.finish_errored`). -/
def fail (e : ProcessEntry) (time : Millis) (message : String) : ProcessEntry :=
  { e with endTime? := some time, error? := some message, status := .errored }

/-- The arguments as they were typed (`ThreadInfo.argument_line`). -/
def argumentLine (e : ProcessEntry) : String := " ".intercalate e.arguments

/-- Whether a finished entry has been kept for the whole retention. -/
def isExpired (e : ProcessEntry) (now retention : Millis) : Bool :=
  e.status.isTerminal &&
    match e.endTime? with
    | some time => time.after retention ≤ now
    | none => false

end ProcessEntry

/-- The entries in ascending order of their process identifiers. -/
abbrev ProcessTable := Roster ProcessEntry.pid

namespace ProcessTable

/-- Changes the entry of a process identifier, if there is one (`ProcessTable.get_pid_mut`). -/
def update (t : ProcessTable) (pid : Pid) (change : ProcessEntry → ProcessEntry) : ProcessTable :=
  match t.find? pid with
  | some e => t.insert (change e)
  | none => t

/-- The later started of two entries; of entries started at one time, the one with the greater
process identifier. -/
def laterStarted (a b : ProcessEntry) : ProcessEntry :=
  if a.startTime < b.startTime ∨ (a.startTime = b.startTime ∧ a.pid ≤ b.pid) then b else a

/-- The finished entry that started last (`ProcessTable.last_finished`). -/
def lastFinished? (t : ProcessTable) : Option ProcessEntry :=
  match t.members.filter (!·.isLive) with
  | [] => none
  | e :: rest => some (rest.foldl laterStarted e)

/-- The entry that a target names: a name stands for its latest run, and all scripts for the
finished run that started last (`ProcessTable.get`). -/
def lookup? (t : ProcessTable) : Target → Option ProcessEntry
  | .pid pid => t.find? pid
  | .name name => t.members.reverse.find? (·.name == name)
  | .all => t.lastFinished?

/-- The entries whose status is among some, those of live threads if none are given
(`ProcessTable.list`). -/
def list (t : ProcessTable) (statuses? : Option (List ThreadStatus)) : List ProcessEntry :=
  t.members.filter ((statuses?.getD ThreadStatus.live).contains ·.status)

/-- The first entry of a path (`ProcessTable.find_by_path`). -/
def findPath? (t : ProcessTable) (path : String) : Option ProcessEntry :=
  t.members.find? (·.path == path)

/-- Drops the finished entries of a path (`forget_finished`). -/
def forget (t : ProcessTable) (path : String) : ProcessTable :=
  t.filter fun e => !(e.path == path && !e.isLive)

/-- Drops the entries that have been kept for the whole retention, and says which
(`ProcessTable.garbage_collect`). -/
def collect (t : ProcessTable) (now retention : Millis) : List Pid × ProcessTable :=
  ((t.members.filter (·.isExpired now retention)).map (·.pid),
    t.filter (!·.isExpired now retention))

end ProcessTable

end Heartbeat
