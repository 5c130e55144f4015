import Heartbeat.Scheduler.Basic

/-!
# Servicing and starting threads

A started thread gets its first service at once. A service runs the script and then carries out the
requests that the script left, in order; a request may start another script, which is serviced
before the next request. A launch reads the clock: the time that a start is given is the one that is
shown when its thread is launched.

* `Scheduler.service`: a heartbeat of one thread.
* `Scheduler.applyRequests`: carrying out requests; one that fails is reported.
* `Scheduler.launch`: a new thread, its entry, and its first service.
* `Scheduler.run`, `start`, `startScript`, `parse`: the ways to start a script.

Starts that are nested in one another have different process identifiers, so that they are never
nested deeper than there are identifiers. The functions take the start that a request asks for as an
argument; `spawnWithin` ties the knot up to a depth, and `spawn` for the depth that suffices.
-/

namespace Heartbeat

namespace Scheduler

variable {L : Language}

/-- The start of a script by its identity, at a time. -/
abbrev Spawn (L : Language) : Type :=
  Millis → String → List String → Scheduler L → Except StartError Pid × Scheduler L

/-- Carries out a request. -/
def applyRequest (spawn : Spawn L) (now : Millis) (s : Scheduler L) (request : Request) :
    Scheduler L :=
  let (failure?, s) : Option RequestError × Scheduler L :=
    match request with
    | .stop target =>
      match s.stop target with
      | (.ok _, s) => (none, s)
      | (.error e, s) => (some e, s)
    | .pause target =>
      match s.pause target with
      | (.ok _, s) => (none, s)
      | (.error e, s) => (some e, s)
    | .run script args =>
      match spawn (s.launchTime now) script args s with
      | (.ok _, s) => (none, s)
      | (.error e, s) => (some (.start e), s)
  match failure? with
  | none => s
  | some e => s.announce (.refused e)

/-- Carries out requests in order (`apply_requests`). -/
def applyRequests (spawn : Spawn L) (now : Millis) (s : Scheduler L) (requests : List Request) :
    Scheduler L :=
  requests.foldl (applyRequest spawn now) s

/-- Takes over what a thread did. -/
def absorb {α : Type} (s : Scheduler L) (a : Activity L α) : Scheduler L :=
  { s.setThread a.thread with world := a.world, status := s.status ++ a.status }

/-- Closes the entry of a thread if its service ended it. -/
def recordService (s : Scheduler L) (pid : Pid) (now : Millis) :
    Thread.ServiceOutcome → Scheduler L
  | .resumed (.finished outcome) => s.recordOutcome pid outcome now
  | _ => s

/-- A heartbeat of a thread, if it is active, and what its requests lead to (`resume_thread`). Says
whether it was resumed. -/
def service (spawn : Spawn L) (now : Millis) (pid : Pid) (s : Scheduler L) : Bool × Scheduler L :=
  match s.threads.find? pid with
  | none => (false, s)
  | some t =>
    if !t.isActive then (false, s)
    else
      let a := t.service s.options.turbo (s.options.dispatch == .onResume) now s.world
      (a.value != .notEligible,
        applyRequests spawn now ((s.absorb a).recordService pid now a.value) a.requests)

/-! ## Starting -/

/-- Refuses a path whose entry is live (`reject_live`). -/
def rejectLive (s : Scheduler L) (path : String) : Except StartError Unit :=
  match s.table.findPath? path with
  | some entry =>
    if entry.isLive then .error (.alreadyRunning entry.name entry.pid) else .ok ()
  | none => .ok ()

/-- Drops the finished entries of a path (`forget_finished`). -/
def forgetFinished (s : Scheduler L) (path : String) : Scheduler L :=
  { s with table := s.table.forget path }

/-- A new thread with the next identifier, and its entry. -/
def enroll (s : Scheduler L) (now : Millis) (name path : String) (script : L.Script)
    (args : List String) : Scheduler L :=
  { s with
    threads := s.threads.insert
      (.start s.nextPid name path args script s.options.queueLimit?)
    table := s.table.insert (.started s.nextPid name path args now)
    nextPid := s.nextPid + 1
    status := s.status ++ [.thread s.nextPid name .started] }

/-- Starts a script under a path that is free, if an identifier is left (`launch`). -/
def launch (spawn : Spawn L) (now : Millis) (name path : String) (script : L.Script)
    (args : List String) (s : Scheduler L) : Except StartError Pid × Scheduler L :=
  if Pid.limit ≤ s.nextPid then (.error .pidsExhausted, s)
  else (.ok s.nextPid, (service spawn now s.nextPid (s.enroll now name path script args)).2)

/-- Starts the script that an identity names in the folders of a search path (`Scheduler.start`). -/
def startWith (spawn : Spawn L) (now : Millis) (identity : String) (searchPath : List ScriptPath)
    (args : List String) (s : Scheduler L) : Except StartError Pid × Scheduler L :=
  match s.library.resolve identity searchPath with
  | .error e => (.error e, s)
  | .ok path =>
    match s.rejectLive path.text with
    | .error e => (.error e, s)
    | .ok () =>
      match s.library.load path with
      | .error e => (.error e, s)
      | .ok program =>
        launch spawn now identity path.text (L.ofProgram program) args
          (s.forgetFinished path.text)

/-- The start that requests ask for, nested up to a depth. -/
def spawnWithin : Nat → Spawn L
  | 0 => fun _ _ _ s => (.error .pidsExhausted, s)
  | depth + 1 => fun now identity args s =>
    startWith (spawnWithin depth) now identity s.searchPath args s

/-- The start that requests ask for. Nested starts have different identifiers, so the number of
identifiers is deep enough. -/
def spawn : Spawn L := spawnWithin Pid.limit

/-- Starts the script that an identity names on the search path of the scheduler (`Scheduler.run`).
-/
def run (now : Millis) (identity : String) (args : List String) (s : Scheduler L) :
    Except StartError Pid × Scheduler L :=
  startWith spawn now identity s.searchPath args s

/-- Starts the script that an identity names on a search path (`Scheduler.start`). -/
def start (now : Millis) (identity : String) (searchPath : List ScriptPath) (args : List String)
    (s : Scheduler L) : Except StartError Pid × Scheduler L :=
  startWith spawn now identity searchPath args s

/-- Starts a script that is at hand under a label, which plays the part of its path
(`start_script`). -/
def startScript (now : Millis) (name label : String) (script : L.Script) (args : List String)
    (s : Scheduler L) : Except StartError Pid × Scheduler L :=
  match s.rejectLive label with
  | .error e => (.error e, s)
  | .ok () => launch spawn now name label script args (s.forgetFinished label)

/-- The name and the path of scripts that are given as source texts (`PARSE_NAME`). -/
def parseName : String := "parse"

/-- Starts the script of a source text (`Scheduler.parse`). -/
def parse (now : Millis) (source : String) (s : Scheduler L) :
    Except StartError Pid × Scheduler L :=
  match s.rejectLive parseName with
  | .error e => (.error e, s)
  | .ok () =>
    match ScriptLibrary.loadSource parseName source with
    | .error e => (.error e, s)
    | .ok program =>
      launch spawn now parseName parseName (L.ofProgram program) [] (s.forgetFinished parseName)

end Scheduler

end Heartbeat
