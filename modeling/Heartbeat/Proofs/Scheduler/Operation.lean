import Heartbeat.Proofs.Scheduler.Move

/-!
# Operations as rows of moves

The host drives a scheduler by operations. Beside each function of the scheduler stands the list of
the moves that it makes, with their times; a request of a script makes its moves in the middle of
the operation that carries it out. A move has the time of the service or the operation that it is
part of, and a launch the time that the clock shows then.

* `Move.isControl`, `Move.isClearance`: the moves of stops and pauses, and those of clearing up.
* `Operation`: what the host can do; `performAll` does it.
* `history`: the moves of a row of operations.
* `clockReadings`: what the clock shows in a row of operations, whenever it is read.
* `newsOf`: all the news that the host gets.
-/

namespace Heartbeat

variable {L : Language}

namespace Move

/-- Whether a move stops, pauses or resumes a thread, or refuses a request. -/
def isControl : Move L → Bool
  | .mark _ | .pause _ | .resume _ | .refuse _ => true
  | _ => false

/-- Whether a move clears away what is over, a thread or entries. -/
def isClearance : Move L → Bool
  | .reap _ | .collect _ => true
  | _ => false

end Move

namespace Scheduler

/-! ## The moves of a function -/

/-- The moves of a stop. -/
def stopMoves (s : Scheduler L) (target : Target) : List (Move L) :=
  (s.resolveActive target).map .mark

/-- The move that pauses a thread, or resumes it if it is paused. -/
def toggleMove (s : Scheduler L) (pid : Pid) : Move L :=
  if (s.threads.find? pid).any (·.state.isPaused) then .resume pid else .pause pid

/-- The moves of a toggle of all threads. -/
def toggleAllMoves (s : Scheduler L) : List (Move L) :=
  match s.activeThreads.filter fun t => !t.state.isPaused with
  | [] => s.activeThreads.map fun t => .resume t.pid
  | running => running.map fun t => .pause t.pid

/-- The moves of a pause. -/
def pauseMoves (s : Scheduler L) (target : Target) : List (Move L) :=
  if target = .all then s.toggleAllMoves
  else
    match s.resolveActive target with
    | [] => []
    | pid :: _ => [s.toggleMove pid]

/-- The moves of a start by its identity, at a time. -/
abbrev SpawnMoves (L : Language) : Type :=
  Millis → String → List String → Scheduler L → List (Millis × Move L)

/-- A request that was not carried out is refused. -/
def refusal {α : Type} (now : Millis) : Except RequestError α → List (Millis × Move L)
  | .ok _ => []
  | .error e => [(now, .refuse e)]

/-- The moves of a request. -/
def requestMoves (spawn : Spawn L) (moves : SpawnMoves L) (now : Millis) (s : Scheduler L) :
    Request → List (Millis × Move L)
  | .stop target => (s.stopMoves target).map (now, ·) ++ refusal now (s.stop target).1
  | .pause target => (s.pauseMoves target).map (now, ·) ++ refusal now (s.pause target).1
  | .run script args =>
    moves (s.launchTime now) script args s ++
      refusal now ((spawn (s.launchTime now) script args s).1.mapError .start)

/-- The moves of requests in order. -/
def requestsMoves (spawn : Spawn L) (moves : SpawnMoves L) (now : Millis) :
    List Request → Scheduler L → List (Millis × Move L)
  | [], _ => []
  | request :: requests, s =>
    requestMoves spawn moves now s request ++
      requestsMoves spawn moves now requests (applyRequest spawn now s request)

/-- The moves of a service: the thread is serviced, and its requests follow. -/
def serviceMoves (spawn : Spawn L) (moves : SpawnMoves L) (now : Millis) (pid : Pid)
    (s : Scheduler L) : List (Millis × Move L) :=
  match s.threads.find? pid with
  | none => []
  | some t =>
    if !t.isActive then []
    else (now, .serve pid) ::
      requestsMoves spawn moves now (s.activityOf now t).requests (s.serve now pid)

/-- The moves of a launch from a state in which the entries of its path are still there. -/
def launchMoves (spawn : Spawn L) (moves : SpawnMoves L) (now : Millis) (name path : String)
    (script : L.Script) (args : List String) (s : Scheduler L) : List (Millis × Move L) :=
  if Pid.limit ≤ s.nextPid then [(now, .forget path)]
  else (now, .enroll name path script args) ::
    serviceMoves spawn moves now s.nextPid
      ((s.forgetFinished path).enroll now name path script args)

/-- The moves of a start by an identity. -/
def startWithMoves (spawn : Spawn L) (moves : SpawnMoves L) (now : Millis) (identity : String)
    (searchPath : List ScriptPath) (args : List String) (s : Scheduler L) :
    List (Millis × Move L) :=
  match s.library.resolve identity searchPath with
  | .error _ => []
  | .ok path =>
    match s.rejectLive path.text with
    | .error _ => []
    | .ok () =>
      match s.library.load path with
      | .error _ => []
      | .ok program =>
        launchMoves spawn moves now identity path.text (L.ofProgram program) args s

/-- The moves of a start that a request asks for, nested up to a depth. -/
def spawnMovesWithin : Nat → SpawnMoves L
  | 0 => fun _ _ _ _ => []
  | depth + 1 => fun now identity args s =>
    startWithMoves (spawnWithin depth) (spawnMovesWithin depth) now identity s.searchPath args s

/-- The moves of a start that a request asks for. -/
def spawnMoves : SpawnMoves L := spawnMovesWithin Pid.limit

/-- The moves of the start of a script that is at hand. -/
def startScriptMoves (now : Millis) (name label : String) (script : L.Script) (args : List String)
    (s : Scheduler L) : List (Millis × Move L) :=
  match s.rejectLive label with
  | .error _ => []
  | .ok () => launchMoves spawn spawnMoves now name label script args s

/-- The moves of the start of a source text. -/
def parseMoves (now : Millis) (source : String) (s : Scheduler L) : List (Millis × Move L) :=
  match s.rejectLive parseName with
  | .error _ => []
  | .ok () =>
    match ScriptLibrary.loadSource parseName source with
    | .error _ => []
    | .ok program =>
      launchMoves spawn spawnMoves now parseName parseName (L.ofProgram program) [] s

/-- The moves of services one after another. -/
def serviceAllMoves (now : Millis) : List Pid → Scheduler L → List (Millis × Move L)
  | [], _ => []
  | pid :: pids, s =>
    serviceMoves spawn spawnMoves now pid s ++
      serviceAllMoves now pids (service spawn now pid s).2

/-- The moves of a sweep. -/
def sweepMoves (s : Scheduler L) : List (Move L) :=
  (s.threads.members.filter (!·.isActive)).map fun t => .reap t.pid

/-- The moves of a collection on demand. -/
def collectGarbageMoves (s : Scheduler L) : List (Move L) :=
  match s.options.retention? with
  | none => []
  | some retention => [.collect retention]

/-- The moves of a collection if one is due. -/
def collectIfDueMoves (now : Millis) (s : Scheduler L) : List (Move L) :=
  match s.options.retention? with
  | none => []
  | some retention => if now - s.lastCollection < retention then [] else [.collect retention]

/-- The moves of a heartbeat. -/
def tickMoves (now : Millis) (s : Scheduler L) : List (Millis × Move L) :=
  let serviced := (serviceAll now s.livePids s).2
  serviceAllMoves now s.livePids s ++ serviced.sweepMoves.map (now, ·) ++
    ((serviced.sweep now).2.collectIfDueMoves now).map (now, ·)

section Kinds

variable {s : Scheduler L} {now : Millis} {m : Move L}

theorem control_stopMoves (s : Scheduler L) (target : Target) :
    ∀ x ∈ (s.stopMoves target).map (now, ·), x.2.isControl = true :=
  List.forall_mem_map.mpr (List.forall_mem_map.mpr fun _ _ => rfl)

theorem control_toggleAllMoves (s : Scheduler L) :
    ∀ x ∈ s.toggleAllMoves.map (now, ·), x.2.isControl = true := by
  unfold toggleAllMoves
  split <;> exact List.forall_mem_map.mpr (List.forall_mem_map.mpr fun _ _ => rfl)

theorem control_pauseMoves (s : Scheduler L) (target : Target) :
    ∀ x ∈ (s.pauseMoves target).map (now, ·), x.2.isControl = true := by
  unfold pauseMoves
  split
  · exact control_toggleAllMoves s
  · split
    · nofun
    · unfold toggleMove
      split <;> exact List.forall_mem_singleton.mpr rfl

theorem control_refusal {α : Type} (result : Except RequestError α) :
    ∀ x ∈ refusal (L := L) now result, x.2.isControl = true := by
  cases result with
  | ok a => nofun
  | error e => exact List.forall_mem_singleton.mpr rfl

theorem clearance_sweepMoves (s : Scheduler L) :
    ∀ x ∈ s.sweepMoves.map (now, ·), x.2.isClearance = true :=
  List.forall_mem_map.mpr (List.forall_mem_map.mpr fun _ _ => rfl)

theorem mem_collectGarbageMoves (h : m ∈ s.collectGarbageMoves) :
    ∃ retention, s.options.retention? = some retention ∧ m = .collect retention := by
  unfold collectGarbageMoves at h
  split at h
  · exact absurd h List.not_mem_nil
  · rename_i retention hretention
    exact ⟨retention, hretention, List.mem_singleton.mp h⟩

theorem mem_collectIfDueMoves (h : m ∈ s.collectIfDueMoves now) :
    ∃ retention, s.options.retention? = some retention ∧ retention ≤ now - s.lastCollection ∧
      m = .collect retention := by
  unfold collectIfDueMoves at h
  split at h
  · exact absurd h List.not_mem_nil
  · rename_i retention hretention
    split at h
    · exact absurd h List.not_mem_nil
    · rename_i hdue
      exact ⟨retention, hretention, Nat.le_of_not_lt hdue, List.mem_singleton.mp h⟩

theorem clearance_collectGarbageMoves (s : Scheduler L) :
    ∀ x ∈ s.collectGarbageMoves.map (now, ·), x.2.isClearance = true := by
  refine List.forall_mem_map.mpr fun m hm => ?_
  obtain ⟨retention, -, rfl⟩ := mem_collectGarbageMoves hm
  rfl

theorem clearance_collectIfDueMoves (now : Millis) (s : Scheduler L) :
    ∀ x ∈ (s.collectIfDueMoves now).map (now, ·), x.2.isClearance = true := by
  refine List.forall_mem_map.mpr fun m hm => ?_
  obtain ⟨retention, -, -, rfl⟩ := mem_collectIfDueMoves hm
  rfl

end Kinds

end Scheduler

/-! ## Operations -/

/-- What the host can do with a scheduler. -/
inductive Operation (L : Language) where
  | run (identity : String) (args : List String)
  | start (identity : String) (searchPath : List ScriptPath) (args : List String)
  | startScript (name label : String) (script : L.Script) (args : List String)
  | parse (source : String)
  | tick
  | feed (line : String)
  | stop (target : Target)
  | stopAll
  | pause (target : Target)
  | toggleAll
  | setTurbo (turbo : Nat)
  | collectGarbage
  /-- The host takes the news. -/
  | drainStatus
  /-- The files and the world change between two operations. -/
  | outside (library : ScriptLibrary) (world : L.World)

namespace Operation

/-- Does an operation at a time; its result is left out. -/
def perform (now : Millis) (op : Operation L) (s : Scheduler L) : Scheduler L :=
  match op with
  | .run identity args => (s.run now identity args).2
  | .start identity searchPath args => (s.start now identity searchPath args).2
  | .startScript name label script args => (s.startScript now name label script args).2
  | .parse source => (s.parse now source).2
  | .tick => (s.tick now).2
  | .feed line => (s.feed line).2
  | .stop target => (s.stop target).2
  | .stopAll => s.stopAll.2
  | .pause target => (s.pause target).2
  | .toggleAll => s.toggleAll.2
  | .setTurbo turbo => s.setTurbo turbo
  | .collectGarbage => (s.collectGarbage now).2
  | .drainStatus => s.drainStatus.2
  | .outside library world => { s with library := library, world := world }

/-- The moves of an operation at a time. -/
def moves (now : Millis) (op : Operation L) (s : Scheduler L) : List (Millis × Move L) :=
  match op with
  | .run identity args =>
    Scheduler.startWithMoves Scheduler.spawn Scheduler.spawnMoves now identity s.searchPath args s
  | .start identity searchPath args =>
    Scheduler.startWithMoves Scheduler.spawn Scheduler.spawnMoves now identity searchPath args s
  | .startScript name label script args => s.startScriptMoves now name label script args
  | .parse source => s.parseMoves now source
  | .tick => s.tickMoves now
  | .feed line => [(now, .feed line)]
  | .stop target => (s.stopMoves target).map (now, ·)
  | .stopAll => (s.stopMoves .all).map (now, ·)
  | .pause target => (s.pauseMoves target).map (now, ·)
  | .toggleAll => s.toggleAllMoves.map (now, ·)
  | .setTurbo turbo => [(now, .setTurbo turbo)]
  | .collectGarbage => s.collectGarbageMoves.map (now, ·)
  | .drainStatus => [(now, .drain)]
  | .outside library world => [(now, .outside library world)]

/-- The news that the host takes in an operation. -/
def taken (s : Scheduler L) : Operation L → List StatusEvent
  | .drainStatus => s.drainStatus.1
  | _ => []

end Operation

/-- Does operations at their times, one after another. -/
def performAll : List (Millis × Operation L) → Scheduler L → Scheduler L
  | [], s => s
  | (now, op) :: ops, s => performAll ops (op.perform now s)

/-- The moves of a row of operations, with their times. -/
def history : List (Millis × Operation L) → Scheduler L → List (Millis × Move L)
  | [], _ => []
  | (now, op) :: ops, s => op.moves now s ++ history ops (op.perform now s)

/-- The times of the launches among moves. -/
def launchTimes (moves : List (Millis × Move L)) : List Millis :=
  moves.filterMap fun
    | (now, .enroll _ _ _ _) => some now
    | _ => none

/-- **What the clock shows in a row of operations**, whenever it is read: when an operation begins,
and for each launch. -/
def clockReadings : List (Millis × Operation L) → Scheduler L → List Millis
  | [], _ => []
  | (now, op) :: ops, s =>
    now :: launchTimes (op.moves now s) ++ clockReadings ops (op.perform now s)

/-- All the news from a state on: what the host takes in a row of operations, and what is left for
it behind the last one. -/
def newsOf : List (Millis × Operation L) → Scheduler L → List StatusEvent
  | [], s => s.status
  | (now, op) :: ops, s => op.taken s ++ newsOf ops (op.perform now s)

end Heartbeat
