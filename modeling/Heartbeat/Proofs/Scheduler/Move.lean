import Heartbeat.Proofs.Thread.Service
import Heartbeat.Scheduler.Tick

/-!
# Moves of a scheduler

Whatever a scheduler does, in an operation of the host or on the request of a script in the middle
of a heartbeat, is a row of moves. Each move changes one thing; between two of them the scheduler is
in a state of its own, in which the laws hold.

* `Move`: what a scheduler can do in one go; `Move.apply` does it, `Move.Fits` says when it may.
* `replay`: makes a row of moves.
* `timeline`: what one thread does in a row of moves; `told`: the news that the host gets.
* `Path`: a row of moves, each of which may be made when its turn comes.
-/

namespace Heartbeat

variable {L : Language} {now : Millis}

/-- What a scheduler can do in one go. -/
inductive Move (L : Language) where
  /-- A new thread and its entry, in the place of the finished entries of the path. -/
  | enroll (name path : String) (script : L.Script) (args : List String)
  /-- The finished entries of a path are dropped. -/
  | forget (path : String)
  /-- A thread is serviced, and its entry closed if it ended. -/
  | serve (pid : Pid)
  /-- A request is refused. -/
  | refuse (error : RequestError)
  | mark (pid : Pid)
  | pause (pid : Pid)
  | resume (pid : Pid)
  | feed (line : String)
  /-- A thread is removed, and its entry closed if it was stopped. -/
  | reap (pid : Pid)
  | collect (retention : Millis)
  | setTurbo (turbo : Nat)
  | drain
  /-- The files and the world change without the scheduler. -/
  | outside (library : ScriptLibrary) (world : L.World)

namespace Scheduler

/-- The service of a thread. -/
def activityOf (now : Millis) (t : Thread L) (s : Scheduler L) :
    Activity L Thread.ServiceOutcome :=
  t.service s.options.turbo (s.options.dispatch == .onResume) now s.world

/-- What the code of a thread does in its service. -/
def deedsOf (now : Millis) (t : Thread L) (s : Scheduler L) : List (Deed L) :=
  t.serviceDeeds s.options.turbo (s.options.dispatch == .onResume) now s.world

/-- Services a thread, and leaves its requests aside. -/
def serve (now : Millis) (pid : Pid) (s : Scheduler L) : Scheduler L :=
  match s.threads.find? pid with
  | none => s
  | some t => (s.absorb (s.activityOf now t)).recordService pid now (s.activityOf now t).value

/-- Removes a thread, and closes its entry if the thread was stopped. -/
def reap (now : Millis) (pid : Pid) (s : Scheduler L) : Scheduler L :=
  match s.threads.find? pid with
  | none => s
  | some t =>
    let s := { s with threads := s.threads.erase pid }
    if t.isTerminated then s else s.recordOutcome pid .stopped now

end Scheduler

/-- The reports on a process identifier in the news. -/
def reportsOf (p : Pid) (news : List StatusEvent) : List ThreadReport :=
  news.filterMap fun
    | .thread pid _ report => if pid = p then some report else none
    | .refused _ | .notice _ => none

/-- The identifier that news tells the start of. -/
def StatusEvent.startedPid? : StatusEvent → Option Pid
  | .thread pid _ .started => some pid
  | _ => none

namespace Move

/-- Makes a move at a time. -/
def apply (now : Millis) (m : Move L) (s : Scheduler L) : Scheduler L :=
  match m with
  | .enroll name path script args => (s.forgetFinished path).enroll now name path script args
  | .forget path => s.forgetFinished path
  | .serve pid => s.serve now pid
  | .refuse e => s.announce (.refused e)
  | .mark pid => s.abandon pid
  | .pause pid => s.changeState .pause pid
  | .resume pid => s.changeState .resume pid
  | .feed line => (s.feed line).2
  | .reap pid => s.reap now pid
  | .collect retention => (s.collect now retention).2
  | .setTurbo turbo => s.setTurbo turbo
  | .drain => s.drainStatus.2
  | .outside library world => { s with library := library, world := world }

/-- Whether a move may be made. -/
def Fits (s : Scheduler L) : Move L → Prop
  | .enroll _ path _ _ => s.nextPid < Pid.limit ∧ s.rejectLive path = .ok ()
  | .forget path => Pid.limit ≤ s.nextPid ∧ s.rejectLive path = .ok ()
  | .serve pid | .mark pid => ∃ t, s.threads.find? pid = some t ∧ t.isActive = true
  | .pause pid =>
    ∃ t, s.threads.find? pid = some t ∧ t.isActive = true ∧ t.state.isPaused = false
  | .resume pid =>
    ∃ t, s.threads.find? pid = some t ∧ t.isActive = true ∧ t.state.isPaused = true
  | .reap pid => ∃ t, s.threads.find? pid = some t ∧ t.isActive = false
  | .collect retention => s.options.retention? = some retention
  | _ => True

/-- What happens to the thread of a process identifier in a move. -/
def acts (now : Millis) (s : Scheduler L) (p : Pid) : Move L → List (Act L)
  | .enroll _ _ _ _ => if p = s.nextPid then [.started] else []
  | .serve pid =>
    if p = pid then
      match s.threads.find? pid with
      | none => []
      | some t => (s.deedsOf now t).map .did
    else []
  | .mark pid => if p = pid then [.marked] else []
  | .pause pid => if p = pid then [.paused] else []
  | .resume pid => if p = pid then [.resumed] else []
  | .feed line =>
    match s.threads.find? p with
    | none => []
    | some t => if !t.isActive || t.state.isPaused then [] else [.heard line (t.feed line).1]
  | .reap pid => if p = pid then [.reaped] else []
  | _ => []

/-- The news that the host takes in a move. -/
def taken (s : Scheduler L) : Move L → List StatusEvent
  | .drain => s.status
  | _ => []

/-- Whether the host takes the news in a move. -/
def isDrain : Move L → Bool
  | .drain => true
  | _ => false

theorem taken_of_not_drain {m : Move L} (h : m.isDrain = false) (s : Scheduler L) :
    m.taken s = [] := by
  cases m with
  | drain => exact absurd h nofun
  | _ => rfl

end Move

/-! ## Rows of moves -/

/-- Makes moves at their times, one after another. -/
def replay : List (Millis × Move L) → Scheduler L → Scheduler L
  | [], s => s
  | (now, m) :: moves, s => replay moves (m.apply now s)

/-- What happens to the thread of a process identifier in a row of moves. -/
def timeline (p : Pid) : List (Millis × Move L) → Scheduler L → List (Millis × Act L)
  | [], _ => []
  | (now, m) :: moves, s => (m.acts now s p).map (now, ·) ++ timeline p moves (m.apply now s)

/-- All the news from a state on: what the host takes in a row of moves, and what is left for it. -/
def told : List (Millis × Move L) → Scheduler L → List StatusEvent
  | [], s => s.status
  | (now, m) :: moves, s => m.taken s ++ told moves (m.apply now s)

/-- A row of moves from one state to another, each of which may be made when its turn comes. -/
inductive Path : Scheduler L → List (Millis × Move L) → Scheduler L → Prop
  | nil (s : Scheduler L) : Path s [] s
  | cons {s s' : Scheduler L} {m : Move L} {moves : List (Millis × Move L)} (now : Millis)
      (hfits : m.Fits s) (hrest : Path (m.apply now s) moves s') : Path s ((now, m) :: moves) s'

section Rows

variable {s s' s'' : Scheduler L} {moves moves' : List (Millis × Move L)}

theorem replay_append : replay (moves ++ moves') s = replay moves' (replay moves s) := by
  induction moves generalizing s with
  | nil => rfl
  | cons move moves ih => exact ih

theorem timeline_append (p : Pid) :
    timeline p (moves ++ moves') s = timeline p moves s ++ timeline p moves' (replay moves s) := by
  induction moves generalizing s with
  | nil => rfl
  | cons move moves ih =>
    simp only [List.cons_append, timeline, replay, List.append_assoc]
    rw [ih]

theorem told_append (h : ∀ x ∈ moves, x.2.isDrain = false) :
    told (moves ++ moves') s = told moves' (replay moves s) := by
  induction moves generalizing s with
  | nil => rfl
  | cons move moves ih =>
    simp only [List.cons_append, told, replay]
    rw [Move.taken_of_not_drain (h move List.mem_cons_self), List.nil_append,
      ih fun x hx => h x (List.mem_cons_of_mem _ hx)]

namespace Path

theorem append (h : Path s moves s') (h' : Path s' moves' s'') : Path s (moves ++ moves') s'' := by
  induction h with
  | nil => exact h'
  | cons now hfits _ ih => exact .cons now hfits (ih h')

theorem single {m : Move L} (h : m.Fits s) : Path s [(now, m)] (m.apply now s) :=
  .cons now h (.nil _)

theorem replay_eq (h : Path s moves s') : replay moves s = s' := by
  induction h with
  | nil => rfl
  | cons now hfits _ ih => exact ih

theorem split (h : Path s (moves ++ moves') s'') :
    Path s moves (replay moves s) ∧ Path (replay moves s) moves' s'' := by
  induction moves generalizing s with
  | nil => exact ⟨.nil s, h⟩
  | cons move moves ih =>
    cases h with
    | cons now hfits hrest =>
      obtain ⟨hfirst, hsecond⟩ := ih hrest
      exact ⟨.cons now hfits hfirst, hsecond⟩

end Path

end Rows

end Heartbeat
