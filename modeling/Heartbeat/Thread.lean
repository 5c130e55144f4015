import Heartbeat.Script.Context

/-!
# Threads

A thread is one running script with its arguments, its budget, its events and its state. It is
active until its script ends or it is abandoned.

* `Thread.beginTick`: a fresh allowance for a heartbeat.
* `Thread.dispatch`: hands waiting matches to their callbacks.
* `Thread.poll`: whether the thread may step.
* `Thread.resume`: steps until the script waits, ends or has spent its budget.
* `Thread.service`: these four in a row, which is what a heartbeat does to an active thread.
* `Thread.feed`: matches a line against the events.
-/

namespace Heartbeat

/-- How a thread ended. -/
inductive ThreadOutcome where
  /-- The script ended by itself with these values. -/
  | exited (values : List String)
  | errored (fault : Fault)
  /-- The thread was stopped. -/
  | stopped
deriving Repr, DecidableEq

/-- What a resume leads to. -/
inductive ResumeOutcome where
  /-- The thread waits, or has spent its budget. -/
  | suspended
  | finished (outcome : ThreadOutcome)
deriving Repr, DecidableEq

/-- The script of the thread has ended, so that there is nothing to resume. -/
structure ContextTerminated where
  pid : Pid
deriving Repr, DecidableEq

/-- What is said of a thread whose script has ended. -/
def ContextTerminated.message (e : ContextTerminated) : String :=
  s!"Execution context of pid {e.pid} has already terminated"

/-- One running script (`ScriptThread`). -/
structure Thread (L : Language) where
  pid : Pid
  name : String
  path : String
  args : List String
  budget : Budget
  state : ExecutionState L.Condition
  events : EventProcessor L.Callback
  /-- The script, until it ends. -/
  script? : Option L.Script
  memory : L.Memory
  /-- Whether the thread is marked for stopping. -/
  abandoned : Bool

/-- What a thread did: a result, the thread and the world after it, and what it leaves for the host
and the scheduler. -/
structure Activity (L : Language) (α : Type) where
  value : α
  thread : Thread L
  world : L.World
  status : List StatusEvent := []
  requests : List Request := []

namespace Activity

variable {L : Language} {α β : Type}

/-- An activity followed by another one. -/
def andThen (a : Activity L α) (next : α → Thread L → L.World → Activity L β) : Activity L β :=
  let b := next a.value a.thread a.world
  { b with status := a.status ++ b.status, requests := a.requests ++ b.requests }

end Activity

namespace Thread

variable {L : Language}

/-- A thread before its first step; it has no budget yet (`ScriptThread.new`). -/
def start (pid : Pid) (name path : String) (args : List String) (script : L.Script)
    (queueLimit? : Option Nat) : Thread L where
  pid := pid
  name := name
  path := path
  args := args
  budget := {}
  state := .running
  events := .empty queueLimit?
  script? := some script
  memory := L.boot script
  abandoned := false

/-- Whether the script has ended (`ScriptThread.is_terminated`). -/
def isTerminated (t : Thread L) : Bool := t.script?.isNone

/-- Whether the script goes on and the thread is not marked for stopping (`ScriptThread.is_active`).
-/
def isActive (t : Thread L) : Bool := !t.abandoned && !t.isTerminated

/-- What the code of the thread knows of it. -/
def caller (t : Thread L) (now : Millis) : Caller := ⟨t.pid, t.name, t.args, now⟩

/-- What the code of the thread can reach (`ScriptContext.new`). -/
def context (t : Thread L) (world : L.World) : Context L :=
  ⟨t.events, t.budget, t.memory, world, [], []⟩

/-- The thread after code ran in its context. -/
def absorb (t : Thread L) (c : Context L) : Thread L :=
  { t with events := c.events, budget := c.budget, memory := c.memory }

/-- The activity of code that ran in the context of the thread. -/
def activity {α : Type} (t : Thread L) (value : α) (c : Context L) : Activity L α :=
  ⟨value, t.absorb c, c.world, c.status, c.requests⟩

/-- A fresh allowance for a heartbeat (`ScriptThread.begin_tick`). -/
def beginTick (t : Thread L) (turbo : Nat) : Thread L :=
  { t with budget := t.budget.reset (t.state.allowance turbo) }

/-- Marks the thread for stopping; it steps no more (`ScriptThread.abandon`). -/
def abandon (t : Thread L) : Thread L := { t with abandoned := true, budget := t.budget.close }

/-- Ends the script (`ScriptThread.terminate`). -/
def terminate (t : Thread L) : Thread L := { t with script? := none }

/-- Matches a line against the events and counts the matches; a thread that is paused or not active
does not see the line (`ScriptThread.feed`). -/
def feed (t : Thread L) (line : String) : Nat × Thread L :=
  if !t.isActive || t.state.isPaused then (0, t)
  else
    let (count, events) := t.events.feed L.engine line
    (count, { t with events := events })

/-- Whether the thread may step (`ScriptThread.poll_eligible`). A wait condition that breaks down
ends the script. -/
def poll (t : Thread L) (now : Millis) (world : L.World) : Activity L (Except Fault Bool) :=
  if !t.isActive then ⟨.ok false, t, world, [], []⟩
  else
    match t.state.poll L.evaluate now (t.memory, world) with
    | (.known may, state, memory, world) =>
      ⟨.ok may, { t with state := state, memory := memory }, world, [], []⟩
    | (.panicked text?, state, memory, world) =>
      ⟨.error (.ofCondition text?),
        { t with state := state, memory := memory, script? := none }, world, [], []⟩

/-- Hands waiting matches to their callbacks and counts them; a thread that is paused or abandoned
keeps them (`ScriptThread.dispatch_events`). -/
def dispatch (t : Thread L) (now : Millis) (world : L.World) :
    Activity L (Except ContextTerminated Nat) :=
  if t.isTerminated then ⟨.error ⟨t.pid⟩, t, world, [], []⟩
  else if t.abandoned || t.state.isPaused || t.events.pending = 0 then ⟨.ok 0, t, world, [], []⟩
  else
    let (count, c) := (t.context world).drain (t.caller now)
    t.activity (.ok count) c

/-- Steps until a step does not simply proceed or the budget is spent, at most `bound` times. -/
def runSteps (caller : Caller) (script : L.Script) :
    Nat → Context L → Option (StepEnd L.Condition) × Context L
  | 0, c => (none, c)
  | bound + 1, c =>
    if c.budget.isExhausted then (none, c)
    else
      match c.step caller script with
      | (.proceed, c) => runSteps caller script bound c
      | (last, c) => (some last, c)

/-- What the end of the last step means for the thread. -/
def settle (t : Thread L) (now : Millis) :
    Option (StepEnd L.Condition) → ResumeOutcome × Thread L
  | none => (.suspended, t)
  | some .proceed => (.suspended, t)
  | some (.wait millis condition?) =>
    (.suspended, { t with state := .delay now millis condition? })
  | some (.done values) => (.finished (.exited values), t.terminate)
  | some (.fault f) => (.finished (.errored f), t.terminate)
  | some (.panicked text?) => (.finished (.errored (.ofPanic text?)), t.terminate)

/-- Steps until the script waits, ends or has spent its budget (`ScriptThread.resume`). Every step
spends some of the budget, so what remains of it bounds their number. -/
def resume (t : Thread L) (now : Millis) (world : L.World) :
    Activity L (Except ContextTerminated ResumeOutcome) :=
  match t.script? with
  | none => ⟨.error ⟨t.pid⟩, t, world, [], []⟩
  | some script =>
    let c := t.context world
    let (last?, c) := runSteps (t.caller now) script c.budget.remaining c
    let (outcome, t) := (t.absorb c).settle now last?
    ⟨.ok outcome, t, c.world, c.status, c.requests⟩

/-- What a heartbeat leads to for an active thread. -/
inductive ServiceOutcome where
  /-- The thread may not step. -/
  | notEligible
  /-- The thread was resumed. -/
  | resumed (outcome : ResumeOutcome)
deriving Repr, DecidableEq

/-- What comes after the poll: a thread that may step is resumed, and one whose wait condition broke
down has ended. -/
def afterPoll (now : Millis) (answer : Except Fault Bool) (t : Thread L) (world : L.World) :
    Activity L ServiceOutcome :=
  match answer with
  | .error fault => ⟨.resumed (.finished (.errored fault)), t, world, [], []⟩
  | .ok false => ⟨.notEligible, t, world, [], []⟩
  | .ok true =>
    let a := t.resume now world
    match a.value with
    | .ok outcome => { a with value := .resumed outcome }
    | .error _ => { a with value := .resumed .suspended }

/-- A heartbeat of an active thread: a fresh allowance, the waiting matches if they are to be handed
out now, the poll, and the steps (`resume_thread`). -/
def service (t : Thread L) (turbo : Nat) (dispatchFirst : Bool) (now : Millis)
    (world : L.World) : Activity L ServiceOutcome :=
  let t := t.beginTick turbo
  let first : Activity L Unit :=
    if dispatchFirst then { t.dispatch now world with value := () } else ⟨(), t, world, [], []⟩
  (first.andThen fun _ t world => t.poll now world).andThen fun answer t world =>
    t.afterPoll now answer world

end Thread

end Heartbeat
