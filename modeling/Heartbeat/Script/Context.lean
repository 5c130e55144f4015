import Heartbeat.Budget
import Heartbeat.Event.Processor
import Heartbeat.Script.Code
import Heartbeat.StatusEvent

/-!
# Running code

Code runs in a context: the parts of its thread that it can reach, the world, and what it leaves
behind for the host and the scheduler.

* `Context.run`: carries out the actions of code.
* `Context.respond`: runs the callback of a match, which cannot hand out matches itself.
* `Context.drain`: hands the waiting matches to their callbacks, the oldest first, one step of
  budget each; a callback that goes wrong is reported and the rest still run.
* `Context.step`: one step of a script.
-/

namespace Heartbeat

/-- What the code of a thread can reach (`ScriptContext`). -/
structure Context (L : Language) where
  events : EventProcessor L.Callback
  budget : Budget
  memory : L.Memory
  world : L.World
  /-- News for the host, the oldest first. -/
  status : List StatusEvent
  /-- Requests to the scheduler, the oldest first. -/
  requests : List Request

namespace Context

variable {L : Language} {α : Type}

/-- Reports on the thread. -/
def report (caller : Caller) (c : Context L) (news : ThreadReport) : Context L :=
  { c with status := c.status ++ [.thread caller.pid caller.name news] }

/-- Whether a request stops or pauses the thread that makes it (`targets_self`). -/
def aimsAtSelf (caller : Caller) : Request → Bool
  | .stop target => target.includes caller.pid caller.name
  | .pause target => target.includes caller.pid caller.name
  | .run _ _ => false

/-- Leaves a request (`ScriptContext.stop`, `ScriptContext.pause`, `ScriptContext.run`). One that
stops or pauses the own thread takes the rest of its budget. -/
def leave (caller : Caller) (c : Context L) (request : Request) : Context L :=
  { c with
    budget := if aimsAtSelf caller request then c.budget.close else c.budget
    requests := c.requests ++ [request] }

/-- Charges the budget (`ScriptContext.consume`). -/
def charge (c : Context L) (steps : Nat) : Context L := { c with budget := c.budget.charge steps }

/-- Carries out the actions of code; `drain` hands out the waiting matches. -/
def run (caller : Caller) (drain : Context L → Nat × Context L) :
    Code L.Memory L.World L.Callback α → Context L → α × Context L
  | .finish a, c => (a, c)
  | .print text next, c => run caller drain next (c.report caller (.output text))
  | .register name pattern callback next, c =>
    match c.events.register L.engine name pattern callback with
    | .ok events => run caller drain (next none) { c with events := events }
    | .error e => run caller drain (next (some e)) c
  | .unregister name next, c =>
    let (found, events) := c.events.unregister name
    run caller drain (next found) { c with events := events }
  | .pending next, c => run caller drain (next c.events.pending) c
  | .dispatchEvents next, c =>
    let (count, c) := drain c
    run caller drain (next count) c
  | .consume steps next, c => run caller drain next (c.charge steps)
  | .remaining next, c => run caller drain (next c.budget.remaining) c
  | .request request next, c => run caller drain next (c.leave caller request)
  | .recall next, c => run caller drain (next c.memory) c
  | .store memory next, c => run caller drain next { c with memory := memory }
  | .observe next, c => run caller drain (next c.world) c
  | .affect world next, c => run caller drain next { c with world := world }

/-- What asking for matches does while matches are handed out already: nothing. -/
def alreadyDraining (c : Context L) : Nat × Context L := (0, c)

/-- Runs the callback of a match and reports it if it goes wrong (`PendingEvent.invoke`). -/
def respond (caller : Caller) (entry : PendingEvent L.Callback) (c : Context L) : Context L :=
  let code := L.respond entry.definition.callback entry.captures caller
  match run caller alreadyDraining code c with
  | (.success, c) => c
  | (.fault fault, c) => c.report caller (.callbackFaulted entry.name fault)

/-- Hands out at most `bound` matches, and counts them. -/
def drainWithin (caller : Caller) : Nat → Context L → Nat × Context L
  | 0, c => (0, c)
  | bound + 1, c =>
    match c.events.pop? with
    | none => (0, c)
    | some (entry, events) =>
      let c := (({ c with events := events } : Context L).charge 1).respond caller entry
      let (count, c) := drainWithin caller bound c
      (count + 1, c)

/-- Hands the waiting matches to their callbacks, and counts them (`do_events`). No callback adds to
them, so their number at the start bounds the work. -/
def drain (caller : Caller) (c : Context L) : Nat × Context L :=
  drainWithin caller c.events.pending c

/-- One step of a script (`Script.step`). -/
def step (caller : Caller) (script : L.Script) (c : Context L) : StepEnd L.Condition × Context L :=
  run caller (drain caller) (L.step script caller) (c.charge 1)

end Context

end Heartbeat
