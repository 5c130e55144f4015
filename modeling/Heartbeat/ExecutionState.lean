import Heartbeat.Duration
import Heartbeat.ThreadStatus

/-!
# Running, waiting and paused

A thread runs, or waits, or is paused. A wait lasts until a time and then until its condition holds,
if it has one. A paused thread keeps its wait and goes on with it when it is resumed.

* `ExecutionState.poll`: whether the thread may run; a wait that is over is given up.
* `ExecutionState.pause`, `resume`, `toggle`, `wake`, `delay`: the other transitions.

A condition is a value of a type `κ`; whoever polls says how to evaluate one on a state `σ`.
-/

namespace Heartbeat

/-- A wait: not before a time, and only once the condition holds (`Delay`). -/
structure Wait (κ : Type) where
  deadline : Millis
  condition? : Option κ
deriving Repr, DecidableEq

/-- Whether a thread runs, waits or is paused. -/
inductive ExecutionState (κ : Type) where
  | running
  | delayed (wait : Wait κ)
  /-- The wait that was on when the thread was paused is kept. -/
  | paused (saved? : Option (Wait κ))
deriving Repr, DecidableEq

/-- What evaluating a condition gives. -/
inductive Verdict where
  /-- The condition holds or does not hold. -/
  | known (holds : Bool)
  /-- The evaluation broke down, with a text if it left one. -/
  | panicked (text? : Option String)
deriving Repr, DecidableEq

namespace ExecutionState

variable {κ σ : Type}

/-- Whether the thread may run at a time (`ExecutionState.poll_eligible`). A wait that is over gives
way to running; one whose condition breaks down stays. -/
def poll (check : κ → σ → Verdict × σ) (now : Millis) (s : ExecutionState κ) (world : σ) :
    Verdict × ExecutionState κ × σ :=
  match s with
  | .running => (.known true, .running, world)
  | .paused saved? => (.known false, .paused saved?, world)
  | .delayed wait =>
    if now < wait.deadline then (.known false, .delayed wait, world)
    else match wait.condition? with
      | none => (.known true, .running, world)
      | some condition =>
        match check condition world with
        | (.known true, world) => (.known true, .running, world)
        | (verdict, world) => (verdict, .delayed wait, world)

/-- Enters a wait that starts now (`ExecutionState.delay`). -/
def delay (now millis : Millis) (condition? : Option κ) : ExecutionState κ :=
  .delayed ⟨now.after millis, condition?⟩

/-- Gives up the wait (`ExecutionState.wake`). -/
def wake : ExecutionState κ → ExecutionState κ
  | .delayed _ => .running
  | .paused _ => .paused none
  | .running => .running

/-- Whether the thread is paused (`ExecutionState.is_paused`). -/
def isPaused : ExecutionState κ → Bool
  | .paused _ => true
  | _ => false

/-- Whether the thread waits (`ExecutionState.is_delayed`). -/
def isDelayed : ExecutionState κ → Bool
  | .delayed _ => true
  | _ => false

/-- Pauses the thread; a paused one stays as it is (`ExecutionState.pause`). -/
def pause : ExecutionState κ → ExecutionState κ
  | .running => .paused none
  | .delayed wait => .paused (some wait)
  | .paused saved? => .paused saved?

/-- Takes up what a pause interrupted; a thread that is not paused stays as it is
(`ExecutionState.resume`). -/
def resume : ExecutionState κ → ExecutionState κ
  | .paused (some wait) => .delayed wait
  | .paused none => .running
  | s => s

/-- Pauses the thread, or resumes it if it is paused (`ExecutionState.toggle_pause`). -/
def toggle (s : ExecutionState κ) : ExecutionState κ := if s.isPaused then s.resume else s.pause

/-- The steps that the state may spend of an allowance (`ExecutionState.budget`). -/
def allowance (turbo : Nat) : ExecutionState κ → Nat
  | .paused _ => 0
  | _ => turbo

/-- The status that a listing shows for the state (`ExecutionState.status`). -/
def status : ExecutionState κ → ThreadStatus
  | .paused _ => .paused
  | _ => .running

end ExecutionState

end Heartbeat
