import Heartbeat.ExecutionState
import Heartbeat.Fault
import Heartbeat.Pattern.Captures
import Heartbeat.Pattern.Reader
import Heartbeat.StepScript.Program
import Heartbeat.Target

/-!
# What scripts may do

A script runs in steps. The code of a step acts on its own thread: it prints, registers events, asks
for its queued matches to be handed out, looks at its budget, and leaves requests for the scheduler.
It may also read and write a memory of its own and a world that all scripts share. Nothing else is
within its reach.

* `Code`: a run of actions that ends with a result; `Code.bind` puts runs in a row.
* `StepEnd`, `CallbackEnd`: how a step and a callback end.
* `Language`: what scripts, callbacks and wait conditions are, and the code they stand for.
-/

namespace Heartbeat

/-- Something that a script asks of the scheduler; it is carried out once the script has paused in
its work (`ControlRequest`). -/
inductive Request where
  | stop (target : Target)
  | pause (target : Target)
  | run (script : String) (args : List String)
deriving Repr, DecidableEq

/-- What code knows of the thread that it runs in. -/
structure Caller where
  pid : Pid
  name : String
  args : List String
  /-- The time of this heartbeat. -/
  now : Millis
deriving Repr, DecidableEq

/-- The actions of code in a row, ended by a result. Code of a memory type `M` and a world type `W`
registers callbacks of a type `K` and ends with a value of a type `α`. -/
inductive Code (M W K α : Type) where
  | finish (value : α)
  | print (text : String) (next : Code M W K α)
  | register (name pattern : String) (callback : K) (next : Option PatternError → Code M W K α)
  | unregister (name : String) (next : Bool → Code M W K α)
  /-- Asks how many matches wait. -/
  | pending (next : Nat → Code M W K α)
  /-- Hands the waiting matches to their callbacks and tells how many there were. -/
  | dispatchEvents (next : Nat → Code M W K α)
  /-- Charges the budget with extra steps. -/
  | consume (steps : Nat) (next : Code M W K α)
  /-- Asks for the steps that are left. -/
  | remaining (next : Nat → Code M W K α)
  | request (request : Request) (next : Code M W K α)
  | recall (next : M → Code M W K α)
  | store (memory : M) (next : Code M W K α)
  | observe (next : W → Code M W K α)
  | affect (world : W) (next : Code M W K α)

namespace Code

variable {M W K L α β : Type}

/-- Code followed by code that depends on its result. -/
def bind : Code M W K α → (α → Code M W K β) → Code M W K β
  | .finish a, f => f a
  | .print text next, f => .print text (next.bind f)
  | .register name pattern callback next, f =>
    .register name pattern callback fun answer => (next answer).bind f
  | .unregister name next, f => .unregister name fun answer => (next answer).bind f
  | .pending next, f => .pending fun answer => (next answer).bind f
  | .dispatchEvents next, f => .dispatchEvents fun answer => (next answer).bind f
  | .consume steps next, f => .consume steps (next.bind f)
  | .remaining next, f => .remaining fun answer => (next answer).bind f
  | .request r next, f => .request r (next.bind f)
  | .recall next, f => .recall fun memory => (next memory).bind f
  | .store memory next, f => .store memory (next.bind f)
  | .observe next, f => .observe fun world => (next world).bind f
  | .affect world next, f => .affect world (next.bind f)

instance : Monad (Code M W K) where
  pure := .finish
  bind := Code.bind

/-- The same code with other callbacks. -/
def mapCallbacks (g : K → L) : Code M W K α → Code M W L α
  | .finish a => .finish a
  | .print text next => .print text (next.mapCallbacks g)
  | .register name pattern callback next =>
    .register name pattern (g callback) fun answer => (next answer).mapCallbacks g
  | .unregister name next => .unregister name fun answer => (next answer).mapCallbacks g
  | .pending next => .pending fun answer => (next answer).mapCallbacks g
  | .dispatchEvents next => .dispatchEvents fun answer => (next answer).mapCallbacks g
  | .consume steps next => .consume steps (next.mapCallbacks g)
  | .remaining next => .remaining fun answer => (next answer).mapCallbacks g
  | .request r next => .request r (next.mapCallbacks g)
  | .recall next => .recall fun memory => (next memory).mapCallbacks g
  | .store memory next => .store memory (next.mapCallbacks g)
  | .observe next => .observe fun world => (next world).mapCallbacks g
  | .affect world next => .affect world (next.mapCallbacks g)

/-- Changes the world. -/
def modifyWorld (change : W → W) : Code M W K Unit :=
  .observe fun world => .affect (change world) (.finish ())

end Code

/-- How a step ends (`Step`). Conditions are of a type `C`. -/
inductive StepEnd (C : Type) where
  /-- The script goes on with another step if its budget allows. -/
  | proceed
  /-- The script waits. -/
  | wait (millis : Millis) (condition? : Option C)
  /-- The script is done. -/
  | done (values : List String)
  | fault (fault : Fault)
  /-- The step broke down. -/
  | panicked (text? : Option String)
deriving Repr, DecidableEq

/-- The same end with other conditions. -/
def StepEnd.map {C D : Type} (g : C → D) : StepEnd C → StepEnd D
  | .proceed => .proceed
  | .wait millis condition? => .wait millis (condition?.map g)
  | .done values => .done values
  | .fault f => .fault f
  | .panicked text? => .panicked text?

/-- How a callback ends (`EventCallback`). -/
inductive CallbackEnd where
  | success
  | fault (fault : CallbackFault)
deriving Repr, DecidableEq

/-- A kind of scripts: what scripts, their memories, callbacks and wait conditions are, what world
they share, what engine matches lines for them, and what code they stand for (`Script`). -/
structure Language where
  Script : Type
  Memory : Type
  World : Type
  Callback : Type
  Condition : Type
  engine : PatternEngine
  /-- The script that a step script program becomes. -/
  ofProgram : StepScript.Program → Script
  /-- The memory that a script starts with. -/
  boot : Script → Memory
  /-- One step of a script. -/
  step : Script → Caller → Code Memory World Callback (StepEnd Condition)
  /-- The answer of a callback to a match. -/
  respond : Callback → Captures → Caller → Code Memory World Callback CallbackEnd
  /-- The evaluation of a wait condition. -/
  evaluate : Condition → Memory × World → Verdict × (Memory × World)

end Heartbeat
