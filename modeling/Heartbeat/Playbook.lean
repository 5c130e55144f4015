import Heartbeat.StepScript.Interpreter

/-!
# Playbooks

A playbook is a script that is given as the list of what its steps do, action by action. Playbooks
share a stage: a set of flags that their wait conditions look at, and a journal in which they note
what happens. They exercise everything that a script may do, and step scripts run beside them.

* `Playbook`: the steps, and whether they start over behind the last one.
* `Stage`: flags and journal.
* `Playbook.step`, `Reaction.respond`: the code of a step and of a callback.
* `ensemble`: playbooks and step scripts as one language.
-/

namespace Heartbeat

open Heartbeat.Text

namespace Playbook

/-- How a reaction to a match ends. -/
inductive ReactionEnd where
  | success
  /-- A failure, and what it was wrapped in, the innermost first. -/
  | failure (cause : String) (contexts : List String)
  | panic (text? : Option String)
deriving Repr, DecidableEq

mutual

/-- Something that a playbook does in a step. -/
inductive Action where
  | print (text : String)
  | register (name pattern : String) (reaction : Reaction)
  | unregister (name : String)
  | pending
  | doEvents
  | consume (steps : Nat)
  | remaining
  | who
  | stop (target : Target)
  /-- Stops the own thread. -/
  | leave
  | pause (target : Target)
  | run (script : String) (args : List String)
  | flag (name : String)
  | unflag (name : String)
  | log (text : String)

/-- What a playbook does on a match of one of its events. -/
inductive Reaction where
  | mk (actions : List Action) (ending : ReactionEnd)

end

/-- A condition that a playbook waits for. -/
inductive Condition where
  /-- A flag is set; each look at it is noted in the journal. -/
  | flag (name : String)
  /-- Looking breaks down. -/
  | panic (text : String)
deriving Repr, DecidableEq

/-- A step: what is done, and how it ends. -/
structure Cue where
  actions : List Action
  ending : StepEnd Condition

/-- Something that is noted in the journal. -/
inductive JournalEntry where
  | registered (name : String) (error? : Option PatternError)
  | unregistered (name : String) (found : Bool)
  | pending (count : Nat)
  | doEvents (count : Nat)
  | remaining (steps : Nat)
  | who (caller : Caller)
  | log (text : String)
  /-- A reaction to a match began. -/
  | reaction (event : String) (captures : Captures)
  /-- A condition was looked at. -/
  | condition (flag : String)
deriving Repr, DecidableEq

/-- What playbooks share. -/
structure Stage where
  flags : List String := []
  /-- The notes, the oldest first. -/
  journal : List JournalEntry := []
deriving Repr, DecidableEq

namespace Stage

/-- Whether a flag is set. -/
def isSet (s : Stage) (name : String) : Bool := s.flags.contains name

/-- Sets a flag. -/
def flag (s : Stage) (name : String) : Stage :=
  if s.isSet name then s else { s with flags := name :: s.flags }

/-- Takes a flag back. -/
def unflag (s : Stage) (name : String) : Stage := { s with flags := s.flags.filter (· != name) }

/-- Notes something. -/
def note (s : Stage) (entry : JournalEntry) : Stage := { s with journal := s.journal ++ [entry] }

end Stage

/-- The reaction to the matches of an event. -/
structure Listener where
  event : String
  reaction : Reaction

/-- The callbacks of playbooks and of the step scripts beside them. -/
inductive Callback where
  | listener (listener : Listener)
  | counter (counter : StepScript.HitCounter)

/-- The code of playbooks; of the memory they use the position alone. -/
abbrev PlayCode (α : Type) := Code StepScript.Memory Stage Callback α

/-- Notes something in the journal. -/
def note (entry : JournalEntry) : PlayCode Unit := .modifyWorld (·.note entry)

/-- The code of an action. -/
def perform (caller : Caller) : Action → PlayCode Unit
  | .print text => .print text (.finish ())
  | .register name pattern reaction =>
    .register name pattern (.listener ⟨name, reaction⟩) fun error? =>
      note (.registered name error?)
  | .unregister name => .unregister name fun found => note (.unregistered name found)
  | .pending => .pending fun count => note (.pending count)
  | .doEvents => .dispatchEvents fun count => note (.doEvents count)
  | .consume steps => .consume steps (.finish ())
  | .remaining => .remaining fun steps => note (.remaining steps)
  | .who => note (.who caller)
  | .stop target => .request (.stop target) (.finish ())
  | .leave => .request (.stop (.pid caller.pid)) (.finish ())
  | .pause target => .request (.pause target) (.finish ())
  | .run script args => .request (.run script args) (.finish ())
  | .flag name => .modifyWorld (·.flag name)
  | .unflag name => .modifyWorld (·.unflag name)
  | .log text => note (.log text)

/-- The code of actions in a row. -/
def performAll (caller : Caller) : List Action → PlayCode Unit
  | [] => .finish ()
  | action :: rest => (perform caller action).bind fun _ => performAll caller rest

/-- A failure as it is reported: what it was wrapped in stands before it, the outermost first. -/
def failureText (cause : String) (contexts : List String) : String :=
  ": ".intercalate (cause :: contexts).reverse

/-- How a callback ends. -/
def ReactionEnd.result : ReactionEnd → CallbackEnd
  | .success => .success
  | .failure cause contexts => .fault (.failed (failureText cause contexts))
  | .panic text? => .fault (.panicked text?)

/-- The code of a reaction to a match. -/
def Listener.respond (l : Listener) (captures : Captures) (caller : Caller) :
    PlayCode CallbackEnd :=
  match l.reaction with
  | .mk actions ending =>
    (note (.reaction l.event captures)).bind fun _ =>
      (performAll caller actions).bind fun _ => .finish ending.result

/-- The look at a condition. -/
def Condition.evaluate (stage : Stage) : Condition → Verdict × Stage
  | .flag name => (.known (stage.isSet name), stage.note (.condition name))
  | .panic text => (.panicked (some text), stage)

end Playbook

/-- A script that is given as a list of steps (`FnScript`). -/
structure Playbook where
  cues : List Playbook.Cue
  /-- Whether the steps start over behind the last one. -/
  loop : Bool

namespace Playbook

/-- The step at a position, and the position behind it. -/
def cueAt? (b : Playbook) (index : Nat) : Option (Cue × Nat) :=
  match b.cues[index]? with
  | some cue => some (cue, index + 1)
  | none => if b.loop then b.cues.head?.map (·, 1) else none

/-- The code of a step; behind the last one the script is done. -/
def step (b : Playbook) (caller : Caller) : PlayCode (StepEnd Condition) :=
  .recall fun memory =>
    match b.cueAt? memory.index with
    | none => .finish (.done [])
    | some (cue, next) =>
      .store { memory with index := next }
        ((performAll caller cue.actions).bind fun _ => .finish cue.ending)

/-- A script of the ensemble. -/
inductive Part where
  | playbook (book : Playbook)
  | program (program : StepScript.Program)

/-- A wait condition of the ensemble. -/
inductive PartCondition where
  | stage (condition : Condition)
  | variable (condition : StepScript.VariableSet)
deriving Repr, DecidableEq

/-- Playbooks and step scripts as one language, on any engine. -/
def ensemble (engine : PatternEngine := .boundless) : Language where
  Script := Part
  Memory := StepScript.Memory
  World := Stage
  Callback := Callback
  Condition := PartCondition
  engine := engine
  ofProgram := .program
  boot _ := {}
  step
    | .playbook book, caller => (book.step caller).bind fun e => .finish (e.map .stage)
    | .program program, caller =>
      ((StepScript.step program caller).mapCallbacks .counter).bind fun e =>
        .finish (e.map .variable)
  respond
    | .listener listener, captures, caller => listener.respond captures caller
    | .counter counter, captures, _ => (StepScript.respond counter captures).mapCallbacks .counter
  evaluate
    | .stage condition, (memory, stage) =>
      let (verdict, stage) := condition.evaluate stage
      (verdict, memory, stage)
    | .variable condition, here => (.known (here.1.vars.isSet condition.name), here)

end Playbook

end Heartbeat
