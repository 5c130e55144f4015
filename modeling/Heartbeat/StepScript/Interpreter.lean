import Heartbeat.Script.Code
import Heartbeat.StepScript.Program
import Heartbeat.StepScript.Template

/-!
# Running step scripts

A step of a step script carries out one instruction. The memory of a script is the position of the
next instruction and the variables; the callbacks of its events and its wait conditions share the
variables. Before the first step the variable `0` gets the name of the script, `1`, `2`, … its
arguments and `pid` its process identifier.

* `Memory.advance`: the memory with which the instruction at the current position starts.
* `execute`: what an instruction does.
* `step`, `respond`: a step, and the answer of an event to a match.
* `language`: step scripts as a language, in any world.
-/

namespace Heartbeat.StepScript

open Heartbeat.Text

/-- The position of the next instruction, the variables, and whether the arguments were stored
(`StepScript`). -/
structure Memory where
  index : Nat := 0
  vars : Variables := []
  seeded : Bool := false
deriving Repr, DecidableEq

/-- The callback of an event: it stores the captures and counts in a variable named as the event. -/
structure HitCounter where
  event : String
deriving Repr, DecidableEq

/-- The condition that a variable is set. -/
structure VariableSet where
  name : String
deriving Repr, DecidableEq

/-- Why an instruction ends the script. -/
inductive InstructionFault where
  | raised (message : String)
  | badDelay (error : DurationError)
  /-- A wait of more milliseconds than 64 bits hold. -/
  | delayTooLong (amount : String)
  | notANumber (var value : String)
  /-- A jump to a label that the program does not define; programs that were read have none. -/
  | unknownLabel (label : String)
deriving Repr, DecidableEq

/-- The wording of the reason. -/
def InstructionFault.message : InstructionFault → String
  | .raised message => message
  | .badDelay error => error.message
  | .delayTooLong amount => s!"delay '{amount}' is too long"
  | .notANumber var value => s!"'{var}' is not a number: {value}"
  | .unknownLabel label => s!"unknown label '{label}'"

/-- The fault of the instruction on a line. -/
def InstructionFault.at (reason : InstructionFault) (line : Nat) : Fault :=
  ⟨reason.message, some s!"line {line}"⟩

/-- What a breakdown by counting too far says. -/
def overflowText : String := "attempt to add with overflow"

/-- Numbers the arguments from one on and stores them. -/
def storeArguments (vars : Variables) : Nat → List String → Variables
  | _, [] => vars
  | n, arg :: args => storeArguments (vars.set (toString n) arg) (n + 1) args

namespace Memory

/-- Stores the name, the arguments and the process identifier (`seed_args`). -/
def seed (m : Memory) (caller : Caller) : Memory :=
  { m with
    vars :=
      (storeArguments (m.vars.set "0" caller.name) 1 caller.args).set "pid"
        (toString caller.pid)
    seeded := true }

/-- The memory with the arguments stored. -/
def ready (m : Memory) (caller : Caller) : Memory := if m.seeded then m else m.seed caller

/-- The memory in which the next instruction runs: the position is behind it already. -/
def advance (m : Memory) : Memory := { m with index := m.index + 1 }

/-- Gives a variable a value. -/
def set (m : Memory) (name value : String) : Memory :=
  { m with vars := m.vars.set name value }

/-- A text with the values of the variables in place of the references (`StepScript.interpolate`).
-/
def interpolate (m : Memory) (text : String) : String := StepScript.interpolate m.vars text

/-- Stores captures under their names. -/
def storeCaptures (m : Memory) (captures : Captures) : Memory :=
  { m with vars := captures.foldl (fun vars (name, text) => vars.set name text) m.vars }

end Memory

/-- The length of a wait (`parse_wait`). -/
def readWait (amount : String) : Except InstructionFault Millis :=
  match Duration.parse amount with
  | .error e => .error (.badDelay e)
  | .ok millis => if maxWord64 < millis then .error (.delayTooLong amount) else .ok millis

/-- The target of a request; without one, or without a readable one, the own thread
(`control_target`). -/
def requestTarget (m : Memory) (caller : Caller) (text? : Option String) : Target :=
  (text?.bind fun text => Target.parse? (m.interpolate text)).getD (.pid caller.pid)

variable {W : Type}

/-- The code of step scripts. -/
abbrev StepCode (W : Type) := Code Memory W HitCounter (StepEnd VariableSet)

/-- The variable goes up by one; one that is not set counts as zero. -/
def increment (m : Memory) (line : Nat) (var : String) : StepCode W :=
  match m.vars.get? var with
  | none => .store (m.set var "1") (.finish .proceed)
  | some value =>
    match readInt? maxInt64 value.toList with
    | none => .finish (.fault ((InstructionFault.notANumber var value).at line))
    | some n =>
      if n = maxInt64 then .finish (.panicked (some overflowText))
      else .store (m.set var (toString (n + 1))) (.finish .proceed)

/-- The position of a label becomes the next one (`StepScript.jump`). -/
def jump (program : Program) (m : Memory) (line : Nat) (label : String) : StepCode W :=
  match program.label? label with
  | some index => .store { m with index := index } (.finish .proceed)
  | none => .finish (.fault ((InstructionFault.unknownLabel label).at line))

/-- What an instruction does; `m` is the memory in which it runs. -/
def execute (program : Program) (caller : Caller) (m : Memory) (line : Nat) :
    Instruction → StepCode W
  | .print text => .print (m.interpolate text) (.finish .proceed)
  | .set var value => .store (m.set var (m.interpolate value)) (.finish .proceed)
  | .unset var => .store { m with vars := m.vars.unset var } (.finish .proceed)
  | .incr var => increment m line var
  | .event name pattern =>
    .register name (m.interpolate pattern) ⟨name⟩ fun
      | none => .finish .proceed
      | some e => .print s!"event '{name}' not registered: {e.message}" (.finish .proceed)
  | .unevent name => .unregister name fun _ => .finish .proceed
  | .doEvents => .dispatchEvents fun _ => .finish .proceed
  | .delay amount until? =>
    match readWait (m.interpolate amount) with
    | .error reason => .finish (.fault (reason.at line))
    | .ok millis => .finish (.wait millis (until?.map VariableSet.mk))
  | .yield => .finish (.wait 0 none)
  | .goto label => jump program m line label
  | .ifSet var label =>
    if m.vars.isSet var then jump program m line label else .finish .proceed
  | .run script args =>
    .request (.run (m.interpolate script) (args.map m.interpolate)) (.finish .proceed)
  | .stop target? => .request (.stop (requestTarget m caller target?)) (.finish .proceed)
  | .pause target? => .request (.pause (requestTarget m caller target?)) (.finish .proceed)
  | .leave values => .finish (.done (values.map m.interpolate))
  | .fail message => .finish (.fault ((InstructionFault.raised (m.interpolate message)).at line))

/-- One step: the next instruction, or the end of the script behind the last one
(`StepScript.step`). -/
def step (program : Program) (caller : Caller) : StepCode W :=
  .recall fun m =>
    let m := m.ready caller
    match program.code[m.index]? with
    | none => .store m (.finish (.done []))
    | some ⟨line, instruction⟩ =>
      .store m.advance (execute program caller m.advance line instruction)

/-- The number of hits that a counter shows; a counter that is not set or shows no number counts as
zero. -/
def hits (m : Memory) (counter : HitCounter) : Nat :=
  ((m.vars.get? counter.event).bind fun value => readNat? maxWord64 value.toList).getD 0

/-- The answer of an event to a match: the captures are stored, then the counter goes up. -/
def respond (counter : HitCounter) (captures : Captures) :
    Code Memory W HitCounter CallbackEnd :=
  .recall fun m =>
    let m := m.storeCaptures captures
    if hits m counter = maxWord64 then
      .store m (.finish (.fault (.panicked (some overflowText))))
    else .store (m.set counter.event (toString (hits m counter + 1))) (.finish .success)

/-- Step scripts as a language, in a world that they do not look at and on any engine. -/
def language (W : Type) (engine : PatternEngine := .boundless) : Language where
  Script := Program
  Memory := Memory
  World := W
  Callback := HitCounter
  Condition := VariableSet
  engine := engine
  ofProgram := id
  boot _ := {}
  step := step
  respond counter captures _ := respond counter captures
  evaluate condition here := (.known (here.1.vars.isSet condition.name), here)

end Heartbeat.StepScript
