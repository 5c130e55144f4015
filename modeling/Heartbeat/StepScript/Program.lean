import Heartbeat.Text.Blank
import Heartbeat.Text.Lowercase

/-!
# Step script programs

A step script is a text of lines. A blank line and a line whose first character is `#` say nothing;
a line that starts with a colon gives a label to the next instruction; any other line is an
instruction, a keyword in any case and its arguments. Every label that a jump names is defined.

* `Program`: instructions with the numbers of their lines, and labels.
* `Program.parse`: reads a program, or says why it cannot and on which line.
* `ParseError.message`: the wording of the reasons.
-/

namespace Heartbeat.StepScript

open Heartbeat.Text

/-- An instruction (`Instr`). Texts that may refer to variables are kept as written. -/
inductive Instruction where
  | print (text : String)
  | set (var value : String)
  | unset (var : String)
  | incr (var : String)
  | event (name pattern : String)
  | unevent (name : String)
  | doEvents
  | delay (amount : String) (until? : Option String)
  | yield
  | goto (label : String)
  | ifSet (var label : String)
  | run (script : String) (args : List String)
  | stop (target? : Option String)
  | pause (target? : Option String)
  | leave (values : List String)
  | fail (message : String)
deriving Repr, DecidableEq

/-- The label that a jump names. -/
def Instruction.jump? : Instruction → Option String
  | .goto label => some label
  | .ifSet _ label => some label
  | _ => none

/-- An instruction and the number of its line, counted from one. -/
structure SourceInstruction where
  line : Nat
  instruction : Instruction
deriving Repr, DecidableEq

/-- Instructions in order, and the positions that labels stand for, in order of definition. -/
structure Program where
  code : List SourceInstruction
  labels : List (String × Nat)
deriving Repr, DecidableEq

namespace Program

/-- The program that says nothing. -/
def empty : Program := ⟨[], []⟩

/-- The number of instructions (`Program.len`). -/
def size (p : Program) : Nat := p.code.length

/-- The instruction at a position (`Program.get`). -/
def get? (p : Program) (index : Nat) : Option Instruction := p.code[index]?.map (·.instruction)

/-- The line of the instruction at a position, zero if there is none (`Program.line_of`). -/
def lineOf (p : Program) (index : Nat) : Nat :=
  match p.code[index]? with
  | some i => i.line
  | none => 0

/-- The position that a label stands for (`Program.label`). -/
def label? (p : Program) (name : String) : Option Nat :=
  (p.labels.find? (·.1 == name)).map Prod.snd

end Program

/-- Why a line, or a program, cannot be read. -/
inductive ParseFault where
  | badLabel (label : String)
  | duplicateLabel (label : String)
  | unknownLabel (label : String)
  | setWithoutName
  /-- Another number of arguments than the one that the keyword takes. -/
  | notOneArgument (keyword : String)
  | eventUsage
  | delayUsage
  | ifSetUsage
  | runWithoutScript
  /-- A keyword that is none, in lower case. -/
  | unknownInstruction (keyword : String)
deriving Repr, DecidableEq

/-- The wording of the reason. -/
def ParseFault.message : ParseFault → String
  | .badLabel label => s!"bad label '{label}'"
  | .duplicateLabel label => s!"duplicate label '{label}'"
  | .unknownLabel label => s!"unknown label '{label}'"
  | .setWithoutName => "set needs a variable name"
  | .notOneArgument keyword => s!"{keyword} takes exactly one argument"
  | .eventUsage => "event needs a name and a pattern"
  | .delayUsage => "usage: delay <duration> [until <var>]"
  | .ifSetUsage => "usage: ifset <var> <label>"
  | .runWithoutScript => "run needs a script"
  | .unknownInstruction keyword => s!"unknown instruction '{keyword}'"

/-- Why a program cannot be read, and the line at fault. -/
structure ParseError where
  line : Nat
  fault : ParseFault
deriving Repr, DecidableEq

/-- What is said of a text that is no program. -/
def ParseError.message (e : ParseError) : String := s!"line {e.line}: {e.fault.message}"

/-! ## Reading a line -/

/-- What a line says. -/
inductive LineContent where
  | nothing
  | label (name : String)
  | instruction (i : Instruction)
deriving Repr, DecidableEq

/-- The one argument of a keyword (`one_word`). -/
def oneArgument (keyword : String) : List String → Except ParseFault String
  | [arg] => .ok arg
  | _ => .error (.notOneArgument keyword)

/-- Cuts a text at its first blank; what follows is trimmed. -/
def cutAtBlank? (s : List Char) : Option (List Char × List Char) :=
  (splitAtBlank? s).map fun (before, after) => (before, trim after)

/-- Reads the instruction of a keyword in lower case; `rest` is the trimmed rest of its line. -/
def readInstruction (keyword : String) (rest : List Char) : Except ParseFault Instruction :=
  let args := (words rest).map String.ofList
  match keyword with
  | "print" => .ok (.print (String.ofList rest))
  | "set" =>
    let (var, value) := (cutAtBlank? rest).getD (rest, [])
    if var = [] then .error .setWithoutName
    else .ok (.set (String.ofList var) (String.ofList value))
  | "unset" => (oneArgument "unset" args).map .unset
  | "incr" => (oneArgument "incr" args).map .incr
  | "event" =>
    match cutAtBlank? rest with
    | some (name, pattern) => .ok (.event (String.ofList name) (String.ofList pattern))
    | none => .error .eventUsage
  | "unevent" => (oneArgument "unevent" args).map .unevent
  | "doevents" => .ok .doEvents
  | "delay" =>
    match args with
    | [amount] => .ok (.delay amount none)
    | [amount, word, var] =>
      if eqIgnoringCase word.toList ['u', 'n', 't', 'i', 'l'] then .ok (.delay amount (some var))
      else .error .delayUsage
    | _ => .error .delayUsage
  | "yield" => .ok .yield
  | "goto" => (oneArgument "goto" args).map .goto
  | "ifset" =>
    match args with
    | [var, label] => .ok (.ifSet var label)
    | _ => .error .ifSetUsage
  | "run" =>
    match args with
    | script :: args => .ok (.run script args)
    | [] => .error .runWithoutScript
  | "stop" => .ok (.stop args.head?)
  | "pause" => .ok (.pause args.head?)
  | "return" => .ok (.leave args)
  | "error" => .ok (.fail (String.ofList rest))
  | keyword => .error (.unknownInstruction keyword)

/-- Reads a label from what follows the colon. -/
def readLabel (s : List Char) : Except ParseFault String :=
  let label := trim s
  if label = [] ∨ label.any isBlank then .error (.badLabel (String.ofList label))
  else .ok (String.ofList label)

/-- Reads a line without blanks at its ends. -/
def readTrimmedLine : List Char → Except ParseFault LineContent
  | [] => .ok .nothing
  | '#' :: _ => .ok .nothing
  | ':' :: s => (readLabel s).map .label
  | s =>
    let (keyword, rest) := (cutAtBlank? s).getD (s, [])
    (readInstruction (String.ofList (lower keyword)) rest).map .instruction

/-- Reads a line. -/
def readLine (s : List Char) : Except ParseFault LineContent := readTrimmedLine (trim s)

/-! ## Reading a program -/

namespace Program

/-- Adds what a line says. -/
def add (p : Program) (number : Nat) : LineContent → Except ParseFault Program
  | .nothing => .ok p
  | .label name =>
    if (p.label? name).isSome then .error (.duplicateLabel name)
    else .ok { p with labels := p.labels ++ [(name, p.size)] }
  | .instruction i => .ok { p with code := p.code ++ [⟨number, i⟩] }

/-- Adds a line. -/
def addLine (p : Program) (number : Nat) (line : List Char) : Except ParseError Program :=
  match readLine line >>= p.add number with
  | .ok p => .ok p
  | .error fault => .error ⟨number, fault⟩

/-- Adds lines one after another; `number` is the number of the first. -/
def addLines (p : Program) (number : Nat) : List (List Char) → Except ParseError Program
  | [] => .ok p
  | line :: rest =>
    match p.addLine number line with
    | .ok p => p.addLines (number + 1) rest
    | .error e => .error e

/-- The error of an instruction that jumps to a label that is not defined. -/
def jumpError? (p : Program) (i : SourceInstruction) : Option ParseError :=
  match i.instruction.jump? with
  | some label => if (p.label? label).isSome then none else some ⟨i.line, .unknownLabel label⟩
  | none => none

/-- The program, if every label that a jump names is defined. -/
def checkJumps (p : Program) : Except ParseError Program :=
  match p.code.findSome? p.jumpError? with
  | some e => .error e
  | none => .ok p

/-- Reads a program (`parse_program`). -/
def parse (source : String) : Except ParseError Program :=
  empty.addLines 1 (lines source.toList) >>= checkJumps

end Program

end Heartbeat.StepScript
