import Heartbeat.Target
import Heartbeat.ThreadStatus

/-!
# Host events

A host gets lines of input. A line that starts with a slash is a command, `/run`, `/parse`,
`/stop`, `/pause`, `/ps`, `/info` or `/quit`, in any case; any other line is text for the scripts.

* `HostEvent.ofLine`: reads a line, or says why it cannot.
* `HostLineError.message`: the wording of the reasons.
-/

namespace Heartbeat

open Heartbeat.Text

/-- What a line of input asks of the host. -/
inductive HostEvent where
  /-- A line of text for the scripts. -/
  | text (line : String)
  | run (script : String) (args : List String)
  /-- Start the script of a source text. -/
  | parse (source : String)
  | stop (target : Target)
  | pause (target : Target)
  /-- Show the processes of some statuses, those of live threads if none are given. -/
  | list (statuses? : Option (List ThreadStatus))
  | info (target : Target)
  /-- Stop all scripts and end after one more heartbeat. -/
  | shutdown
deriving Repr, DecidableEq

/-- Why a line is no command. -/
inductive HostLineError where
  | runUsage
  | parseUsage
  /-- A text that is no status, in lower case. -/
  | invalidStatus (text : String)
  /-- A command that is none, in lower case. -/
  | unknownCommand (verb : String)
deriving Repr, DecidableEq

/-- The wording of the reason. -/
def HostLineError.message : HostLineError → String
  | .runUsage => "usage: /run <script> [args..]"
  | .parseUsage => "usage: /parse <source>"
  | .invalidStatus text => ThreadStatus.invalidMessage text
  | .unknownCommand verb => s!"unknown command '/{verb}'"

namespace HostEvent

/-- A source text on one line: a backslash and an `n` stand for a line feed. -/
def unfoldLines : List Char → List Char
  | '\\' :: 'n' :: s => '\n' :: unfoldLines s
  | c :: s => c :: unfoldLines s
  | [] => []

/-- Reads statuses; the first text that is none is given back. -/
def readStatuses : List String → Except String (List ThreadStatus)
  | [] => .ok []
  | word :: rest =>
    match ThreadStatus.parse word with
    | .error unknown => .error unknown
    | .ok status => (status :: ·) <$> readStatuses rest

/-- The target of a command: all scripts if the rest of the line is blank. -/
def targetOf (rest : List Char) : Target :=
  if rest = [] then .all else Target.ofOptional (some (String.ofList rest))

/-- Reads a command from its verb in lower case and the trimmed rest of the line. -/
def ofCommand (verb : String) (rest : List Char) : Except HostLineError HostEvent :=
  match verb with
  | "run" =>
    match (words rest).map String.ofList with
    | script :: args => .ok (.run script args)
    | [] => .error .runUsage
  | "parse" =>
    if rest = [] then .error .parseUsage
    else .ok (.parse (String.ofList (unfoldLines rest)))
  | "stop" => .ok (.stop (targetOf rest))
  | "pause" => .ok (.pause (targetOf rest))
  | "ps" =>
    if rest = [] then .ok (.list none)
    else
      match readStatuses ((words rest).map String.ofList) with
      | .ok statuses => .ok (.list (some statuses))
      | .error unknown => .error (.invalidStatus unknown)
  | "info" => .ok (.info (targetOf rest))
  | "quit" => .ok .shutdown
  | "exit" => .ok .shutdown
  | verb => .error (.unknownCommand verb)

/-- Reads a line of input (`HostEvent.from_line`). -/
def ofLine (line : String) : Except HostLineError HostEvent :=
  match line.toList with
  | '/' :: command =>
    let command := trim command
    let (verb, rest) :=
      match splitAtBlank? command with
      | some (verb, rest) => (verb, trim rest)
      | none => (command, [])
    ofCommand (String.ofList (lower verb)) rest
  | _ => .ok (.text line)

end HostEvent

end Heartbeat
