import Heartbeat.CommandLine.Session
import Std.Time.DateTime.Timestamp

/-!
# The program

The outer layer: it reads the command line, the configuration file, scripts and the input, waits for
the heartbeats, and prints. What it prints and does is decided by `Heartbeat.CommandLine` and by
`Host`.

A script file is read when a start asks for it: what asks is carried out anew with the files that it
found missing.
-/

namespace Heartbeat.CommandLine

/-- The scripts of the program. Its engine takes every expression. -/
abbrev programScripts : Language := scripts .boundless

/-- The time in milliseconds (`SystemClock.now_millis`). -/
def currentTime : IO Millis := do
  return (← Std.Time.Timestamp.now).toMillisecondsSinceUnixEpoch.val.toNat

/-- What stands in the place of a file (`load_from_path`). -/
def readSource (path : String) : IO SettingsSource := do
  try
    return .text (← IO.FS.readFile path)
  catch
    | .noFileOrDirectory .. => return .missing
    | _ => return .unreadable

/-- Reads the files that an identity may name and adds those that are new. -/
def readCandidates (library : ScriptLibrary) (identity : String) (searchPath : List ScriptPath) :
    IO ScriptLibrary := do
  let mut library := library
  for path in library.allCandidates identity searchPath do
    if (library.find? path).isNone then
      try
        library := library.addFile path (← IO.FS.readFile path.text)
      catch _ => pure ()
  return library

/-- Carries out work that starts scripts. Starts that found no file are tried again with the files
that are there. -/
partial def withFiles {α : Type} (library : ScriptLibrary) (work : ScriptLibrary → α)
    (news : α → List StatusEvent) : IO α := do
  let result := work library
  let mut more := library
  for event in news result do
    if let .refused (.start (.notFound identity searchPath)) := event then
      more ← readCandidates more identity searchPath
  if more.files.files.length = library.files.files.length then return result
  else withFiles more work news

/-- Prints news. -/
def printNews (news : List StatusEvent) : IO Unit := do
  let output ← IO.getStdout
  for event in news do
    output.putStrLn event.shown
  output.flush

/-- What is going on while the host works. -/
structure Work where
  /-- The library without any files. -/
  library : ScriptLibrary
  host : Host programScripts
  nextBeat : Millis
  /-- The line that is being read, while there is input. -/
  line? : Option (Task (Except IO.Error String))

namespace Work

/-- Starts to read a line (`spawn_stdin_reader`). -/
def readLine : IO (Task (Except IO.Error String)) := do
  (← IO.getStdin).getLine.asTask Task.Priority.dedicated

/-- What the host does with the files that it needs, which are read anew. -/
def reply (w : Work) (act : Host programScripts → HostReply programScripts) :
    IO (HostReply programScripts) :=
  withFiles w.library
    (fun library => act { w.host with scheduler := { w.host.scheduler with library := library } })
    HostReply.news

/-- A line of input without the characters that end it. -/
def withoutLineEnd (line : String) : String :=
  match (Text.linesOf line).head? with
  | some line => line
  | none => ""

/-- Goes on until the host ends. -/
partial def run (w : Work) : IO Unit := do
  let now ← currentTime
  if w.nextBeat ≤ now then
    let reply ← w.reply (·.beat now)
    printNews reply.news
    unless reply.ends do
      run { w with host := reply.host, nextBeat := now + w.host.options.interval }
  else
    match w.line? with
    | some task =>
      if ← IO.hasFinished task then
        match task.get with
        | .error _ | .ok "" => run { w with line? := none }
        | .ok line =>
          let next ← readLine
          match HostEvent.ofLine (withoutLineEnd line) with
          | .error e =>
            IO.eprintln e.message
            run { w with line? := some next }
          | .ok event =>
            let reply ← w.reply (·.handle now event)
            printNews reply.news
            run { w with host := reply.host, line? := some next }
      else
        IO.sleep 1
        run w
    | none =>
      IO.sleep (min (w.nextBeat - now) 1000).toUInt32
      run w

end Work

/-- The news of a start. -/
def Launch.news {engine : PatternEngine} : Launch engine → List StatusEvent
  | .nothing => []
  | .refused error => [.refused (.start error)]
  | .started scheduler => scheduler.status

/-- Runs what a command line names (`run`). -/
def runArguments (a : Arguments) : IO UInt32 := do
  let file := a.configurationFile (← IO.getEnv configurationVariable)
  match a.configuration file (← readSource file.path) with
  | .error error =>
    IO.eprintln s!"{programName} error: {error.message}"
    return 1
  | .ok c =>
    if a.dryRun then
      for line in summary c do
        IO.println line
      return 0
    let now ← currentTime
    let folder : ScriptPath := ⟨toString (← IO.currentDir)⟩
    let base : Scheduler programScripts := scheduler c .empty (some folder) now .still
    let started ← withFiles base.library
      (fun library => launch a now { base with library := library }) Launch.news
    match started with
    | .nothing => return 0
    | .refused error =>
      IO.eprintln s!"{programName} error: {error.message}"
      return 1
    | .started scheduler =>
      Work.run {
        library := base.library
        host := { scheduler := scheduler, options := hostOptions a c }
        nextBeat := now
        line? := some (← Work.readLine) }
      return 0

end Heartbeat.CommandLine

open Heartbeat.CommandLine in
/-- The program (`run_main`). -/
def main (words : List String) : IO UInt32 := do
  match Invocation.read words with
  | .error error =>
    IO.eprintln s!"error: {error.message}"
    return 2
  | .ok .help =>
    for line in usageLines do
      IO.println line
    return 0
  | .ok .version =>
    IO.println versionLine
    return 0
  | .ok (.run a) => runArguments a
