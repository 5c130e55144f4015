import Heartbeat.CommandLine.Arguments
import Heartbeat.Configuration.Basic
import Heartbeat.Host.Rehearsal
import Heartbeat.StepScript.Interpreter

/-!
# Sessions

A session is a run of the program: it finds the configuration, starts what the command line names
and hands the host its input. The configuration file is the one that the command line names, which
must be there, or the one that a variable of the environment names, or `Scriptpulse.toml`.

* `ConfigurationFile`: the file, and `Configuration.ofFile` its configuration.
* `Configuration.summary`: the lines of a dry run.
* `launch`: the start of what the command line names.
* `Session.outcome`: the whole of it on a virtual clock, for given files and input.
-/

namespace Heartbeat.CommandLine

/-- The name of the program. -/
def programName : String := "scriptpulse"

/-- The name and the version of the program. -/
def versionLine : String := programName ++ " 0.1.0"

/-- How the program is used. -/
def usageLines : List String := [
  "Run step scripts cooperatively on a fixed heartbeat.",
  "",
  s!"Usage: {programName} [OPTIONS] [SCRIPT] [ARGS]...",
  "",
  "Options:",
  "      --config <PATH>        Path to the config file (TOML)",
  "      --log-level <LEVEL>    Logging level (error, warn, info, debug, trace)",
  "      --turbo <STEPS>        Override `[scheduler].turbo`",
  "      --script-dir <DIR>     Override `[scripts].dir`",
  "      --parse <SOURCE>       Run this source string instead of a script file",
  "      --keep-alive           Keep running after all scripts end, until stdin closes",
  "      --dry-run              Load and validate config, print it, and exit",
  "  -h, --help                 Print help",
  "  -V, --version              Print version"]

/-! ## The configuration -/

/-- The variable of the environment that names the configuration file (`CONFIG_ENV`). -/
def configurationVariable : String := "SCRIPTPULSE_CONFIG"

/-- The configuration file that is read when none is named. -/
def defaultConfigurationFile : String := "Scriptpulse.toml"

/-- A configuration file. -/
structure ConfigurationFile where
  path : String
  /-- Whether it must be there. -/
  required : Bool
deriving Repr, DecidableEq

/-- The configuration file of a command line, for a value of the variable of the environment
(`default_config_path`). -/
def Arguments.configurationFile (a : Arguments) (setting? : Option String) : ConfigurationFile :=
  match a.config?, setting?.filter (· != "") with
  | some path, _ => ⟨path, true⟩
  | none, some path => ⟨path, false⟩
  | none, none => ⟨defaultConfigurationFile, false⟩

/-- The configuration of a file, as the command line changes it (`apply_overrides`). -/
def Arguments.configuration (a : Arguments) (file : ConfigurationFile) (source : SettingsSource) :
    Except ConfigurationError Configuration :=
  match if file.required then Configuration.load source else Configuration.loadOrDefault source with
  | .error e => .error e
  | .ok c => .ok {
      c with
      turbo := match a.turbo? with
        | some turbo => max turbo 1
        | none => c.turbo
      scripts := { c.scripts with folder := a.scriptFolder?.getD c.scripts.folder } }

/-- The lines that show a configuration (`print_dry_run`). -/
def summary (c : Configuration) : List String :=
  [s!"{programName} dry-run", s!"  scheduler.turbo = {c.turbo}",
    "  scheduler.info_gc = " ++
      (match c.retention? with
        | some retention => Duration.text retention
        | none => "disabled"),
    s!"  scheduler.event_dispatch = {c.dispatch.text}"] ++
  (c.queueLimit?.map fun limit => s!"  scheduler.event_queue_limit = {limit}").toList ++
  [s!"  scripts.extension = {c.scripts.extension}", "  search paths:"] ++
  c.scripts.searchPath.map (fun folder => s!"    - {folder}") ++
  [s!"  host.pulse_interval = {Duration.text c.interval}",
    "  host.squelch_status = " ++ (if c.squelch then "true" else "false")]

/-! ## The start -/

/-- The language of the scripts of a session. -/
abbrev scripts (engine : PatternEngine) : Language := StepScript.language Unit engine

variable {engine : PatternEngine}

/-- The scheduler of a configuration, over a library of scripts (`build_scheduler`). -/
def scheduler (c : Configuration) (files : FileTree) (base? : Option ScriptPath) (now : Millis)
    (clock : Clock) : Scheduler (scripts engine) :=
  .create c.schedulerOptions (.ofFiles files c.scripts.extension base?)
    (c.scripts.searchPath.map ScriptPath.mk) () now clock

/-- What comes of the start. -/
inductive Launch (engine : PatternEngine) where
  /-- The command line names nothing to run. -/
  | nothing
  | refused (error : StartError)
  | started (scheduler : Scheduler (scripts engine))

/-- Starts what a command line names. -/
def launch (a : Arguments) (now : Millis) (s : Scheduler (scripts engine)) : Launch engine :=
  let answer? := match a.source?, a.script? with
    | some source, _ => some (s.parse now source)
    | none, some script => some (s.run now script a.scriptArgs)
    | none, none => none
  match answer? with
  | some (.ok _, s) => .started s
  | some (.error e, _) => .refused e
  | none => if a.keepAlive then .started s else .nothing

/-- How the host of a session works. -/
def hostOptions (a : Arguments) (c : Configuration) : HostOptions :=
  ⟨c.interval, c.squelch, a.keepAlive⟩

/-! ## The whole -/

/-- What the program finds around it. -/
structure Session where
  /-- The words of the command line. -/
  words : List String
  /-- The value of the variable of the environment that names the configuration file. -/
  setting? : Option String
  /-- The folder that paths start from. -/
  folder : ScriptPath
  files : FileTree
  /-- The lines of the input, which does not end behind them as far as the host knows. -/
  input : List String
  /-- The engine that matches lines. -/
  engine : PatternEngine
  clock : Clock

/-- What a run of the program leaves. -/
structure Outcome where
  /-- Zero if all went well, one if it did not, two for a command line that is refused. -/
  code : Nat
  lines : List String
deriving Repr, DecidableEq

namespace Session

/-- What stands in the place of a file. -/
def source (s : Session) (path : String) : SettingsSource :=
  let library := ScriptLibrary.ofFiles s.files "" (some s.folder)
  match library.find? ⟨path⟩ with
  | some place =>
    match library.files.text? place with
    | some text => .text text
    | none => .missing
  | none =>
    match library.locate? ⟨path⟩ with
    | some place => if library.files.isFolder place then .unreadable else .missing
    | none => .missing

/-- The run of a host with the whole input, cut off after so many heartbeats. -/
def play (s : Session) (a : Arguments) (c : Configuration) (beats : Nat)
    (scheduler : Scheduler (scripts s.engine)) : List String :=
  let rehearsal : Rehearsal := ⟨s.input.map (0, ·), none, beats⟩
  (rehearsal.play 0 { scheduler := scheduler, options := hostOptions a c }).news.map (·.2.shown)

/-- The run of the program, cut off after so many heartbeats (`run`). -/
def outcome (s : Session) (beats : Nat) : Outcome :=
  match Invocation.read s.words with
  | .error _ => ⟨2, []⟩
  | .ok .help => ⟨0, usageLines⟩
  | .ok .version => ⟨0, [versionLine]⟩
  | .ok (.run a) =>
    let file := a.configurationFile s.setting?
    match a.configuration file (s.source file.path) with
    | .error _ => ⟨1, []⟩
    | .ok c =>
      if a.dryRun then ⟨0, summary c⟩
      else
        match launch a 0 (scheduler c s.files (some s.folder) 0 s.clock) with
        | .nothing => ⟨0, []⟩
        | .refused _ => ⟨1, []⟩
        | .started scheduler => ⟨0, s.play a c beats scheduler⟩

end Session

end Heartbeat.CommandLine
