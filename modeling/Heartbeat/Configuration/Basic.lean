import Heartbeat.Configuration.Settings
import Heartbeat.Scheduler.Basic

/-!
# Configurations

A configuration is a set of settings that was checked: durations are read, and nothing is zero or
empty that must not be.

* `Configuration.ofSettings`: the check; the scheduler is checked first, then the host, then the
  scripts.
* `SettingsFault.message`: the wording of what the check finds.
* `Configuration.load`, `loadOrDefault`: the configuration of a file.
* `Configuration.schedulerOptions`: what the scheduler takes from a configuration.
-/

namespace Heartbeat

open Heartbeat.Text

/-- What is wrong with settings. -/
inductive SettingsFault where
  | noSteps
  | noQueue
  | retention (error : DurationError)
  | interval (error : DurationError)
  | noInterval
  | noExtension
deriving Repr, DecidableEq

/-- The wording of what is wrong. -/
def SettingsFault.message (fault : SettingsFault) : String :=
  "Configuration error: " ++
    match fault with
    | .noSteps => "[scheduler].turbo must be >= 1 (got 0)"
    | .noQueue => "[scheduler].event_queue_limit must be >= 1 when set (got 0)"
    | .retention error => s!"[scheduler].info_gc is invalid: {error.message}"
    | .interval error => s!"[host].pulse_interval is invalid: {error.message}"
    | .noInterval => "[host].pulse_interval must be greater than zero"
    | .noExtension => "[scripts].extension must not be empty"

/-- Why there is no configuration. -/
inductive ConfigurationError where
  | settings (error : SettingsError)
  | fault (fault : SettingsFault)
deriving Repr, DecidableEq

/-- The wording of the reason. -/
def ConfigurationError.message : ConfigurationError → String
  | .settings e => e.message
  | .fault f => f.message

/-- Settings that were checked (`ConfigFile`). -/
structure Configuration where
  turbo : Nat := 500
  /-- How long finished entries are kept; without one they are kept for good. -/
  retention? : Option Millis := some 3600000
  dispatch : Dispatch := .onResume
  queueLimit? : Option Nat := none
  scripts : ScriptSettings := {}
  interval : Millis := 50
  squelch : Bool := false
deriving Repr, DecidableEq

namespace Configuration

/-- Whether an extension is more than blanks and dots in front (`validate_scripts`). -/
def hasExtension (extension : String) : Bool :=
  (trim extension.toList).dropWhile (· == '.') != []

/-- The check of settings (`validate_scheduler`, `validate_host`, `validate_scripts`). -/
def ofSettings (s : Settings) : Except SettingsFault Configuration :=
  if s.scheduler.turbo = 0 then .error .noSteps
  else if s.scheduler.queueLimit? = some 0 then .error .noQueue
  else
    match Duration.parse s.scheduler.retention with
    | .error e => .error (.retention e)
    | .ok retention =>
      match Duration.parse s.host.interval with
      | .error e => .error (.interval e)
      | .ok interval =>
        if interval = 0 then .error .noInterval
        else if !hasExtension s.scripts.extension then .error .noExtension
        else .ok {
          turbo := s.scheduler.turbo
          retention? := if retention = 0 then none else some retention
          dispatch := s.scheduler.dispatch
          queueLimit? := s.scheduler.queueLimit?
          scripts := s.scripts
          interval := interval
          squelch := s.host.squelch }

/-- The check of settings, among the other things that can go wrong. -/
def check (s : Settings) : Except ConfigurationError Configuration :=
  match ofSettings s with
  | .ok c => .ok c
  | .error fault => .error (.fault fault)

/-- The configuration of a file, which must be there (`load_and_validate`). -/
def load (source : SettingsSource) : Except ConfigurationError Configuration :=
  match Settings.load source with
  | .ok settings => check settings
  | .error e => .error (.settings e)

/-- The configuration of a file, or the defaults if there is none (`load_or_default`). -/
def loadOrDefault : SettingsSource → Except ConfigurationError Configuration
  | .missing => check {}
  | source => load source

/-- What the scheduler takes from a configuration (`SchedulerOptions.from_config`). Its clock counts
milliseconds in 64 bits, and only the part of the retention that fits in them is kept. -/
def schedulerOptions (c : Configuration) : SchedulerOptions where
  turbo := c.turbo
  retention? := c.retention?.map (· % (maxWord64 + 1))
  dispatch := c.dispatch
  queueLimit? := c.queueLimit?

end Configuration

end Heartbeat
