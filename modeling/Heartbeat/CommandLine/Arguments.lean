import Heartbeat.LogLevel
import Heartbeat.Text.Decimal

/-!
# Arguments of the program

The program takes options, the script to run and the arguments of the script. Options start with two
dashes; the value of an option follows in the next word or behind an equals sign. Two dashes alone
end the options. The first word that is no option is the script. From the first argument of the
script on, all words belong to the script, and behind the script a word with dashes that is no
option is an argument as well.

* `Arguments`: what the words ask for.
* `Invocation.read`: reads the words, or says why it cannot.
* `UsageError.message`: the wording of the reasons.
-/

namespace Heartbeat.CommandLine

open Heartbeat.Text

/-- What the words of a command line ask for (`CliArgs`). -/
structure Arguments where
  /-- The configuration file. -/
  config? : Option String := none
  logLevel? : Option LogLevel := none
  turbo? : Option Nat := none
  /-- The folder that is searched first for scripts. -/
  scriptFolder? : Option String := none
  /-- A source text to run in the place of a script file. -/
  source? : Option String := none
  keepAlive : Bool := false
  /-- Whether the configuration is shown and nothing is run. -/
  dryRun : Bool := false
  script? : Option String := none
  scriptArgs : List String := []
deriving Repr, DecidableEq

/-- The options that take a value. -/
inductive ValueOption where
  | config
  | logLevel
  | turbo
  | scriptFolder
  | source
deriving Repr, DecidableEq

/-- The options that take none. -/
inductive FlagOption where
  | keepAlive
  | dryRun
  | help
  | version
deriving Repr, DecidableEq

/-- An option. -/
inductive AnyOption where
  | value (option : ValueOption)
  | flag (option : FlagOption)
deriving Repr, DecidableEq

/-- The option of a name. -/
def AnyOption.ofName? : String → Option AnyOption
  | "config" => some (.value .config)
  | "log-level" => some (.value .logLevel)
  | "turbo" => some (.value .turbo)
  | "script-dir" => some (.value .scriptFolder)
  | "parse" => some (.value .source)
  | "keep-alive" => some (.flag .keepAlive)
  | "dry-run" => some (.flag .dryRun)
  | "help" => some (.flag .help)
  | "version" => some (.flag .version)
  | _ => none

/-- The name of an option that takes a value. -/
def ValueOption.name : ValueOption → String
  | .config => "config"
  | .logLevel => "log-level"
  | .turbo => "turbo"
  | .scriptFolder => "script-dir"
  | .source => "parse"

/-- The name of an option that takes none. -/
def FlagOption.name : FlagOption → String
  | .keepAlive => "keep-alive"
  | .dryRun => "dry-run"
  | .help => "help"
  | .version => "version"

/-- The flag that a letter stands for. -/
def FlagOption.ofLetter? : Char → Option FlagOption
  | 'h' => some .help
  | 'V' => some .version
  | _ => none

/-- Why a command line is refused. -/
inductive UsageError where
  | unknownOption (word : String)
  | repeated (name : String)
  | missingValue (option : ValueOption)
  | invalidValue (option : ValueOption) (value : String)
  /-- A value was given to an option that takes none. -/
  | unexpectedValue (option : FlagOption) (value : String)
  /-- A source text and a script were given. -/
  | sourceAndScript
deriving Repr, DecidableEq

/-- The wording of the reason. -/
def UsageError.message : UsageError → String
  | .unknownOption word => s!"unexpected argument '{word}' found"
  | .repeated name => s!"the argument '--{name}' cannot be used multiple times"
  | .missingValue option => s!"a value is required for '--{option.name}' but none was supplied"
  | .invalidValue option value => s!"invalid value '{value}' for '--{option.name}'"
  | .unexpectedValue option value =>
    s!"unexpected value '{value}' for '--{option.name}' found; no more were expected"
  | .sourceAndScript => "the argument '--parse' cannot be used with a script"

/-- What a command line asks the program to do. -/
inductive Invocation where
  | run (arguments : Arguments)
  | help
  | version
deriving Repr, DecidableEq

namespace Arguments

/-- Puts a value in the place of none. -/
def once {α : Type} (option : ValueOption) : Option α → α → Except UsageError (Option α)
  | none, value => .ok (some value)
  | some _, _ => .error (.repeated option.name)

/-- A value that must not be empty. -/
def nonempty (option : ValueOption) (value : String) : Except UsageError String :=
  if value = "" then .error (.missingValue option) else .ok value

/-- A value that a reader takes. -/
def readWith {α : Type} (option : ValueOption) (read? : String → Option α) (value : String) :
    Except UsageError α :=
  match read? value with
  | some a => .ok a
  | none => .error (.invalidValue option value)

/-- An unsigned number of 32 bits, with an optional sign. -/
def steps? (value : String) : Option Nat :=
  match readInt? maxInt64 value.toList with
  | some (.ofNat n) => if n ≤ maxWord32 then some n else none
  | _ => none

/-- Takes the value of an option. -/
def setValue (a : Arguments) (option : ValueOption) (value : String) :
    Except UsageError Arguments :=
  match option with
  | .config => do
    return { a with config? := ← once option a.config? (← nonempty option value) }
  | .logLevel => do
    let level ← readWith option LogLevel.ofOption? value
    return { a with logLevel? := ← once option a.logLevel? level }
  | .turbo => do
    return { a with turbo? := ← once option a.turbo? (← readWith option steps? value) }
  | .scriptFolder => do
    return { a with scriptFolder? := ← once option a.scriptFolder? (← nonempty option value) }
  | .source => do
    return { a with source? := ← once option a.source? value }

/-- Takes words that are no options: the script, if there is none yet, and its arguments. -/
def takeWords (a : Arguments) (words : List String) : Arguments :=
  match a.script?, words with
  | _, [] => a
  | none, script :: args => { a with script? := some script, scriptArgs := args }
  | some _, args => { a with scriptArgs := args }

/-- The end of the words. -/
def finish (a : Arguments) : Except UsageError Invocation :=
  if a.source?.isSome && a.script?.isSome then .error .sourceAndScript else .ok (.run a)

end Arguments

/-- What a word of the command line is. -/
inductive Word where
  /-- Two dashes alone. -/
  | endOfOptions
  /-- A name behind two dashes, and what follows an equals sign. -/
  | long (name : String) (value? : Option String)
  /-- Letters behind a dash. -/
  | letters (letters : List Char)
  | plain
deriving Repr, DecidableEq

namespace Word

/-- The sort of a word. -/
def ofText (text : String) : Word :=
  match text.toList with
  | ['-', '-'] => .endOfOptions
  | '-' :: '-' :: body =>
    let name := String.ofList (body.takeWhile (· != '='))
    match body.dropWhile (· != '=') with
    | [] => .long name none
    | _ :: value => .long name (some (String.ofList value))
  | '-' :: c :: more => .letters (c :: more)
  | _ => .plain

/-- Whether a word is an option, or looks like one. Once the script is given, only words that are
options count. -/
def isOption (scriptGiven : Bool) : Word → Bool
  | .endOfOptions => true
  | .long name _ => !scriptGiven || (AnyOption.ofName? name).isSome
  | .letters cs => !scriptGiven || cs.all fun c => (FlagOption.ofLetter? c).isSome
  | .plain => false

end Word

namespace Invocation

/-- Takes a flag; asking for help or for the version ends the reading. -/
def takeFlag (a : Arguments) : FlagOption → Except UsageError (Arguments ⊕ Invocation)
  | .keepAlive =>
    if a.keepAlive then .error (.repeated FlagOption.keepAlive.name)
    else .ok (.inl { a with keepAlive := true })
  | .dryRun =>
    if a.dryRun then .error (.repeated FlagOption.dryRun.name)
    else .ok (.inl { a with dryRun := true })
  | .help => .ok (.inr .help)
  | .version => .ok (.inr .version)

/-- What the first of some letters asks for. Both letters that are known end the reading. -/
def ofLetters (word : String) : List Char → Except UsageError Invocation
  | 'h' :: _ => .ok .help
  | 'V' :: _ => .ok .version
  | _ => .error (.unknownOption word)

/-- Reads words behind others. -/
def readFrom (a : Arguments) : List String → Except UsageError Invocation
  | [] => a.finish
  | word :: rest =>
    let kind := Word.ofText word
    if !kind.isOption a.script?.isSome then
      match a.script? with
      | none => readFrom { a with script? := some word } rest
      | some _ => (a.takeWords (word :: rest)).finish
    else
      match kind with
      | .endOfOptions => (a.takeWords rest).finish
      | .letters cs => ofLetters word cs
      | .plain => .error (.unknownOption word)
      | .long name value? =>
        match AnyOption.ofName? name, value? with
        | none, _ => .error (.unknownOption word)
        | some (.flag flag), some value => .error (.unexpectedValue flag value)
        | some (.flag flag), none =>
          match takeFlag a flag with
          | .error e => .error e
          | .ok (.inl a) => readFrom a rest
          | .ok (.inr invocation) => .ok invocation
        | some (.value option), some value =>
          match a.setValue option value with
          | .error e => .error e
          | .ok a => readFrom a rest
        | some (.value option), none =>
          match rest with
          | [] => .error (.missingValue option)
          | value :: rest =>
            if (Word.ofText value).isOption a.script?.isSome then .error (.missingValue option)
            else
              match a.setValue option value with
              | .error e => .error e
              | .ok a => readFrom a rest

/-- Reads the words of a command line (`CliArgs.parse`). -/
def read (words : List String) : Except UsageError Invocation := readFrom {} words

end Invocation

end Heartbeat.CommandLine
