import SiteOperator.Composition
import SiteOperator.Settings.Intervals
import SiteOperator.Settings.SocketAddress

/-!
# The command line

Every setting has an option and an environment variable; the option wins.  Arguments are read from
left to right.  The value of an option is looked at when the next known argument begins, so an
unknown argument is reported before a wrong value that stands just before it.
-/

namespace SiteOperator

/-- How the program writes its log. -/
inductive LogFormat where
  | text
  | json
  deriving DecidableEq

/-- The settings of the operator. -/
structure Settings where
  metricsAddress : SocketAddress
  intervals : Intervals
  logFormat : LogFormat
  fieldManager : String
  deriving DecidableEq

def Settings.standard : Settings :=
  ⟨.v4 [0, 0, 0, 0] 8080, .standard, .text, operatorName⟩

/-- The options, in the order in which the environment is looked at. -/
inductive CommandOption where
  | metricsAddress
  | requeueReady
  | requeueNotReady
  | errorRequeue
  | logFormat
  | fieldManager
  deriving DecidableEq

namespace CommandOption

def all : List CommandOption :=
  [metricsAddress, requeueReady, requeueNotReady, errorRequeue, logFormat, fieldManager]

def name : CommandOption → String
  | metricsAddress => "metrics-addr"
  | requeueReady => "requeue-ready-secs"
  | requeueNotReady => "requeue-not-ready-secs"
  | errorRequeue => "error-requeue-secs"
  | logFormat => "log-format"
  | fieldManager => "field-manager"

def valueName : CommandOption → String
  | metricsAddress => "METRICS_ADDR"
  | requeueReady => "REQUEUE_READY_SECS"
  | requeueNotReady => "REQUEUE_NOT_READY_SECS"
  | errorRequeue => "ERROR_REQUEUE_SECS"
  | logFormat => "LOG_FORMAT"
  | fieldManager => "FIELD_MANAGER"

def envVariable : CommandOption → String
  | metricsAddress => "LMS_METRICS_ADDR"
  | requeueReady => "LMS_REQUEUE_READY_SECS"
  | requeueNotReady => "LMS_REQUEUE_NOT_READY_SECS"
  | errorRequeue => "LMS_ERROR_REQUEUE_SECS"
  | logFormat => "RUST_LOG_FORMAT"
  | fieldManager => "LMS_FIELD_MANAGER"

def usage (option : CommandOption) : String :=
  "--" ++ option.name ++ " <" ++ option.valueName ++ ">"

def ofName? (name : String) : Option CommandOption := all.find? fun o => o.name = name

end CommandOption

/-- Why the command line does not lead to a run. -/
inductive UsageStop where
  | help
  | version
  | unexpectedArgument (argument : String)
  | unexpectedValue (argument value : String)
  | missingValue (option : CommandOption)
  | repeated (option : CommandOption)
  | noChoice (option : CommandOption) (value : String)
  | wrongValue (option : CommandOption) (value reason : String)
  deriving DecidableEq

namespace UsageStop

def kind : UsageStop → String
  | help => "DisplayHelp"
  | version => "DisplayVersion"
  | unexpectedArgument _ => "UnknownArgument"
  | unexpectedValue _ _ => "TooManyValues"
  | missingValue _ | noChoice _ _ => "InvalidValue"
  | repeated _ => "ArgumentConflict"
  | wrongValue _ _ _ => "ValueValidation"

def about : String := "Kubernetes operator composing LMS Moodle sites from templates"

def versionText : String := operatorName ++ " 0.1.0"

def message : UsageStop → String
  | help => about
  | version => versionText
  | unexpectedArgument argument => "error: unexpected argument '" ++ argument ++ "' found"
  | unexpectedValue argument value =>
      "error: unexpected value '" ++ value ++ "' for '" ++ argument ++
        "' found; no more were accepted"
  | missingValue option =>
      "error: a value is required for '" ++ option.usage ++ "' but none was supplied"
  | repeated option =>
      "error: the argument '" ++ option.usage ++ "' cannot be used multiple times"
  | noChoice option value => "error: invalid value '" ++ value ++ "' for '" ++ option.usage ++ "'"
  | wrongValue option value reason =>
      "error: invalid value '" ++ value ++ "' for '" ++ option.usage ++ "': " ++ reason

def firstLine (stop : UsageStop) : String :=
  String.ofList (stop.message.toList.takeWhile (· ≠ '\n'))

/-- Whether the program ends well and prints to its output. -/
def isInformation : UsageStop → Bool
  | help | version => true
  | _ => false

end UsageStop

namespace Settings

def wordBound : Nat := Nat.pow 2 64

/-- Reads the digits of a number of 64 bits that follow those read so far. -/
def secondsFrom : Nat → List Char → Except String Nat
  | n, [] => .ok n
  | n, c :: rest =>
      if !c.isDigit then .error "invalid digit found in string"
      else
        let next := n * 10 + (c.toNat - '0'.toNat)
        if wordBound ≤ next then .error "number too large to fit in target type"
        else secondsFrom next rest

def seconds (value : String) : Except String Nat :=
  match value.toList with
  | [] => .error "cannot parse integer from empty string"
  | ['+'] => .error "invalid digit found in string"
  | '+' :: rest => secondsFrom 0 rest
  | cs => secondsFrom 0 cs

def assign (settings : Settings) (option : CommandOption) (value : String) :
    Except UsageStop Settings :=
  let intervals := settings.intervals
  let interval (put : Nat → Intervals) : Except UsageStop Settings :=
    match seconds value with
    | .ok n => .ok { settings with intervals := put n }
    | .error reason => .error (.wrongValue option value reason)
  match option with
  | .metricsAddress => match SocketAddress.parse? value with
      | some address => .ok { settings with metricsAddress := address }
      | none => .error (.wrongValue option value "invalid socket address syntax")
  | .requeueReady => interval fun n => { intervals with settled := n }
  | .requeueNotReady => interval fun n => { intervals with waiting := n }
  | .errorRequeue => interval fun n => { intervals with error := n }
  | .logFormat =>
      let lower := String.ofList (value.toList.map Char.toLower)
      if value = "" then .error (.missingValue option)
      else if lower = "text" then .ok { settings with logFormat := .text }
      else if lower = "json" then .ok { settings with logFormat := .json }
      else .error (.noChoice option value)
  | .fieldManager => .ok { settings with fieldManager := value }

end Settings

namespace CommandLine

/-- What has been read so far: the settings, the options that have been given, and an option whose
value has not been looked at. -/
structure Progress where
  settings : Settings
  given : List CommandOption
  pending : Option (CommandOption × Option String)
  deriving DecidableEq

def start : Progress := ⟨.standard, [], none⟩

def give (progress : Progress) (option : CommandOption) :
    Option String → Except UsageStop Progress
  | none => .error (.missingValue option)
  | some value =>
      if progress.given.contains option then .error (.repeated option)
      else (progress.settings.assign option value).map fun settings =>
        ⟨settings, option :: progress.given, none⟩

def resolve (progress : Progress) : Except UsageStop Progress :=
  match progress.pending with
  | some (option, value) => give { progress with pending := none } option value
  | none => .ok progress

def stop (progress : Progress) (reason : UsageStop) : Except UsageStop Progress :=
  match resolve progress with
  | .ok _ => .error reason
  | .error earlier => .error earlier

/-- The name and the attached value of a long argument after its two hyphens. -/
def splitLong (body : List Char) : String × Option String :=
  let name := String.ofList (body.takeWhile (· ≠ '='))
  match body.dropWhile (· ≠ '=') with
  | _ :: value => (name, some (String.ofList value))
  | [] => (name, none)

def flag? (name : String) : Option UsageStop :=
  if name = "help" then some .help else if name = "version" then some .version else none

def long (progress : Progress) (body : List Char) : Except UsageStop Progress :=
  let (name, value) := splitLong body
  match CommandOption.ofName? name, flag? name with
  | some option, _ => (resolve progress).bind fun progress => match value with
      | some value => give progress option (some value)
      | none => .ok { progress with pending := some (option, none) }
  | none, some reason => match value with
      | some value => .error (.unexpectedValue ("--" ++ name) value)
      | none => stop progress reason
  | none, none => .error (.unexpectedArgument ("--" ++ name))

def short (progress : Progress) (c : Char) : Except UsageStop Progress :=
  if c = 'h' then stop progress .help
  else if c = 'V' then stop progress .version
  else .error (.unexpectedArgument (String.ofList ['-', c]))

def value (progress : Progress) (argument : String) : Except UsageStop Progress :=
  match progress.pending with
  | some (option, none) => .ok { progress with pending := some (option, some argument) }
  | _ => .error (.unexpectedArgument argument)

def arguments : Progress → List String → Except UsageStop Progress
  | progress, [] => resolve progress
  | progress, argument :: rest =>
      match argument.toList with
      | ['-', '-'] => match rest with
          | [] => resolve progress
          | argument :: _ => .error (.unexpectedArgument argument)
      | '-' :: '-' :: body => (long progress body).bind fun progress => arguments progress rest
      | '-' :: c :: _ => (short progress c).bind fun progress => arguments progress rest
      | _ => (value progress argument).bind fun progress => arguments progress rest

/-- Takes the options that were not given from the environment. -/
def environment (getVariable : String → Option String) :
    Progress → List CommandOption → Except UsageStop Progress
  | progress, [] => .ok progress
  | progress, option :: rest =>
      if progress.given.contains option then environment getVariable progress rest
      else match getVariable option.envVariable with
        | some value =>
            (give progress option (some value)).bind fun progress =>
              environment getVariable progress rest
        | none => environment getVariable progress rest

def settings (args : List String) (getVariable : String → Option String) :
    Except UsageStop Settings :=
  (arguments start args).bind fun progress =>
    (environment getVariable progress CommandOption.all).map Progress.settings

end CommandLine

end SiteOperator
