import SiteOperator.LogFilter
import SiteOperator.Settings.CommandLine

/-!
# The program

The program reads its settings, begins to log, and looks for a cluster.  Without a cluster it ends
there.
-/

namespace SiteOperator

/-- A line of the log. -/
structure LogLine where
  format : LogFormat
  level : LogLevel
  message : String
  thread : Option String
  deriving DecidableEq

/-- How the program ends when it finds no cluster. -/
inductive ProgramEnd where
  | informed (line : String)
  | refused (line : String)
  | noCluster (log : List LogLine)
  deriving DecidableEq

namespace Program

def filterVariable : String := "RUST_LOG"

def event (level : LogLevel) (fields : List String) (message : String) : LogEvent :=
  ⟨level, "lms_moodle_operator", "message" :: fields, message⟩

def events : List LogEvent :=
  [event .info [] "Starting LMS Moodle operator",
    event .debug ["config"] "Operator configuration",
    event .debug [] "Initializing Kubernetes client"]

def line (format : LogFormat) (event : LogEvent) : LogLine :=
  ⟨format, event.level, event.message,
    match format with
    | .json => some "main"
    | .text => none⟩

def run (args : List String) (getVariable : String → Option String) : ProgramEnd :=
  match CommandLine.settings args getVariable with
  | .error stop =>
      if stop.isInformation then .informed stop.firstLine else .refused stop.firstLine
  | .ok settings =>
      let filter := LogFilter.ofSetting (getVariable filterVariable)
      .noCluster ((events.filter filter.admits).map (line settings.logFormat))

end Program

namespace ProgramEnd

def exitCode : ProgramEnd → Nat
  | informed _ => 0
  | refused _ => 2
  | noCluster _ => 1

end ProgramEnd

end SiteOperator
