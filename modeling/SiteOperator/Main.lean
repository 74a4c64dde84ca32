import SiteOperator.Json.Printer
import SiteOperator.Program

/-!
# The command line

Runs the program with the arguments and the environment variables of the process, prints what it
says and ends with its exit code.
-/

namespace SiteOperator

def LogLine.text (line : LogLine) : String :=
  match line.format with
  | .text => line.level.name ++ " " ++ line.message
  | .json =>
      (Json.ofFields
        ([("level", .string line.level.name),
          ("fields", .ofFields [("message", .string line.message)])] ++
          Json.fieldIf "threadName" (line.thread.map .string))).compact

def Program.variableNames : List String :=
  filterVariable :: CommandOption.all.map CommandOption.envVariable

end SiteOperator

open SiteOperator in
def main (args : List String) : IO UInt32 := do
  let pairs ← Program.variableNames.filterMapM fun name => do
    return (← IO.getEnv name).map fun value => (name, value)
  let ended := Program.run args fun name => pairs.lookup name
  match ended with
  | .informed line => IO.println line
  | .refused line => IO.eprintln line
  | .noCluster log => log.forM fun line => IO.println line.text
  return ended.exitCode.toUInt32
