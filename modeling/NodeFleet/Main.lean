import NodeFleet.CommandLine.Help
import NodeFleet.Definition.Documents
import NodeFleet.Yaml.Printer

/-!
# The program

The command line of the operator.  The controllers need a cluster to talk to,
which is looked for and not found here.
-/

namespace NodeFleet

def definitionsText : String := Yaml.stream Definition.documents

def carryOut : CommandLine.Command → IO UInt32
  | .writeDefinitions none => do
      IO.print definitionsText
      return 0
  | .writeDefinitions (some file) => do
      try
        IO.FS.writeFile file definitionsText
        return 0
      catch problem =>
        IO.eprintln s!"Error: {problem}"
        return 1
  | .runControllers _ => do
      IO.eprintln "Error: no cluster is configured"
      return 1

def report (interruption : CommandLine.Interruption) : IO UInt32 := do
  if interruption.isAnswer then IO.print interruption.text else IO.eprint interruption.text
  return interruption.exitCode.toUInt32

def environment : IO (String → Option String) := do
  let names := CommandLine.serverOptions.options.filterMap (·.envName)
  let found ← names.filterMapM fun name => do
    return (← IO.getEnv name).map fun value => (name, value)
  return (KeyMap.ofList found).find?

end NodeFleet

/-- Reads the arguments and carries out what they ask for. -/
def main (arguments : List String) : IO UInt32 := do
  match NodeFleet.CommandLine.read (← NodeFleet.environment) arguments with
  | .ok command => NodeFleet.carryOut command
  | .error interruption => NodeFleet.report interruption
