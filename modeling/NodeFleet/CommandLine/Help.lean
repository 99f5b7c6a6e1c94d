import NodeFleet.CommandLine.Command

/-!
# Help

What the operator prints when nothing is to be done: its version, a page of help,
or what is wrong with its arguments.
-/

namespace NodeFleet.CommandLine

namespace Topic

def about : Topic → String
  | .program => "Blockchain full-node Kubernetes operator CLI"
  | .crd => "Output CRDs in YAML"
  | .server => "Run the controllers"
  | .help => "Print this message or the help of the given subcommand(s)"

def usage : Topic → String
  | .program => "Usage: " ++ programName ++ " <COMMAND>"
  | .crd => "Usage: " ++ programName ++ " crd [OPTIONS]"
  | .server => "Usage: " ++ programName ++ " server [OPTIONS]"
  | .help => "Usage: " ++ programName ++ " help [COMMAND]"

def details : Topic → List String
  | .program => [
      "Commands:",
      "  crd     " ++ about .crd,
      "  server  " ++ about .server,
      "  help    " ++ about .help,
      "",
      "Options:",
      "  -h, --help     Print help",
      "  -V, --version  Print version"]
  | .crd => [
      "Options:",
      "  -f, --file <FILE>  Optional output path. If not set, the output will be written to stdout",
      "  -h, --help         Print help"]
  | .server => [
      "Options:",
      "      --requeue-secs <REQUEUE_SECS>",
      "          Seconds before retrying after a transient failure [default: 5]",
      "      --unrecoverable-requeue-secs <UNRECOVERABLE_REQUEUE_SECS>",
      "          Seconds before retrying after an unrecoverable failure [default: 300]",
      "      --reconcile-timeout-secs <RECONCILE_TIMEOUT_SECS>",
      "          Upper bound in seconds on a single reconcile pass [default: 60]",
      "      --snapshot-poll-secs <SNAPSHOT_POLL_SECS>",
      "          Seconds between checks on a snapshot that is not ready yet [default: 10]",
      "  -h, --help",
      "          Print help"]
  | .help => [
      "Arguments:",
      "  [COMMAND]...  Print help for the subcommand(s)"]

def page (topic : Topic) : List String := topic.about :: "" :: topic.usage :: "" :: topic.details

end Topic

namespace Interruption

/-- Whether what was asked for is printed, and not that the arguments are
wrong. -/
def isAnswer : Interruption → Bool
  | .help _ | .version => true
  | .nothingAsked | .refused _ _ => false

def exitCode (interruption : Interruption) : UInt8 := if interruption.isAnswer then 0 else 2

def lines : Interruption → List String
  | .nothingAsked => Topic.program.page
  | .help topic => topic.page
  | .version => [programName ++ " " ++ programVersion]
  | .refused topic error =>
      ["error: " ++ error.message, "", topic.usage, "",
        "For more information, try \x27--help\x27."]

def text (interruption : Interruption) : String :=
  String.join (interruption.lines.map (· ++ "\n"))

end Interruption

end NodeFleet.CommandLine
