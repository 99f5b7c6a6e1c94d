import NodeFleet.CommandLine.Options
import NodeFleet.Settings

/-!
# The commands of the operator

One command writes the operator's definitions, the other runs its controllers.
-/

namespace NodeFleet.CommandLine

open Calendar Text

/-- What the operator is asked to do. -/
inductive Command
  | writeDefinitions (file : Option String)
  | runControllers (settings : Settings)
  deriving DecidableEq, Repr

/-- What the operator can be asked about. -/
inductive Topic
  | program
  | crd
  | server
  | help
  deriving DecidableEq, Repr

/-- Why nothing is to be done. -/
inductive Interruption
  | nothingAsked
  | help (topic : Topic)
  | version
  | refused (topic : Topic) (error : UsageError)
  deriving DecidableEq, Repr

def programName : String := "chainops-op"

def programVersion : String := "0.1.0"

/-! ## Options -/

def fileOption : ValueOption :=
  { name := "file", letter := some 'f', envName := none, bounds := none }

def secondsOption (name envName : String) : ValueOption :=
  { name, letter := none, envName := some envName, bounds := some .word64 }

def requeueOption : ValueOption := secondsOption "requeue-secs" "CHAINOPS_REQUEUE_SECS"

def unrecoverableRequeueOption : ValueOption :=
  secondsOption "unrecoverable-requeue-secs" "CHAINOPS_UNRECOVERABLE_REQUEUE_SECS"

def timeoutOption : ValueOption :=
  secondsOption "reconcile-timeout-secs" "CHAINOPS_RECONCILE_TIMEOUT_SECS"

def pollOption : ValueOption :=
  secondsOption "snapshot-poll-secs" "CHAINOPS_SNAPSHOT_POLL_SECS"

def programOptions : OptionSet := ⟨[], true⟩

def crdOptions : OptionSet := ⟨[fileOption], false⟩

def serverOptions : OptionSet :=
  ⟨[requeueOption, unrecoverableRequeueOption, timeoutOption, pollOption], false⟩

/-! ## Reading -/

def Topic.ofName? : String → Option Topic
  | "crd" => some .crd
  | "server" => some .server
  | "help" => some .help
  | _ => none

/-- Why nothing is to be done once the reading of a command has stopped. -/
def Interruption.ofStop (topic : Topic) : Stop → Interruption
  | .refused error => .refused topic error
  | .help => .help topic
  | .version => .version

def durationOf (reading : Reading) (option : ValueOption) (absent : Duration) : Duration :=
  match reading.value? option with
  | none => absent
  | some value =>
      match readWhole .word64 value.toList with
      | .ok seconds => .ofSeconds seconds.toNat
      | .error _ => absent

def settingsOf (reading : Reading) : Settings :=
  let standard := Settings.standard
  { requeue := durationOf reading requeueOption standard.requeue
    unrecoverableRequeue :=
      durationOf reading unrecoverableRequeueOption standard.unrecoverableRequeue
    passTimeout := durationOf reading timeoutOption standard.passTimeout
    snapshotPoll := durationOf reading pollOption standard.snapshotPoll }

def helpTopic : List String → Interruption
  | [] => .help .program
  | name :: names =>
      match Topic.ofName? name, names with
      | some topic, [] => .help topic
      | some topic, next :: _ => .refused topic (.unknownCommand next)
      | none, _ => .refused .program (.unknownCommand name)

def readCommand (environment : String → Option String) (topic : Topic)
    (arguments : List String) : Except Interruption Command :=
  match topic with
  | .crd => do
      let reading ← (crdOptions.read environment arguments).mapError (.ofStop .crd)
      return .writeDefinitions (reading.value? fileOption)
  | .server => do
      let reading ← (serverOptions.read environment arguments).mapError (.ofStop .server)
      return .runControllers (settingsOf reading)
  | .program | .help => .error (helpTopic arguments)

/-- Reads arguments that do not start with the name of a command. -/
def readFlags (argument : String) (arguments : List String) : Interruption :=
  let stop :=
    match Token.ofArgument argument with
    | .separator =>
        match arguments with
        | [] => none
        | next :: _ =>
            if (Topic.ofName? next).isSome then some (.refused (.unexpectedArgument next))
            else some (.refused (.unknownCommand next))
    | .word text => some (.refused (.unknownCommand text))
    | _ =>
        match programOptions.readAll [argument] .start with
        | .ok _ => none
        | .error stop => some stop
  match stop with
  | none => .nothingAsked
  | some stop => .ofStop .program stop

def read (environment : String → Option String) : List String → Except Interruption Command
  | [] => .error .nothingAsked
  | argument :: arguments =>
      match Topic.ofName? argument with
      | some topic => readCommand environment topic arguments
      | none => .error (readFlags argument arguments)

end NodeFleet.CommandLine
