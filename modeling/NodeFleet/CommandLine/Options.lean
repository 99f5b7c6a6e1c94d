import NodeFleet.Text.Split
import NodeFleet.Text.Whole

/-!
# Options on the command line

A command takes options, each with a value, and flags that ask for help or for
the version.  Arguments are read from left to right.  A value that follows its
option as an argument of its own is checked only when the option is settled, that
is before the next option or flag and at the end; a value that is attached to its
option is checked at once.
-/

namespace NodeFleet.CommandLine

open Text

/-- An option that takes a value, which the environment may give too. -/
structure ValueOption where
  name : String
  letter : Option Char
  envName : Option String
  bounds : Option Bounds
  deriving DecidableEq, Repr

namespace ValueOption

/-- The form of an option in messages. -/
def shown (option : ValueOption) : String :=
  let placeholder := option.name.toList.map fun character =>
    if character = '-' then '_' else character.toUpper
  "--" ++ option.name ++ " <" ++ String.ofList placeholder ++ ">"

end ValueOption

/-- What is wrong with the arguments. -/
inductive UsageError
  | unexpectedArgument (argument : String)
  | unexpectedValue (value flag : String)
  | unknownCommand (name : String)
  | missingValue (option : ValueOption)
  | repeatedOption (option : ValueOption)
  | invalidValue (value : String) (option : ValueOption) (fault : WholeFault)
  deriving DecidableEq, Repr

namespace UsageError

/-- A text between the marks that messages put around arguments. -/
def marked (text : String) : String := "\x27" ++ text ++ "\x27"

def message : UsageError → String
  | .unexpectedArgument argument => "unexpected argument " ++ marked argument ++ " found"
  | .unexpectedValue value flag =>
      "unexpected value " ++ marked value ++ " for " ++ marked flag
        ++ " found; no more were expected"
  | .unknownCommand name => "unrecognized subcommand " ++ marked name
  | .missingValue option =>
      "a value is required for " ++ marked option.shown ++ " but none was supplied"
  | .repeatedOption option =>
      "the argument " ++ marked option.shown ++ " cannot be used multiple times"
  | .invalidValue value option fault =>
      "invalid value " ++ marked value ++ " for " ++ marked option.shown ++ ": " ++ fault.message

end UsageError

/-- Why the arguments of a command ask for nothing to be done. -/
inductive Stop
  | refused (error : UsageError)
  | help
  | version
  deriving DecidableEq, Repr

inductive Token
  | separator
  | long (name : String) (value : Option String)
  | letters (first : Char) (rest : List Char)
  | word (text : String)
  deriving DecidableEq, Repr

def Token.ofArgument (argument : String) : Token :=
  match argument.toList with
  | ['-', '-'] => .separator
  | '-' :: '-' :: rest =>
      match splitFirst? '=' rest with
      | some (name, value) => .long (String.ofList name) (some (String.ofList value))
      | none => .long (String.ofList rest) none
  | '-' :: first :: rest => .letters first rest
  | _ => .word argument

structure OptionSet where
  options : List ValueOption
  hasVersion : Bool

/-- What has been read so far: the options that are settled, and the last one if
it is not, with its value if that has been read. -/
structure Reading where
  given : List (ValueOption × String)
  pending : Option (ValueOption × Option String)

namespace Reading

/-- Nothing has been read yet. -/
def start : Reading := ⟨[], none⟩

def value? (reading : Reading) (option : ValueOption) : Option String :=
  (reading.given.find? fun entry => entry.1.name == option.name).map Prod.snd

def add (reading : Reading) (option : ValueOption) (value : String) : Except Stop Reading :=
  let added : Reading := { reading with given := reading.given ++ [(option, value)] }
  match option.bounds with
  | none => .ok added
  | some bounds =>
      match readWhole bounds value.toList with
      | .ok _ => .ok added
      | .error fault => .error (.refused (.invalidValue value option fault))

/-- Adds an option that was given a value. -/
def record (reading : Reading) (option : ValueOption) (value : String) : Except Stop Reading :=
  if (reading.value? option).isSome then .error (.refused (.repeatedOption option))
  else reading.add option value

def settle (reading : Reading) : Except Stop Reading :=
  match reading.pending with
  | none => .ok reading
  | some (option, none) => .error (.refused (.missingValue option))
  | some (option, some value) => ({ reading with pending := none } : Reading).record option value

/-- Reads an option whose value may be attached. -/
def takeOption (reading : Reading) (option : ValueOption) (value : Option String) :
    Except Stop Reading := do
  let settled ← reading.settle
  match value with
  | some value => settled.record option value
  | none => return { settled with pending := some (option, none) }

def takeFlag (reading : Reading) (stop : Stop) : Except Stop Reading := do
  let _ ← reading.settle
  throw stop

end Reading

namespace OptionSet

def readLong (set : OptionSet) (reading : Reading) (name : String) (value : Option String) :
    Except Stop Reading :=
  let flag (stop : Stop) : Except Stop Reading :=
    match value with
    | some value => .error (.refused (.unexpectedValue value ("--" ++ name)))
    | none => reading.takeFlag stop
  if name = "help" then flag .help
  else if name = "version" ∧ set.hasVersion then flag .version
  else
    match set.options.find? fun option => option.name == name with
    | some option => reading.takeOption option value
    | none => .error (.refused (.unexpectedArgument ("--" ++ name)))

def attached : List Char → Option String
  | [] => none
  | '=' :: value => some (String.ofList value)
  | value => some (String.ofList value)

def readLetters (set : OptionSet) (reading : Reading) (first : Char) (rest : List Char) :
    Except Stop Reading :=
  if first = 'h' then reading.takeFlag .help
  else if first = 'V' ∧ set.hasVersion then reading.takeFlag .version
  else
    match set.options.find? fun option => option.letter == some first with
    | some option => reading.takeOption option (attached rest)
    | none => .error (.refused (.unexpectedArgument (String.ofList ['-', first])))

/-- Reads the arguments of a command that takes nothing but options. -/
def readAll (set : OptionSet) : List String → Reading → Except Stop Reading
  | [], reading => reading.settle
  | argument :: arguments, reading =>
      match Token.ofArgument argument with
      | .separator =>
          match arguments with
          | [] => reading.settle
          | next :: _ => .error (.refused (.unexpectedArgument next))
      | .long name value => do set.readAll arguments (← set.readLong reading name value)
      | .letters first rest => do set.readAll arguments (← set.readLetters reading first rest)
      | .word text =>
          match reading.pending with
          | some (option, none) =>
              set.readAll arguments { reading with pending := some (option, some text) }
          | _ => .error (.refused (.unexpectedArgument text))

/-- Takes the options that were not given from variables of the environment. -/
def fill (environment : String → Option String) :
    List ValueOption → Reading → Except Stop Reading
  | [], reading => .ok reading
  | option :: options, reading => do
      match reading.value? option, option.envName.bind environment with
      | none, some value => fill environment options (← reading.add option value)
      | _, _ => fill environment options reading

/-- Reads the arguments of a command and what the environment adds to them. -/
def read (set : OptionSet) (environment : String → Option String) (arguments : List String) :
    Except Stop Reading := do
  fill environment set.options (← set.readAll arguments .start)

end OptionSet

end NodeFleet.CommandLine
