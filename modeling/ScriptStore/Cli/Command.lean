/-!
# Commands and settings

What the command line asks for, and how its arguments are read. Options may stand anywhere, and
a value follows its option either after an equals sign or as the next argument.
-/

namespace ScriptStore

namespace Cli

/-! ## Commands -/

/-- How answers are written. -/
inductive Format where
  | text
  | json
  deriving DecidableEq, Repr

/-- How much is written, and how. -/
structure Settings where
  format : Format
  quiet : Bool
  verbose : Bool
  deriving DecidableEq, Repr

/-- A command, with the paths of the documents it works on. -/
inductive Command where
  /-- Shows the difference between a body and an entity. -/
  | diff (store body entity : String)
  /-- Brings an entity in line with a body. -/
  | sync (store body entity : String) (out : Option String) (verify : Bool)
  /-- Removes all members of an entity. -/
  | clear (store entity : String) (out : Option String)
  /-- Shows whether the entities are consistent. -/
  | check (store : String)
  /-- Shows whether a document has the form of a store. -/
  | validate (store : String)
  deriving DecidableEq, Repr

/-! ## Arguments -/

/-- The arguments of a command line, sorted. -/
structure Arguments where
  /-- Arguments that belong to no option, latest first. -/
  positional : List String
  settings : Settings
  entity : Option String
  out : Option String
  verify : Bool
  deriving DecidableEq, Repr

namespace Arguments

/-- What holds before the first argument. -/
def initial : Arguments := ⟨[], ⟨.text, false, false⟩, none, none, true⟩

/-- Sets the option of this name to a value. -/
def set? (arguments : Arguments) (option value : String) : Option Arguments :=
  match option with
  | "--output" =>
    match value with
    | "text" => some { arguments with settings := { arguments.settings with format := .text } }
    | "json" => some { arguments with settings := { arguments.settings with format := .json } }
    | _ => none
  | "--entity" => some { arguments with entity := some value }
  | "--out" => some { arguments with out := some value }
  | _ => none

/-- Turns on the flag of this name. -/
def turnOn? (arguments : Arguments) : String → Option Arguments
  | "--quiet" => some { arguments with settings := { arguments.settings with quiet := true } }
  | "--verbose" => some { arguments with settings := { arguments.settings with verbose := true } }
  | "-v" => some { arguments with settings := { arguments.settings with verbose := true } }
  | "--no-verify" => some { arguments with verify := false }
  | _ => none

/-- Whether an option takes its value from the next argument. -/
def takesValue (option : String) : Bool := option ∈ ["--output", "--entity", "--out"]

/-- The name of an option and the value after its equals sign. -/
def splitOption (argument : String) : String × String :=
  (String.ofList (argument.toList.takeWhile (· ≠ '=')),
    String.ofList ((argument.toList.dropWhile (· ≠ '=')).drop 1))

/-- Takes in an argument that is complete by itself. -/
def take? (arguments : Arguments) (argument : String) : Option Arguments :=
  if argument.toList.head? ≠ some '-' then
    some { arguments with positional := argument :: arguments.positional }
  else if '=' ∈ argument.toList then
    arguments.set? (splitOption argument).1 (splitOption argument).2
  else arguments.turnOn? argument

/-- Sorts arguments; an option may be waiting for its value. -/
def sort? (arguments : Arguments) (waiting : Option String) : List String → Option Arguments
  | [] => if waiting.isNone then some arguments else none
  | argument :: rest =>
    match waiting with
    | some option => (arguments.set? option argument).bind fun next => next.sort? none rest
    | none =>
      if takesValue argument then arguments.sort? (some argument) rest
      else (arguments.take? argument).bind fun next => next.sort? none rest

/-- The command that sorted arguments ask for. -/
def command? (arguments : Arguments) : Option Command :=
  match arguments.positional.reverse with
  | ["diff", store, body] => arguments.entity.map (Command.diff store body)
  | ["sync", store, body] =>
    arguments.entity.map fun entity => .sync store body entity arguments.out arguments.verify
  | ["clear", store] => arguments.entity.map fun entity => .clear store entity arguments.out
  | ["check", store] => some (.check store)
  | ["validate", store] => some (.validate store)
  | _ => none

end Arguments

/-- The command and the settings of a command line; none if it asks for nothing that there
is. -/
def parse? (arguments : List String) : Option (Settings × Command) := do
  let sorted ← Arguments.initial.sort? none arguments
  let command ← sorted.command?
  return (sorted.settings, command)

end Cli

end ScriptStore
