import SceneForge.Decimal.Reading
import SceneForge.Files.Path

/-!
# Arguments of the command line

What the command line asks for. Arguments are read from left to right, and the first
one that settles the matter does so: a request for help, or a mistake. A separator
`--` makes everything behind it an ordinary argument.
-/

namespace SceneForge

/-- The arguments of a build. -/
structure BuildArguments where
  inputs : List Path
  /-- The configuration file. -/
  config : Option Path
  target : Option String
  jobs : Option Nat
  force : Bool
  deriving DecidableEq

/-- What can be asked for. -/
inductive Command where
  | help
  | build (arguments : BuildArguments)
  | dump (artifact : Path)
  deriving DecidableEq

/-- Why arguments are not accepted. -/
inductive UsageError where
  | missingCommand
  | unknownCommand (name : String)
  | unknownOption (name : String)
  | missingValue (option : String)
  | surplusValue (option value : String)
  | invalidValue (option value : String)
  | repeatedOption (option : String)
  | emptyPath
  | missingPath
  | surplusArgument (text : String)
  deriving DecidableEq

/-- The wording of a mistake. -/
def UsageError.message : UsageError → String
  | missingCommand => "a command is required"
  | unknownCommand name => s!"unknown command '{name}'"
  | unknownOption name => s!"unknown option '{name}'"
  | missingValue option => s!"option '{option}' requires a value"
  | surplusValue option value => s!"option '{option}' does not take the value '{value}'"
  | invalidValue option value => s!"'{value}' is not a value of option '{option}'"
  | repeatedOption option => s!"option '{option}' is given twice"
  | emptyPath => "a path must not be empty"
  | missingPath => "a path is required"
  | surplusArgument text => s!"unexpected argument '{text}'"

/-- The forms of an argument. -/
inductive Argument where
  | plain (text : String)
  /-- A name behind two hyphens, with the value behind an equals sign if there is one. -/
  | long (name : String) (value : Option String)
  /-- Letters behind one hyphen. -/
  | short (letters : List Char)
  | separator
  deriving DecidableEq

/-- The form of an argument. A hyphen alone is an ordinary argument. -/
def Argument.ofText (text : String) : Argument :=
  match text.toList with
  | ['-', '-'] => .separator
  | '-' :: '-' :: rest =>
      let name := String.ofList (rest.takeWhile (· ≠ '='))
      match rest.dropWhile (· ≠ '=') with
      | [] => .long name none
      | _ :: value => .long name (some (String.ofList value))
  | ['-'] => .plain text
  | '-' :: letters => .short letters
  | _ => .plain text

/-- What ends reading arguments early. -/
inductive Interruption where
  | help
  | mistake (error : UsageError)

/-- The result of reading arguments. -/
abbrev Reading (α : Type) := Except Interruption α

namespace Reading

/-- Ends reading with a mistake. -/
def fail {α : Type} (error : UsageError) : Reading α := .error (.mistake error)

/-- A path from an argument. -/
def path (text : String) : Reading Path :=
  if text.isEmpty then fail .emptyPath else return .ofText text

/-- What a long option without a meaning of its own leads to: help, if that is what
it asks for. -/
def otherLong {α : Type} (name : String) : (value : Option String) → Reading α
  | none => if name = "help" then .error .help else fail (.unknownOption s!"--{name}")
  | some value =>
      if name = "help" then fail (.surplusValue s!"--{name}" value)
      else fail (.unknownOption s!"--{name}")

/-- What letters lead to: help, if the first one asks for it. No other letter has a
meaning. -/
def short {α : Type} : (letters : List Char) → Reading α
  | 'h' :: _ => .error .help
  | letters => fail (.unknownOption s!"-{String.ofList letters}")

end Reading

/-- The options of a build that take a value. -/
inductive BuildOption where
  | config
  | target
  | jobs
  deriving DecidableEq

namespace BuildOption

/-- The name of an option. -/
def name : BuildOption → String
  | config => "config"
  | target => "target"
  | jobs => "jobs"

/-- The option with a name; nothing may be left out of it. -/
def ofName? (name : String) : Option BuildOption := [config, target, jobs].find? (·.name == name)

/-- An option as it is written. -/
def label (option : BuildOption) : String := s!"--{option.name}"

end BuildOption

namespace BuildArguments

/-- A build of nothing, with no option given. -/
def empty : BuildArguments := ⟨[], none, none, none, false⟩

/-- One more input. -/
def addInput (build : BuildArguments) (text : String) : Reading BuildArguments :=
  return { build with inputs := build.inputs ++ [← Reading.path text] }

/-- Whether an option has been given. -/
def isSet (build : BuildArguments) : BuildOption → Bool
  | .config => build.config.isSome
  | .target => build.target.isSome
  | .jobs => build.jobs.isSome

/-- Gives an option a value, once. -/
def setOption (build : BuildArguments) (option : BuildOption) (value : String) :
    Reading BuildArguments :=
  if build.isSet option then Reading.fail (.repeatedOption option.label)
  else match option with
    | .config => return { build with config := some (← Reading.path value) }
    | .target => return { build with target := some value }
    | .jobs =>
        match Decimal.natBelow? (2 ^ 64) value with
        | none => Reading.fail (.invalidValue option.label value)
        | some jobs => return { build with jobs := some jobs }

/-- Builds what is up to date, too; may be said once. -/
def setForce (build : BuildArguments) : (value : Option String) → Reading BuildArguments
  | some value => Reading.fail (.surplusValue "--force" value)
  | none =>
      if build.force then Reading.fail (.repeatedOption "--force")
      else return { build with force := true }

/-- Reads the arguments of a build. -/
def read : (arguments : List String) → (build : BuildArguments) → Reading BuildArguments
  | [], build => return build
  | text :: rest, build =>
      match Argument.ofText text with
      | .separator => rest.foldlM addInput build
      | .plain text => do read rest (← build.addInput text)
      | .short letters => Reading.short letters
      | .long name value =>
          if name = "force" then do read rest (← build.setForce value)
          else match BuildOption.ofName? name, value, rest with
            | none, value, _ => Reading.otherLong name value
            | some option, some value, rest => do read rest (← build.setOption option value)
            | some option, none, [] => Reading.fail (.missingValue option.label)
            | some option, none, next :: rest =>
                match Argument.ofText next with
                | .plain value => do read rest (← build.setOption option value)
                | _ => Reading.fail (.missingValue option.label)

end BuildArguments

namespace Command

/-- The path from an argument of a dump, unless there is one already. -/
def addArtifact : (artifact : Option Path) → (text : String) → Reading (Option Path)
  | some _, text => Reading.fail (.surplusArgument text)
  | none, text => some <$> Reading.path text

/-- Reads the arguments of a dump. -/
def readDump : (arguments : List String) → (artifact : Option Path) → Reading (Option Path)
  | [], artifact => return artifact
  | text :: rest, artifact =>
      match Argument.ofText text with
      | .separator => rest.foldlM addArtifact artifact
      | .plain text => do readDump rest (← addArtifact artifact text)
      | .short letters => Reading.short letters
      | .long name value => Reading.otherLong name value

/-- The names of the commands, help included. -/
def names : List String := ["build", "dump", "help"]

/-- Reads the arguments of a request for help, which may name one command. -/
def readHelp : (arguments : List String) → Reading Command
  | [] => return .help
  | name :: rest =>
      if name ∉ names then Reading.fail (.unknownCommand name)
      else match rest with
        | [] => return .help
        | other :: _ => Reading.fail (.unknownCommand other)

/-- Reads all arguments. -/
def read : (arguments : List String) → Reading Command
  | [] => Reading.fail .missingCommand
  | "build" :: rest => do
      let build ← BuildArguments.read rest .empty
      if build.inputs.isEmpty then Reading.fail .missingPath else return .build build
  | "dump" :: rest => do
      match ← readDump rest none with
      | none => Reading.fail .missingPath
      | some artifact => return .dump artifact
  | "help" :: rest => readHelp rest
  | text :: _ =>
      match Argument.ofText text with
      | .separator => Reading.fail .missingCommand
      | .plain text => Reading.fail (.unknownCommand text)
      | .short letters => Reading.short letters
      | .long name value => Reading.otherLong name value

/-- What the arguments ask for. -/
def ofArguments (arguments : List String) : Except UsageError Command :=
  match read arguments with
  | .ok command => .ok command
  | .error .help => .ok .help
  | .error (.mistake error) => .error error

end Command

end SceneForge
