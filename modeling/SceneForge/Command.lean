import SceneForge.Command.Arguments
import SceneForge.Command.Description
import SceneForge.Compile.Schedule

/-!
# Commands

What the commands do. A build reads its settings from a configuration file, overrides
them by variables and by arguments, and compiles all inputs, whether or not some of
them fail. A dump describes an artifact.
-/

namespace SceneForge

/-- Why a command fails. -/
inductive CommandError where
  | config (error : ConfigError)
  | catalog (error : CatalogError)
  | cache (error : CacheError)
  | artifact (error : FormatError)
  | build (failed total : Nat)

/-- The wording of a problem. -/
def CommandError.message : CommandError → String
  | config .unreadable => "the configuration file cannot be read"
  | config .malformed => "the configuration file is malformed"
  | catalog (.unreadable path) => s!"asset catalog {path.text} cannot be read"
  | catalog error => error.message?.getD "the asset catalog is malformed"
  | cache (.io path) => s!"build database {path.text} cannot be read"
  | cache (.corrupt path) => s!"build database {path.text} is corrupt"
  | artifact error => error.message?.getD "the artifact cannot be read"
  | build failed total => s!"{failed} of {total} scene assets failed to compile"

namespace Config

/-- The configuration file that is used without being named. -/
def defaultFile : Path := .ofText "scenec.toml"

/-- The settings of the named configuration file, or of the default one if it is
there. -/
def find (named : Option Path) : Program (Except ConfigError Config) := do
  match named with
  | some path => load path
  | none => if ← Program.ask (.pathExists defaultFile) then load defaultFile else return .ok standard

end Config

namespace BuildArguments

/-- Settings overridden by the arguments of a build. -/
def apply (build : BuildArguments) (config : Config) : Config :=
  { config with
    target := build.target.getD config.target
    jobs := build.jobs.getD config.jobs
    force := config.force || build.force }

/-- The compiler and the cache of a build; `lookup` gives the values of variables. -/
def prepare (build : BuildArguments) (lookup : String → Option String) :
    ExceptT CommandError Program (Compiler × Cache) := do
  let found ← ExceptT.adapt CommandError.config (ExceptT.mk (Config.find build.config))
  let config := build.apply (found.override lookup)
  let catalog ← match config.catalog with
    | some path => ExceptT.adapt CommandError.catalog (ExceptT.mk (Catalog.load path))
    | none => pure .empty
  let cache ← match config.database with
    | some path => ExceptT.adapt CommandError.cache (ExceptT.mk (Cache.load path))
    | none => pure .inMemory
  return (⟨config, catalog, .standard⟩, cache)

/-- Compiles all inputs side by side. -/
def run (build : BuildArguments) (processors : Nat) (lookup : String → Option String) :
    ExceptT CommandError Program Unit := do
  let (compiler, cache) ← build.prepare lookup
  let jobs := compiler.config.effectiveJobs processors
  let (results, _) ← (compiler.compileBatch jobs build.inputs cache : Program _)
  let failed := results.countP fun result => !result.isOk
  if failed ≠ 0 then throw (.build failed results.length)

end BuildArguments

namespace Command

/-- The description of an artifact. -/
def describe (artifact : Path) : ExceptT CommandError Program String := do
  match ← (Program.ask (.read artifact) : Program (Except FileError Bytes)) with
  | .error _ => throw (.artifact .unreadable)
  | .ok bytes =>
      match Artifact.scene bytes with
      | .error error => throw (.artifact error)
      | .ok scene => return scene.described

/-- How to use the commands. -/
def usage : String :=
  "Compiles scene documents into binary scene assets\n\n" ++
  "Usage:\n" ++
  "  sceneforge build [--config FILE] [--target NAME] [--jobs NUMBER] [--force] INPUT...\n" ++
  "  sceneforge dump ARTIFACT\n" ++
  "  sceneforge help [COMMAND]\n"

/-- Carries out a command on a machine with a number of processors; gives the text to print. -/
def run (processors : Nat) (lookup : String → Option String) :
    Command → ExceptT CommandError Program String
  | help => return usage
  | build arguments => do
      arguments.run processors lookup
      return ""
  | dump artifact => describe artifact

end Command

/-- What a run of the command line comes to. -/
inductive Report where
  | success (output : String)
  | failure (error : CommandError)
  | misuse (error : UsageError)

/-- The exit code that tells success, failure and misuse apart. -/
def Report.exitCode : Report → UInt32
  | success _ => 0
  | failure _ => 1
  | misuse _ => 2

/-- Runs the command line. -/
def Command.runArguments (arguments : List String) (processors : Nat)
    (lookup : String → Option String) : Program Report := do
  match Command.ofArguments arguments with
  | .error error => return .misuse error
  | .ok command =>
      match ← (command.run processors lookup).run with
      | .ok output => return .success output
      | .error error => return .failure error

end SceneForge
