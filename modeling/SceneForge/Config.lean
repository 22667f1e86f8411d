import SceneForge.Files.Program
import SceneForge.Text.Utf8
import SceneForge.Toml.Reading

/-!
# Configuration

How a build is configured: for which target, where artifacts go, and which catalog
and build database are used. A configuration file gives some of the settings, and
variables of the environment override two of them.
-/

namespace SceneForge

/-- The settings of a build. -/
structure Config where
  /-- The target that artifacts are built for. -/
  target : String
  outputDirectory : Path
  /-- The build database; without one nothing is remembered. -/
  database : Option Path
  catalog : Option Path
  /-- How many assets are built at a time; zero for as many as there are processors. -/
  jobs : Nat
  /-- Whether to build what is up to date, too. -/
  force : Bool
  deriving DecidableEq

/-- Why a configuration file is not accepted. -/
inductive ConfigError where
  | unreadable
  | malformed
  deriving DecidableEq

namespace Config

/-- The settings without a file. -/
def standard : Config := ⟨"Vulkan", .ofText "compiled", none, none, 0, false⟩

/-- Changes settings by the value of a key, if it has one; `none` if the value is of
the wrong type. -/
def withSetting (members : Toml.Members) (key : String)
    (change : Toml.Value → Config → Option Config) (config : Config) : Option Config :=
  match members.get? key with
  | none => some config
  | some value => change value config

/-- A text. -/
def text? : Toml.Value → Option String
  | .string text => some text
  | _ => none

/-- A natural number. -/
def nat? : Toml.Value → Option Nat
  | .integer (.ofNat n) => some n
  | _ => none

/-- A truth value. -/
def flag? : Toml.Value → Option Bool
  | .boolean value => some value
  | _ => none

/-- The settings in a table. Other keys are ignored. -/
def ofMembers (members : Toml.Members) : Option Config := do
  let config ← withSetting members "rhi_target"
    (fun value config => return { config with target := ← text? value }) standard
  let config ← withSetting members "output_directory"
    (fun value config => return { config with outputDirectory := .ofText (← text? value) }) config
  let config ← withSetting members "cache_database"
    (fun value config => return { config with database := some (.ofText (← text? value)) }) config
  let config ← withSetting members "asset_catalog"
    (fun value config => return { config with catalog := some (.ofText (← text? value)) }) config
  let config ← withSetting members "jobs"
    (fun value config => return { config with jobs := ← nat? value }) config
  withSetting members "force"
    (fun value config => return { config with force := ← flag? value }) config

/-- The settings that a text describes. -/
def read (text : String) : Except ConfigError Config :=
  match (Toml.read? text).bind ofMembers with
  | some config => .ok config
  | none => .error .malformed

/-- The settings that a file describes. -/
def load (path : Path) : Program (Except ConfigError Config) := do
  match ← Program.ask (.read path) with
  | .error _ => return .error .unreadable
  | .ok bytes =>
      match Text.ofUtf8 bytes with
      | .error _ => return .error .unreadable
      | .ok text => return read text

/-- The variable that overrides the target. -/
def targetVariable : String := "VOID_SCENE_TARGET"

/-- The variable that overrides the number of jobs. -/
def jobsVariable : String := "VOID_SCENE_JOBS"

/-- The settings with variables applied. An empty target and a number that cannot be
read are ignored. -/
def override (config : Config) (lookup : String → Option String) : Config :=
  let config := match lookup targetVariable with
    | none | some "" => config
    | some target => { config with target }
  match (lookup jobsVariable).bind (Decimal.natBelow? (2 ^ 64)) with
  | none => config
  | some jobs => { config with jobs }

/-- The number of jobs on a machine with a number of processors: as many of these, unless jobs
are given. -/
def effectiveJobs (config : Config) (processors : Nat) : Nat :=
  if config.jobs = 0 then processors else config.jobs

end Config

end SceneForge
