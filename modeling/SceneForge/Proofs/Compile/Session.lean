import Mathlib.Data.Set.Function
import SceneForge.Proofs.Build.Database
import SceneForge.Proofs.Build.Gate
import SceneForge.Proofs.Compile.Outputs

/-!
# Sessions

Whole runs of a build: sources and the catalog are edited, artifacts are deleted, the
database is opened again, and inputs are compiled, in any order and any number of
times. All compilations share an output directory, a catalog file, and a database.
-/

namespace SceneForge

/-- What the compilations of a session share. -/
structure Workspace where
  outputDirectory : Path
  catalog : Path
  database : Path
  /-- The sources that are ever compiled. -/
  sources : Set Path
  /-- The contents that sources and the catalog file ever have. -/
  contents : Set Bytes

/-- The files and the open cache at some point of a run. -/
structure Session where
  files : FileSystem
  cache : Cache

namespace Workspace

variable (workspace : Workspace)

/-- Where the artifact of an input goes. -/
def output (input : Path) : Path :=
  workspace.outputDirectory.join ⟨Compiler.artifactName input⟩

/-- A run begins without records, in memory or in a database file that could be read, and
the database is no artifact. -/
structure Starts (session : Session) : Prop where
  database_apart : ∀ input,
    session.files.place workspace.database ≠ session.files.place (workspace.output input)
  path_eq : session.cache.path = some workspace.database
  records_eq : session.cache.records = SortedMap.empty
  unrecorded : ∀ database : Database, database.StandsAt session.files workspace.database →
    database.records = SortedMap.empty

/-- Changes to files from outside: any, except that the database file and artifacts can only
be removed. A directory may come to stand where they were. -/
structure Edits (files after : FileSystem) : Prop where
  workingDirectory_eq : after.workingDirectory = files.workingDirectory
  database : after.fileAt? (files.place workspace.database) =
      files.fileAt? (files.place workspace.database) ∨
    after.fileAt? (files.place workspace.database) = none
  output : ∀ input, after.fileAt? (files.place (workspace.output input)) =
      files.fileAt? (files.place (workspace.output input)) ∨
    after.fileAt? (files.place (workspace.output input)) = none

/-- Compilations that may take place: any target, with the catalog as it is at this moment.
Texts have lengths of 64 bits, and the source and what is read are among those of the run. -/
structure Allows (session : Session) (compiler : Compiler) (input : Path) : Prop where
  outputDirectory_eq : compiler.config.outputDirectory = workspace.outputDirectory
  catalog_eq : ((Catalog.load workspace.catalog).run session.files).1 = .ok compiler.catalog
  fits : ∀ text ∈ [compiler.config.target, workspace.catalog.portable, input.portable,
    (workspace.output input).portable], Database.TextFits text
  source_mem : input ∈ workspace.sources
  contents : ∀ path ∈ [input, workspace.catalog], ∀ content,
    session.files.read path = .ok content → content ∈ workspace.contents

/-- Whether no other source than the catalog itself is recorded as the catalog is. -/
def Spelled : Prop :=
  ∀ source ∈ workspace.sources, source.portable = workspace.catalog.portable →
    source = workspace.catalog

/-- Whether writing the database does not fail, if compiling an input gets there. -/
def Stores (session : Session) (compiler : Compiler) (input : Path) : Prop :=
  ∀ decision source artifact between,
    (compiler.phases input session.cache).run.run session.files =
        (.ok (decision, source, artifact), between) →
      ((compiler.record input decision source artifact session.cache).run between).1.1.isOk

/-- One step of a run. -/
inductive Step : Session → Session → Prop where
  | edit {files after : FileSystem} {cache : Cache} :
      workspace.Edits files after → Step ⟨files, cache⟩ ⟨after, cache⟩
  | reopen {files : FileSystem} {cache reopened : Cache} :
      ((Cache.load workspace.database).run files).1 = .ok reopened →
        Step ⟨files, cache⟩ ⟨files, reopened⟩
  | compile {session : Session} {compiler : Compiler} {input : Path} {cache : Cache}
      {files : FileSystem} {result : Except CompileError Outcome} :
      workspace.Allows session compiler input → Stores session compiler input →
        (compiler.compile input session.cache).run session.files = ((result, cache), files) →
          Step session ⟨files, cache⟩

/-- The sessions that runs lead to. -/
inductive Reachable : Session → Prop where
  | start {session : Session} : workspace.Starts session → Reachable session
  | step {session after : Session} :
      Reachable session → workspace.Step session after → Reachable after

variable {workspace}

theorem outputPath_eq {compiler : Compiler}
    (shared : compiler.config.outputDirectory = workspace.outputDirectory) (input : Path) :
    compiler.outputPath input = workspace.output input := by
  rw [Compiler.outputPath, shared]
  rfl

/-- Artifacts stand in the output directory. -/
theorem place_output (files : FileSystem) (input : Path) :
    files.place (workspace.output input) =
      files.place workspace.outputDirectory ++ [Compiler.artifactName input] :=
  files.place_join _ (Compiler.plain_artifactName input)

/-- Artifacts that stand at the same place have the same path. -/
theorem output_eq_of_place {files : FileSystem} {input other : Path}
    (same : files.place (workspace.output input) = files.place (workspace.output other)) :
    workspace.output input = workspace.output other := by
  rw [place_output, place_output] at same
  have names := List.singleton_inj.mp (List.append_inj' same rfl).2
  rw [output, output, names]

theorem place_output_ne_temporary (files : FileSystem) (input path : Path) (process : String) :
    files.place (workspace.output input) ≠ files.place (path.temporary process) := by
  rw [place_output]
  exact Compiler.append_artifactName_ne _ input path process files

/-- Artifacts that are recorded under the same key have the same path. -/
theorem output_eq_of_portable {input other : Path}
    (same : (workspace.output input).portable = (workspace.output other).portable) :
    workspace.output input = workspace.output other := by
  rw [output, output, Compiler.artifactName_eq_of_portable same]

variable {workspace : Workspace} {files after : FileSystem}

/-- Paths lead to the same places after an edit. -/
theorem Edits.place_eq (edits : workspace.Edits files after) (path : Path) :
    after.place path = files.place path := by
  rw [FileSystem.place, FileSystem.place, edits.workingDirectory_eq]

end Workspace

end SceneForge
