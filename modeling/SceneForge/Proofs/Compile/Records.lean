import SceneForge.Proofs.Compile.RoundTrip
import SceneForge.Proofs.Compile.Session

/-!
# What records vouch for

The record of an artifact names the contents that it was built from. It vouches that
what stands at the artifact's place, if anything does, is what these contents compile
to. A record keeps vouching when the artifact is removed, and when anything else is
written.
-/

namespace SceneForge

open FileSystem Program

namespace Catalog

/-- The catalog in the content of a file. -/
def ofContent? (path : Path) (content : Bytes) : Option Catalog := do
  let text ← (Text.ofUtf8 content).toOption
  let catalog ← (read text).toOption
  return { catalog with source := some path }

/-- A catalog that has been loaded is the one in the content of its file. -/
theorem load_eq_ok {path : Path} {files : FileSystem} {catalog : Catalog}
    (loaded : ((load path).run files).1 = .ok catalog) :
    ∃ content, files.read path = .ok content ∧ ofContent? path content = some catalog := by
  rw [load, run_bind, run_ask, FileRequest.run] at loaded
  cases content : files.read path with
  | error error =>
      rw [content] at loaded
      cases loaded
  | ok bytes =>
      rw [content] at loaded
      dsimp only at loaded
      refine ⟨bytes, rfl, ?_⟩
      rw [ofContent?]
      split at loaded
      next => cases loaded
      next text decoded =>
        rw [decoded]
        cases listed : read text with
        | error error =>
            rw [listed] at loaded
            cases loaded
        | ok catalog =>
            rw [listed] at loaded
            cases loaded
            simp [Except.toOption, listed]

/-- A catalog from a file depends on this file. -/
theorem dependencies_of_ofContent? {path : Path} {content : Bytes} {catalog : Catalog}
    (listed : ofContent? path content = some catalog) : catalog.dependencies = [path] := by
  rw [ofContent?] at listed
  obtain ⟨text, -, listed⟩ := Option.bind_eq_some_iff.mp listed
  obtain ⟨read, -, listed⟩ := Option.bind_eq_some_iff.mp listed
  cases listed
  rfl

end Catalog

namespace Workspace

/-- Whether inputs are the record of a source at some path and of a catalog. -/
structure Names (workspace : Workspace) (target path : String) (source catalog : Bytes)
    (recorded : List RecordedInput) : Prop where
  recorded_eq : recorded =
    [⟨target, path, .ofContent source, Artifact.version⟩,
      ⟨target, workspace.catalog.portable, .ofContent catalog, Artifact.version⟩]
  fits : ∀ input ∈ recorded, Database.InputFits input
  source_mem : source ∈ workspace.contents
  catalog_mem : catalog ∈ workspace.contents
  /-- The catalog itself may be what is compiled. -/
  source_eq : path = workspace.catalog.portable → source = catalog

/-- Whether an artifact holds what a source compiles to with a catalog. -/
def Holds (workspace : Workspace) (artifact source catalog : Bytes) : Prop :=
  ∃ text known buffer, Text.ofUtf8 source = .ok text ∧
    Catalog.ofContent? workspace.catalog catalog = some known ∧
      (∀ compiler : Compiler, compiler.catalog = known → compiler.buffer text = .ok buffer) ∧
        Artifact.decode artifact = .ok buffer

/-- Whether the record of an artifact vouches for the file that stands there, if one does. -/
structure Vouches (workspace : Workspace) (files : FileSystem) (output : Path)
    (recorded : List RecordedInput) : Prop where
  fits : Database.TextFits output.portable
  built : ∃ target path source catalog, workspace.Names target path source catalog recorded ∧
    ∀ artifact, files.fileAt? (files.place output) = some artifact →
      workspace.Holds artifact source catalog

/-- Whether all records vouch for artifacts. -/
def Trusts (workspace : Workspace) (files : FileSystem) (records : BuildRecords) : Prop :=
  ∀ key recorded, records.get? key = some recorded →
    ∃ input, key = .ofPath (workspace.output input) ∧
      workspace.Vouches files (workspace.output input) recorded

variable {workspace : Workspace} {files after : FileSystem} {input : Path}
  {recorded : List RecordedInput}

/-- A record keeps vouching for an artifact that stays or goes. -/
theorem Vouches.stays {output : Path} (vouches : workspace.Vouches files output recorded)
    (place_eq : after.place output = files.place output)
    (file : after.fileAt? (files.place output) = files.fileAt? (files.place output) ∨
      after.fileAt? (files.place output) = none) :
    workspace.Vouches after output recorded := by
  obtain ⟨target, path, source, catalog, names, holds⟩ := vouches.built
  refine ⟨vouches.fits, target, path, source, catalog, names, fun artifact stands => ?_⟩
  rw [place_eq] at stands
  rcases file with same | gone
  · exact holds artifact (same ▸ stands)
  · rw [gone] at stands
    cases stands

/-- Edits leave every record vouching. -/
theorem Vouches.edit (vouches : workspace.Vouches files (workspace.output input) recorded)
    (edits : workspace.Edits files after) :
    workspace.Vouches after (workspace.output input) recorded :=
  vouches.stays (edits.place_eq _) (edits.output input)

/-- Writing an artifact leaves the records of the others vouching, and if it fails its own
as well. -/
theorem Vouches.write (vouches : workspace.Vouches files (workspace.output input) recorded)
    {other : Path} {artifact : Bytes} {answer : Except FileError Unit}
    (writes : Writes (workspace.output other) artifact files answer after)
    (kept : answer ≠ .ok () ∨ workspace.output input ≠ workspace.output other) :
    workspace.Vouches after (workspace.output input) recorded := by
  have apart := workspace.place_output_ne_temporary files input (workspace.output other) files.process
  refine vouches.stays (writes.place_eq _) (.inl ?_)
  by_cases same : files.place (workspace.output input) = files.place (workspace.output other)
  · rw [same] at apart ⊢
    exact writes.kept (kept.resolve_right (not_not_intro (output_eq_of_place same))) apart
  · exact writes.fileAt?_eq _ apart same

/-- Writing the database leaves every record vouching. -/
theorem Vouches.save (vouches : workspace.Vouches files (workspace.output input) recorded)
    {data : Bytes} {answer : Except FileError Unit}
    (writes : Writes workspace.database data files answer after)
    (apart : files.place workspace.database ≠ files.place (workspace.output input)) :
    workspace.Vouches after (workspace.output input) recorded := by
  refine vouches.stays (writes.place_eq _) (.inl (writes.fileAt?_eq _ ?_ apart.symm))
  exact workspace.place_output_ne_temporary files input workspace.database files.process

/-- What stands at a path is a file if it is no directory. -/
theorem exists_artifact {output : Path} (stands : files.pathExists output)
    (noDirectory : files.entry? (files.place output) ≠ some .directory) :
    ∃ artifact, files.find output = .ok (files.place output, .file artifact) ∧
      files.fileAt? (files.place output) = some artifact := by
  rw [pathExists] at stands
  cases found : files.find output with
  | error error =>
      rw [found] at stands
      cases stands
  | ok result =>
      obtain ⟨location, entry⟩ := result
      obtain ⟨rfl, entered⟩ := FileSystem.find_eq_ok found
      cases entry with
      | directory => exact absurd entered noDirectory
      | file artifact => exact ⟨artifact, rfl, fileAt?_eq_some_iff.mpr entered⟩

/-- What records vouch for can be read from the database that they are written to. -/
theorem Trusts.recordFits {records : BuildRecords} (trusts : workspace.Trusts files records) :
    ∀ record ∈ records.entries, Database.RecordFits record := by
  rintro ⟨key, recorded⟩ member
  obtain ⟨input, rfl, vouches⟩ := trusts key recorded (SortedMap.get?_eq_some_iff.mpr member)
  obtain ⟨target, path, source, catalog, names, -⟩ := vouches.built
  refine ⟨vouches.fits, ?_, names.fits⟩
  rw [names.recorded_eq]
  change 2 < 2 ^ 64
  decide

/-- An artifact holds what it was built from. -/
theorem holds_of_build {compiler : Compiler} {source artifact catalog : Bytes}
    (built : compiler.build source = .ok artifact)
    (listed : Catalog.ofContent? workspace.catalog catalog = some compiler.catalog) :
    workspace.Holds artifact source catalog := by
  rw [Compiler.build] at built
  obtain ⟨text, decoded, compiled⟩ := bind_eq_ok_iff.mp built
  obtain ⟨buffer, buffered, opened⟩ := Compiler.artifact_eq_ok compiled
  refine ⟨text, compiler.catalog, buffer, mapError_eq_ok_iff.mp decoded, listed, ?_, opened⟩
  rintro ⟨config, known, compressor⟩ rfl
  exact buffered

end Workspace

end SceneForge
