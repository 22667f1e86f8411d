import SceneForge.Proofs.Compile.Phases
import SceneForge.Proofs.Compile.RoundTrip

/-!
# What a failure leaves

A compilation that fails leaves the records alone, in memory and in the database file.
The artifact stays what it was too, unless all that failed was to store its record: by
then the new artifact has taken its place.
-/

namespace SceneForge

open Program

namespace Compiler

/-- Whether compiling gets as far as writing an artifact, and not the one that stands
there already. -/
def Overwrites (compiler : Compiler) (input : Path) (cache : Cache) (files : FileSystem) : Prop :=
  ∃ decision source artifact,
    ((compiler.phases input cache).run.run files).1 = .ok (decision, source, artifact) ∧
      files.fileAt? (files.place (compiler.outputPath input)) ≠ some artifact

variable {compiler : Compiler} {input : Path} {cache : Cache} {files after : FileSystem}

/-- A phase that fails changes nothing but the temporary file of the artifact. -/
theorem PhasesEnd.fileAt?_of_error {error : CompileError} {location : Location}
    (ends : PhasesEnd compiler input cache files (.error (.error error)) after)
    (apart : location ≠ files.place ((compiler.outputPath input).temporary files.process)) :
    after.fileAt? location = files.fileAt? location := by
  cases ends with
  | failed => rfl
  | notWritten _ writes =>
      by_cases same : location = files.place (compiler.outputPath input)
      · rw [same] at apart ⊢
        exact writes.kept nofun apart
      · exact writes.fileAt?_eq location apart same

/-- Failing to write a file changes nothing but its temporary file. -/
theorem fileAt?_of_refusal {path : Path} {data : Bytes} {refusal : FileError} {location : Location}
    (process : '/' ∉ files.process.toList) (writes : Writes path data files (.error refusal) after)
    (apart : location ≠ files.place (path.temporary files.process)) :
    after.fileAt? location = files.fileAt? location := by
  by_cases same : location = files.place path
  · rw [same]
    exact writes.kept nofun (path.place_temporary_ne process files).symm
  · exact writes.fileAt?_eq location apart same

/-- Where recording fails after the artifact was written, the new artifact stays. -/
theorem fileAt?_of_notStored {database : Path} {artifact data : Bytes} {refusal : FileError}
    {between : FileSystem} (process : '/' ∉ files.process.toList)
    (written : Writes (compiler.outputPath input) artifact files (.ok ()) between)
    (refused : Writes database data between (.error refusal) after) :
    after.fileAt? (files.place (compiler.outputPath input)) = some artifact := by
  rw [← written.written rfl]
  apply fileAt?_of_refusal (written.process_eq ▸ process) refused
  rw [written.place_eq, written.process_eq]
  exact compiler.place_outputPath_ne_temporary input database files.process files

/-- A compilation that fails leaves the records as they were, in memory and, unless the
artifact is written in its place, in the database file. The artifact is what it was,
unless it was written before storing its record failed. -/
theorem compile_failure {error : CompileError} {cacheAfter : Cache}
    (process : '/' ∉ files.process.toList)
    (failed : (compiler.compile input cache).run files = ((.error error, cacheAfter), after)) :
    cacheAfter = cache ∧
    (∀ database, cache.path = some database →
      files.place database ≠ files.place (compiler.outputPath input) →
      files.place database ≠ files.place ((compiler.outputPath input).temporary files.process) →
        after.fileAt? (files.place database) = files.fileAt? (files.place database)) ∧
    (after.fileAt? (files.place (compiler.outputPath input)) =
        files.fileAt? (files.place (compiler.outputPath input)) ↔
      ¬ compiler.Overwrites input cache files) := by
  have ends : CompileEnd compiler input cache files (.error error, cacheAfter) after := by
    have ends := (leaves_compile compiler input cache files).holds
    rwa [failed] at ends
  cases ends with
  | early ran ends =>
      refine ⟨rfl, ?_, ?_⟩
      · intro database _ _ apart
        exact ends.fileAt?_of_error apart
      · apply iff_of_true
        · exact ends.fileAt?_of_error (compiler.place_outputPath_ne_temporary input _ _ files)
        · intro overwrites
          obtain ⟨decision, source, artifact, reached, -⟩ := overwrites
          rw [ran] at reached
          cases reached
  | recorded ran ends recorded =>
      cases ends with
      | written _ built writes =>
      cases recorded with
      | @notStored path refusal _ hasDatabase refused =>
          have stands := fileAt?_of_notStored process writes refused
          refine ⟨rfl, ?_, ?_⟩
          · intro database isDatabase apart notTemporary
            obtain rfl := Option.some.inj (hasDatabase.symm.trans isDatabase)
            rw [← writes.fileAt?_eq _ notTemporary apart, ← writes.place_eq]
            apply refused.kept nofun
            exact (path.place_temporary_ne (writes.process_eq ▸ process) _).symm
          · rw [stands, eq_comm]
            constructor
            · intro stood overwrites
              obtain ⟨decision, source, artifact, reached, differs⟩ := overwrites
              rw [ran] at reached
              cases reached
              exact differs stood
            · intro overwrites
              by_contra differs
              exact overwrites ⟨_, _, _, by rw [ran], differs⟩

/-- A record is not stored where the database file should be there is a directory. -/
theorem RecordEnd.of_directory {decision : BuildDecision} {source artifact : Bytes} {database : Path}
    {result : Except CompileError Outcome × Cache}
    (ends : RecordEnd compiler input decision source artifact cache files result after)
    (hasDatabase : cache.path = some database)
    (directory : files.entry? (files.place database) = some .directory) :
    ∃ error, result = (.error error, cache) := by
  cases ends with
  | notStored => exact ⟨_, rfl⟩
  | stored saves =>
      rw [Cache.Saves, hasDatabase] at saves
      have written := saves.written rfl
      rw [FileSystem.fileAt?, saves.directory_stays _ directory] at written
      cases written

/-- A source of one empty node, and a directory where the database file should be. -/
def blockedFiles : FileSystem :=
  let source := Text.utf8 "\x7b\"Nodes\":[\x7b\x7d]\x7d"
  let entries := SortedMap.empty.insert [Text.utf8 "a.json"] (.file source)
  ⟨entries.insert [Text.utf8 "cache.bin"] .directory, [], "1", fun _ _ => false⟩

/-- Where the database file cannot be written, the artifact is written although compiling
fails. -/
theorem compile_failure_blocked :
    let compiler : Compiler := ⟨⟨"Vulkan", .ofText "", none, none, 0, false⟩, .empty, .standard⟩
    let cache : Cache := ⟨some (.ofText "cache.bin"), SortedMap.empty⟩
    let output := blockedFiles.place (compiler.outputPath (.ofText "a.json"))
    ∃ error after,
      (compiler.compile (.ofText "a.json") cache).run blockedFiles = ((.error error, cache), after) ∧
        after.fileAt? output ≠ blockedFiles.fileAt? output := by
  intro compiler cache output
  obtain ⟨artifact, compiled⟩ :
      ∃ artifact, compiler.artifact "\x7b\"Nodes\":[\x7b\x7d]\x7d" = .ok artifact :=
    exists_artifact rfl (by decide +kernel)
  have built : compiler.Builds (.ofText "a.json") blockedFiles _ artifact :=
    ⟨by rfl, (compiler.build_utf8 _).trans compiled⟩
  have goes : compiler.outputPath (.ofText "a.json") = .ofText "a.scene" := by rfl
  have written : ((writeAtomically (compiler.outputPath (.ofText "a.json")) artifact).run blockedFiles).1 =
      .ok () := by
    rw [goes]
    rfl
  obtain ⟨left, wrote⟩ := exists_run_eq written
  obtain ⟨decision, reached⟩ := @phases_reach _ _ cache _ _ _ left (by decide +kernel) built wrote
  have nothing : blockedFiles.fileAt? output = none := by decide +kernel
  have overwrites : compiler.Overwrites (.ofText "a.json") cache blockedFiles :=
    ⟨decision, _, artifact, congrArg Prod.fst reached, fun stands => nomatch nothing.symm.trans stands⟩
  have ends := (leaves_compile compiler (.ofText "a.json") cache blockedFiles).holds
  rcases ran : (compiler.compile (.ofText "a.json") cache).run blockedFiles with ⟨result, after⟩
  rw [ran] at ends
  obtain ⟨error, rfl⟩ : ∃ error, result = (.error error, cache) := by
    cases ends with
    | early stopped =>
        rw [stopped] at reached
        cases reached
    | recorded _ ends recorded =>
        cases ends with
        | written _ _ writes =>
            have directory : blockedFiles.entry? (blockedFiles.place (.ofText "cache.bin")) = some .directory := by
              decide +kernel
            apply recorded.of_directory rfl
            rw [writes.place_eq]
            exact writes.directory_stays _ directory
  refine ⟨error, after, rfl, fun unchanged => ?_⟩
  exact (compile_failure (by decide) ran).2.2.mp unchanged overwrites

end Compiler

end SceneForge
