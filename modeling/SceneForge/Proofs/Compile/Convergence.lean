import SceneForge.Proofs.Build.Convergence
import SceneForge.Proofs.Compile.Recording
import SceneForge.Proofs.Compile.Soundness
import SceneForge.Proofs.Files.Replacing

/-!
# Compiling again

What was compiled is up to date when it is compiled again, unless something has changed:
what is recorded of a compilation is what the gate found, and neither writing the artifact
nor writing the database changes what was compiled.
-/

namespace SceneForge

open Program

namespace Compiler

variable {compiler : Compiler} {input path output : Path} {cache compiled : Cache}
  {files between after : FileSystem} {decision : BuildDecision} {source artifact : Bytes} {size : Nat}

/-- Of a source that has not changed since the gate saw it, that is recorded which the gate
found. -/
theorem recordedInputs_eq (evaluates : cache.Evaluates (compiler.request input) files decision)
    (read : files.read input = .ok source) :
    compiler.recordedInputs input source decision.inputs = decision.inputs := by
  obtain ⟨current, shown, -, inputs⟩ := evaluates
  rw [inputs_request] at shown
  obtain ⟨first, others, shows, -, rfl⟩ := List.forall₂_cons_left_iff.mp shown
  rw [inputs, List.filterMap_cons, recorded?_of_shows shows, read]
  simp [recordedInputs, entry, Except.toOption, List.findIdx?_cons]

/-- Where all phases up to the record succeed, the artifact has been written. -/
theorem written_of_phases
    (reached : (compiler.phases input cache).run.run files = (.ok (decision, source, artifact), between)) :
    (writeAtomically (compiler.outputPath input) artifact).run files = (.ok (), between) := by
  have writes (artifact : Bytes) : (compiler.write input artifact).run.Leaves files fun answer after =>
      answer = .ok () →
        (writeAtomically (compiler.outputPath input) artifact).run files = (.ok (), after) := by
    rw [write]
    apply leaves_bind_of_failing.mpr
    apply leaves_lift.mpr
    apply (leaves_run (writeAtomically (compiler.outputPath input) artifact) files).mono
    intro answer after ran
    cases answer with
    | error error =>
        apply leaves_pure.mpr
        intro impossible
        cases impossible
    | ok value => exact leaves_pure.mpr fun _ => ran
  have phases : (compiler.phases input cache).run.Leaves files fun answer after =>
      answer = .ok (decision, source, artifact) →
        (writeAtomically (compiler.outputPath input) artifact).run files = (.ok (), after) := by
    rw [Compiler.phases]
    apply leaves_bind_of_failing.mpr
    apply (leaves_judge compiler input cache files).mono
    rintro judged _ ⟨rfl, -⟩
    cases judged with
    | error result =>
        intro impossible
        cases impossible
    | ok decision =>
        apply leaves_bind_of_failing.mpr
        apply (leaves_buildInput compiler input _).mono
        rintro _ _ ⟨rfl, ⟨source, artifact, rfl, -⟩ | ⟨error, rfl⟩⟩
        · apply leaves_bind_of_failing.mpr
          apply (writes artifact).mono
          intro answer after written
          cases answer with
          | error result =>
              intro impossible
              cases impossible
          | ok value =>
              apply leaves_pure.mpr
              intro same
              cases same
              exact written rfl
        · intro impossible
          cases impossible
  have written := phases.holds
  rw [reached] at written
  exact written rfl

/-- What a compilation leaves that writes an artifact. -/
structure Produces (compiler : Compiler) (input : Path) (cache compiled : Cache)
    (files after : FileSystem) (decision : BuildDecision) (source artifact : Bytes)
    (between : FileSystem) : Prop where
  evaluates : cache.Evaluates (compiler.request input) files decision
  builds : compiler.Builds input files source artifact
  written : (writeAtomically (compiler.outputPath input) artifact).run files = (.ok (), between)
  records_eq : compiled =
    { cache with records := compiler.recordsAfter input cache decision source }
  saves : cache.Saves (compiler.recordsAfter input cache decision source) between after

theorem produces_of_compile
    (ran : (compiler.compile input cache).run files = ((.ok (.compiled output size), compiled), after)) :
    output = compiler.outputPath input ∧ ∃ decision source artifact between,
      compiler.Produces input cache compiled files after decision source artifact between := by
  have ends := (leaves_compile compiler input cache files).holds
  rw [ran] at ends
  cases ends with
  | early _ ends => cases ends
  | recorded reached ends recorded =>
      cases ends with
      | written evaluates builds =>
          cases recorded with
          | stored saves =>
              exact ⟨rfl, _, _, _, _, evaluates, builds, written_of_phases reached, rfl, saves⟩

/-- A file that has been written leaves every other what it was, or takes it away. -/
theorem fileAt?_of_written {data : Bytes} {location : Location} (process : '/' ∉ files.process.toList)
    (writes : Writes path data files (.ok ()) after) (apart : location ≠ files.place path) :
    after.fileAt? location = files.fileAt? location ∨ after.fileAt? location = none := by
  by_cases temporary : location = files.place (path.temporary files.process)
  · rw [temporary]
    exact .inr (writes.gone rfl (path.place_temporary_ne process files))
  · exact .inl (writes.fileAt?_eq location temporary apart)

namespace Produces

variable (produces : compiler.Produces input cache compiled files after decision source artifact between)
include produces

theorem writes : Writes (compiler.outputPath input) artifact files (.ok ()) between := by
  have writes := (leaves_writeAtomically (compiler.outputPath input) artifact files).holds
  rwa [produces.written] at writes

theorem extended : FileSystem.Extends files after := by
  refine produces.writes.toExtends.trans ?_
  have saves := produces.saves
  rw [Cache.Saves] at saves
  split at saves
  next =>
    rw [saves]
    exact .refl between
  next => exact saves.toExtends

/-- A file other than the artifact and the database is what it was, or has been taken away. -/
theorem fileAt? (process : '/' ∉ files.process.toList) {location : Location}
    (apart : location ≠ files.place (compiler.outputPath input))
    (notDatabase : ∀ database, cache.path = some database → location ≠ files.place database) :
    after.fileAt? location = files.fileAt? location ∨ after.fileAt? location = none := by
  have writes := produces.writes
  have written := fileAt?_of_written process writes apart
  have saves := produces.saves
  rw [Cache.Saves] at saves
  split at saves
  next =>
    rw [saves]
    exact written
  next database hasDatabase =>
    have apart : location ≠ between.place database := by
      rw [writes.place_eq]
      exact notDatabase database hasDatabase
    rcases fileAt?_of_written (writes.process_eq ▸ process) saves apart with same | gone
    · rwa [same]
    · exact .inr gone

/-- What can be read before and after is the same. -/
theorem read_eq (process : '/' ∉ files.process.toList)
    (apart : files.place path ≠ files.place (compiler.outputPath input))
    (notDatabase : ∀ database, cache.path = some database → files.place path ≠ files.place database)
    (readable : (files.read path).isOk) (stays : (after.read path).isOk) :
    after.read path = files.read path := by
  obtain ⟨content, read⟩ := exists_of_isOk readable
  obtain ⟨now, readLater⟩ := exists_of_isOk stays
  have stood := FileSystem.read_eq_ok read
  have stands := FileSystem.read_eq_ok readLater
  rw [produces.extended.place_eq] at stands
  rcases produces.fileAt? process apart notDatabase with same | gone
  · rw [stands, stood] at same
    rw [read, readLater, Option.some.inj same]
  · cases gone.symm.trans stands

/-- The artifact is there. -/
theorem pathExists : after.pathExists (compiler.outputPath input) := by
  have writes := produces.writes
  have found := pathExists_of_writeAtomically produces.written
    (compiler.place_temporary_outputPath_ne input files)
  have saves := produces.saves
  rw [Cache.Saves] at saves
  split at saves
  next =>
    rw [saves]
    exact found
  next database hasDatabase =>
    have stands : ∃ content, after.fileAt? (between.place (compiler.outputPath input)) = some content := by
      -- The database may be in the artifact's place; then it is what is there.
      by_cases same : between.place (compiler.outputPath input) = between.place database
      · rw [same]
        exact ⟨_, saves.written rfl⟩
      · rw [saves.fileAt?_eq _ (compiler.place_outputPath_ne_temporary input database _ between) same,
          writes.place_eq]
        exact ⟨_, writes.written rfl⟩
    obtain ⟨content, stands⟩ := stands
    exact saves.toExtends.pathExists found (FileSystem.fileAt?_eq_some_iff.mp stands)

/-- The record is that of the gate's decision. -/
theorem inputs?_eq : compiled.inputs? (compiler.request input).key = some decision.inputs := by
  rw [produces.records_eq, Cache.inputs?, recordsAfter, SortedMap.get?_insert_self,
    recordedInputs_eq produces.evaluates produces.builds.read_eq]

end Produces

/-- What was compiled is up to date later, whatever is recorded of other artifacts. -/
theorem Produces.compile_again
    (produces : compiler.Produces input cache compiled files after decision source artifact between)
    (storable : Database.Storable compiled.records)
    (readable : ∀ path ∈ (compiler.request input).inputs, ∃ content, files.read path = .ok content)
    {later : Cache} {final : FileSystem}
    (runs : Cache.Runs (· ≠ (compiler.request input).key) (compiled, after) (later, final))
    (same : ∀ path ∈ (compiler.request input).inputs, final.read path = files.read path)
    (stands : final.pathExists (compiler.outputPath input)) {again : Compiler}
    (request : again.request input = compiler.request input) (unforced : again.config.force = false) :
    (again.compile input later).run final =
      ((.ok (.upToDate (again.outputPath input)), later), final) := by
  have mirrors : compiled.Mirrors after := by
    rw [produces.records_eq] at storable ⊢
    exact Cache.mirrors_of_saves produces.saves storable
  have recorded := (runs.inputs?_eq mirrors (not_not_intro rfl)).trans produces.inputs?_eq
  have nonempty : (compiler.request input).inputs ≠ [] := List.cons_ne_nil _ _
  obtain ⟨verdict, evaluated, upToDate⟩ :=
    Cache.upToDate_of_recorded produces.evaluates nonempty readable recorded same stands
  rw [← request] at evaluated
  exact compile_of_upToDate (congrArg Prod.fst evaluated) upToDate unforced

/-- A decision of the gate that has been stored makes its artifact up to date: every later
evaluation of the request says so, whatever was stored or removed of other artifacts and
however often the database was opened again, as long as the inputs read the same and the
output is there. Likewise, what was compiled is up to date when it is compiled again, and
then nothing changes. -/
theorem converges :
    (∀ (request : BuildRequest) (cache : Cache) (files : FileSystem),
      request.inputs ≠ [] → (∀ path ∈ request.inputs, (files.read path).isOk) →
        ∃ decision, (cache.evaluate request).run files = (.ok decision, files) ∧
          ∀ (recorder stored : Cache) (storing standing : FileSystem),
            '/' ∉ storing.process.toList →
            Database.Storable (recorder.records.insert request.key decision.inputs) →
            (recorder.store request.key decision.inputs).run storing = ((.ok (), stored), standing) →
              ∀ later final, Cache.Runs (· ≠ request.key) (stored, standing) (later, final) →
                (∀ path ∈ request.inputs, final.read path = files.read path) →
                final.pathExists request.output →
                  ∃ verdict, (later.evaluate request).run final = (.ok verdict, final) ∧
                    verdict.verdict = .upToDate) ∧
    ∀ (compiler : Compiler) (input : Path) (cache compiled : Cache) (files after : FileSystem)
      (output : Path) (size : Nat),
      '/' ∉ files.process.toList →
      (compiler.compile input cache).run files = ((.ok (.compiled output size), compiled), after) →
      Database.Storable compiled.records →
      (∀ path ∈ (compiler.request input).inputs,
        (files.read path).isOk ∧ files.place path ≠ files.place output ∧
          ∀ database, cache.path = some database → files.place path ≠ files.place database) →
        ∀ later final, Cache.Runs (· ≠ (compiler.request input).key) (compiled, after) (later, final) →
          (∀ path ∈ (compiler.request input).inputs,
            (final.read path).isOk ∧ final.read path = after.read path) →
          final.pathExists output = after.pathExists output →
            ∀ again : Compiler, again.request input = compiler.request input →
              again.config.force = false →
                (again.compile input later).run final = ((.ok (.upToDate output), later), final) := by
  constructor
  · intro request cache files nonempty readable
    have readable path (member : path ∈ request.inputs) := exists_of_isOk (readable path member)
    obtain ⟨decision, evaluated⟩ := @Cache.exists_evaluate cache request files readable
    have evaluation := (cache.leaves_evaluate request files).holds
    refine ⟨decision, Prod.ext evaluated evaluation.1, ?_⟩
    intro recorder stored storing standing process storable ran later final runs same stands
    have updates := Cache.updates_of_store process ran
    have recorded : stored.inputs? request.key = some decision.inputs := by
      rw [updates.replaced rfl]
      exact SortedMap.get?_insert_self _ _ _
    have kept := runs.inputs?_eq (updates.mirrors rfl storable) (not_not_intro rfl)
    exact Cache.upToDate_of_recorded (evaluation.2 decision evaluated) nonempty readable
      (kept.trans recorded) same stands
  · intro compiler input cache compiled files after output size process ran storable present later final
      runs unchanged stands again request unforced
    obtain ⟨rfl, decision, source, artifact, between, produces⟩ := produces_of_compile ran
    have same path (member : path ∈ (compiler.request input).inputs) :
        final.read path = files.read path := by
      obtain ⟨readable, apart, notDatabase⟩ := present path member
      obtain ⟨stays, kept⟩ := unchanged path member
      rw [kept] at stays ⊢
      exact produces.read_eq process apart notDatabase readable stays
    have outputs : again.outputPath input = compiler.outputPath input := by
      rw [← output_request, ← output_request, request]
    rw [← outputs]
    exact produces.compile_again storable
      (fun path member => exists_of_isOk (present path member).1) runs same
      (stands.trans produces.pathExists) request unforced

section Sample

open Workspace

/-- What the gate records of the sample. -/
theorem inputs_sample (evaluates : cache.Evaluates (sampleCompiler.request (.ofText "a.json")) files decision)
    (read : files.read (.ofText "a.json") = .ok sampleContent)
    (readCatalog : files.read (.ofText "catalog.json") = .ok sampleContent) :
    decision.inputs = [sampleCompiler.entry (.ofText "a.json") sampleContent,
      sampleCompiler.entry (.ofText "catalog.json") sampleContent] := by
  have depends : sampleCompiler.catalog.dependencies = [.ofText "catalog.json"] := by rfl
  obtain ⟨first, second, shows, showsCatalog, inputs, -⟩ := exists_shown depends evaluates
  rw [inputs, List.filterMap_cons, recorded?_of_shows shows, read, List.filterMap_cons,
    recorded?_of_shows showsCatalog, readCatalog]
  rfl

theorem storable_sample
    (evaluates : cache.Evaluates (sampleCompiler.request (.ofText "a.json")) files decision)
    (read : files.read (.ofText "a.json") = .ok sampleContent)
    (readCatalog : files.read (.ofText "catalog.json") = .ok sampleContent) :
    Database.Storable (SortedMap.empty.insert (sampleCompiler.request (.ofText "a.json")).key
      decision.inputs) := by
  rw [inputs_sample evaluates read readCatalog]
  unfold Database.Storable
  decide +kernel

/-- The sample is compiled, and its inputs are recorded in the database file. -/
theorem exists_compile_sample :
    ∃ artifact data decision, Cache.Evaluates ⟨some (.ofText "cache.bin"), SortedMap.empty⟩
        (sampleCompiler.request (.ofText "a.json")) sampleFiles decision ∧
      (sampleCompiler.compile (.ofText "a.json") ⟨some (.ofText "cache.bin"), SortedMap.empty⟩).run sampleFiles =
        ((.ok (.compiled (.ofText "a.scene") artifact.length), ⟨some (.ofText "cache.bin"),
          SortedMap.empty.insert (sampleCompiler.request (.ofText "a.json")).key decision.inputs⟩),
            sampleFilesWith artifact (some data)) := by
  obtain ⟨artifact, built, written⟩ := exists_written_sample
  have goes : sampleCompiler.outputPath (.ofText "a.json") = .ofText "a.scene" := by rfl
  let cache : Cache := ⟨some (.ofText "cache.bin"), SortedMap.empty⟩
  obtain ⟨decision, reached⟩ := @phases_reach _ _ cache _ _ _ _ judge_sample built written
  have evaluates := evaluates_of_judge (judge_and_build_of_phases reached).1
  have recorded := @Compiler.record_eq_ok sampleCompiler (.ofText "a.json") cache _ decision sampleContent
    artifact (.ofText "cache.bin") _ rfl (save_sample artifact _)
  have ran := congrArg (fun program => program.run sampleFiles)
    (sampleCompiler.compile_eq (.ofText "a.json") cache)
  rw [run_bind, reached] at ran
  have whole := ran.trans recorded
  rw [goes, recordsAfter, recordedInputs_eq evaluates built.read_eq] at whole
  exact ⟨artifact, _, decision, evaluates, whole⟩

/-- What the gate found of the sample stays up to date once it has been stored; and the
sample, once it has been compiled, is up to date. -/
theorem converges_sample :
    (∃ decision stored,
      (Cache.inMemory.evaluate (sampleCompiler.request (.ofText "a.json"))).run (sampleFilesWith [] none) =
        (.ok decision, sampleFilesWith [] none) ∧
      (Cache.inMemory.store (sampleCompiler.request (.ofText "a.json")).key decision.inputs).run
        (sampleFilesWith [] none) = ((.ok (), stored), sampleFilesWith [] none) ∧
      ∃ verdict, (stored.evaluate (sampleCompiler.request (.ofText "a.json"))).run (sampleFilesWith [] none) =
        (.ok verdict, sampleFilesWith [] none) ∧ verdict.verdict = .upToDate) ∧
    ∃ size compiled after,
      (sampleCompiler.compile (.ofText "a.json") ⟨some (.ofText "cache.bin"), SortedMap.empty⟩).run sampleFiles =
        ((.ok (.compiled (.ofText "a.scene") size), compiled), after) ∧
      (sampleCompiler.compile (.ofText "a.json") compiled).run after =
        ((.ok (.upToDate (.ofText "a.scene")), compiled), after) := by
  have inputs : (sampleCompiler.request (.ofText "a.json")).inputs =
      [.ofText "a.json", .ofText "catalog.json"] := by rfl
  constructor
  · have readable : ∀ path ∈ (sampleCompiler.request (.ofText "a.json")).inputs,
        ((sampleFilesWith [] none).read path).isOk := by
      rw [inputs]
      decide +kernel
    obtain ⟨decision, evaluated, lasts⟩ :=
      converges.1 (sampleCompiler.request (.ofText "a.json")) .inMemory _ (List.cons_ne_nil _ _) readable
    have evaluates := (Cache.leaves_evaluate _ _ _).holds.2 decision (congrArg Prod.fst evaluated)
    have storable := storable_sample evaluates (by rfl) (by rfl)
    have stored := Cache.run_store_inMemory (sampleCompiler.request (.ofText "a.json")).key decision.inputs
      (sampleFilesWith [] none)
    exact ⟨decision, _, evaluated, stored, lasts .inMemory _ _ _ (by decide) storable stored
      _ _ .refl (fun _ _ => rfl) (by decide +kernel)⟩
  · obtain ⟨artifact, data, decision, evaluates, ran⟩ := exists_compile_sample
    have storable := storable_sample evaluates (by rfl) (by rfl)
    have apart : ∀ path ∈ (sampleCompiler.request (.ofText "a.json")).inputs,
        (sampleFiles.read path).isOk ∧ sampleFiles.place path ≠ sampleFiles.place (.ofText "a.scene") ∧
          ∀ database, some (.ofText "cache.bin") = some database →
            sampleFiles.place path ≠ sampleFiles.place database := by
      rw [inputs]
      simp only [Option.some.injEq, forall_eq']
      decide +kernel
    have stays : ∀ path ∈ (sampleCompiler.request (.ofText "a.json")).inputs,
        ((sampleFilesWith artifact (some data)).read path).isOk ∧
          (sampleFilesWith artifact (some data)).read path =
            (sampleFilesWith artifact (some data)).read path := by
      intro path member
      rw [inputs] at member
      rcases List.mem_pair.mp member with rfl | rfl
      · exact ⟨by rfl, rfl⟩
      · exact ⟨by rfl, rfl⟩
    exact ⟨_, _, _, ran, converges.2 sampleCompiler (.ofText "a.json") _ _ _ _ _ _ (by decide) ran storable apart
      _ _ .refl stays rfl sampleCompiler rfl rfl⟩

end Sample

end Compiler

end SceneForge
