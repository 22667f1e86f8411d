import SceneForge.Proofs.Compile.Phases
import SceneForge.Proofs.Files.Replacing

/-!
# What phases depend on

The gate and the compiler depend on the inputs as they read, on whether the artifact is
found, and on its record; recording an artifact depends on what is on the way of the
database.
-/

namespace SceneForge

open FileSystem Program

namespace Cache

variable {files other : FileSystem} {cache otherCache : Cache} {request : BuildRequest}

/-- What inputs are shown as depends on what they read as. -/
theorem answersAs_inspectAll {paths : List Path}
    (same : ∀ path ∈ paths, other.read path = files.read path) :
    (paths.mapM fun path => ExceptT.mk (inspect path)).run.AnswersAs files
      (paths.mapM fun path => ExceptT.mk (inspect path)).run other := by
  induction paths with
  | nil => exact .pure _
  | cons path paths ih =>
      rw [List.mapM_cons]
      refine .bind_of_failing ((answersAs_read (same path List.mem_cons_self)).bind fun content => ?_)
        fun shown => (ih fun other member => same other (List.mem_cons_of_mem path member)).bind_of_failing
          fun others => .pure _
      split
      · exact .pure _
      · exact .pure _
      · exact .pure _

/-- The gate's answer depends on what the inputs read as, on whether the artifact is found, and on
its record. -/
theorem answersAs_evaluate (same : ∀ path ∈ request.inputs, other.read path = files.read path)
    (found : other.pathExists request.output = files.pathExists request.output)
    (record : otherCache.inputs? request.key = cache.inputs? request.key) :
    (cache.evaluate request).AnswersAs files (otherCache.evaluate request) other := by
  refine (answersAs_inspectAll same).bind fun answer => ?_
  cases answer with
  | error error => exact .pure _
  | ok current =>
      have asks : (ask (.pathExists request.output)).AnswersAs files
          (ask (.pathExists request.output)) other :=
        ⟨files.pathExists request.output, rfl, congrArg (·, other) found⟩
      rw [record]
      exact asks.bind fun _ => .pure _

end Cache

namespace Compiler

variable {compiler : Compiler} {cache otherCache : Cache} {files other : FileSystem} {input : Path}

/-- Judging depends on what the inputs read as, on whether the artifact is found, and on its
record. -/
theorem answersAs_judge
    (same : ∀ path ∈ (compiler.request input).inputs, other.read path = files.read path)
    (found : other.pathExists (compiler.outputPath input) =
      files.pathExists (compiler.outputPath input))
    (record : otherCache.inputs? (compiler.request input).key =
      cache.inputs? (compiler.request input).key) :
    (compiler.judge input cache).run.AnswersAs files (compiler.judge input otherCache).run other := by
  refine .bind_of_failing (Cache.answersAs_evaluate same found record).lift fun answer => ?_
  cases answer with
  | error error => exact .pure _
  | ok decision =>
      dsimp only
      split
      · exact .pure _
      · exact .pure _

/-- Compiling a source depends on what it reads as. -/
theorem answersAs_buildInput (same : other.read input = files.read input) :
    (compiler.buildInput input).run.AnswersAs files (compiler.buildInput input).run other := by
  refine .bind_of_failing (answersAs_read same).lift fun content => ?_
  cases content with
  | error error => exact .pure _
  | ok source =>
      dsimp only
      split
      · exact .pure _
      · exact .pure _

/-- Recording an artifact writes the database, if there is one, and no other file. -/
theorem within_record (decision : BuildDecision) (source artifact : Bytes) {process : String} :
    (compiler.record input decision source artifact cache).Within process
      fun path => ∃ database, cache.path = some database ∧ path ∈ database.writing process := by
  have saves (records : BuildRecords) : (cache.save records).Within process
      fun path => ∃ database, cache.path = some database ∧ path ∈ database.writing process := by
    rw [Cache.save]
    cases hasDatabase : cache.path with
    | none => exact .pure _
    | some database =>
        refine .bind ((within_writeAtomically database _).mono fun path named => ?_) fun _ => .pure _
        exact ⟨database, rfl, named⟩
  refine .bind (.bind (saves _) fun saved => ?_) fun stored => ?_
  · cases saved with
    | ok value => exact .pure _
    | error error => exact .pure _
  · obtain ⟨answer, after⟩ := stored
    cases answer with
    | ok value => exact .pure _
    | error error => exact .pure _

/-- Recording an artifact leaves the records of others alone. -/
theorem cache_of_record {decision : BuildDecision} {source artifact : Bytes} {after : FileSystem}
    {result : Except CompileError Outcome} {now : Cache}
    (ran : (compiler.record input decision source artifact cache).run files = ((result, now), after)) :
    now.path = cache.path ∧
      ∀ key, key ≠ (compiler.request input).key → now.inputs? key = cache.inputs? key := by
  have ends := (leaves_record compiler input cache files decision source artifact).holds
  rw [ran] at ends
  cases ends with
  | notStored => exact ⟨rfl, fun _ _ => rfl⟩
  | stored => exact ⟨rfl, fun key differs => SortedMap.get?_insert_of_ne _ _ differs⟩

/-- Recording an artifact writes a file in the database's place, or changes no file. -/
theorem run_record {decision : BuildDecision} {source artifact : Bytes} {after : FileSystem}
    {recorded : Except CompileError Outcome × Cache}
    (ran : (compiler.record input decision source artifact cache).run files = (recorded, after)) :
    (cache.path = none ∧ after = files) ∨ ∃ database data answer, cache.path = some database ∧
      (writeAtomically database data).run files = (answer, after) := by
  have leaves : (compiler.record input decision source artifact cache).Leaves files fun _ after =>
      after = ((cache.save (compiler.recordsAfter input cache decision source)).run files).2 := by
    apply leaves_bind.mpr
    apply leaves_bind.mpr
    apply (leaves_run _ files).mono
    intro answer after saved
    cases answer with
    | ok value =>
        apply leaves_pure.mpr
        apply leaves_pure.mpr
        rw [recordsAfter, saved]
    | error error =>
        apply leaves_pure.mpr
        apply leaves_pure.mpr
        rw [recordsAfter, saved]
  have saves := leaves.holds
  rw [ran] at saves
  dsimp only at saves
  rw [Cache.save] at saves
  cases hasDatabase : cache.path with
  | none =>
      rw [hasDatabase] at saves
      exact .inl ⟨rfl, saves⟩
  | some database =>
      rw [hasDatabase] at saves
      dsimp only at saves
      rw [run_bind] at saves
      exact .inr ⟨database, _, _, rfl, Prod.ext rfl saves.symm⟩

end Compiler

end SceneForge
