import SceneForge.Compile.Compiler
import SceneForge.Proofs.Build.Cache
import SceneForge.Proofs.Build.Gate

/-!
# What compiling leaves

Every way that compiling can end, with the files and the cache that it leaves. The gate
and the compiler itself only read; the artifact is written before its record is.
-/

namespace SceneForge

open Program

namespace Compiler

@[simp] theorem target_request (compiler : Compiler) (input : Path) :
    (compiler.request input).target = compiler.config.target := rfl

theorem output_request (compiler : Compiler) (input : Path) :
    (compiler.request input).output = compiler.outputPath input := by
  rw [request]

/-- Inputs that share an artifact share a lock and a record. -/
theorem key_eq_of_outputPath {compiler : Compiler} {first second : Path}
    (same : compiler.outputPath first = compiler.outputPath second) :
    (compiler.request first).key = (compiler.request second).key := by
  rw [BuildRequest.key, BuildRequest.key, output_request, output_request, same]

theorem inputs_request (compiler : Compiler) (input : Path) :
    (compiler.request input).inputs = input :: compiler.catalog.dependencies := rfl

@[simp] theorem version_request (compiler : Compiler) (input : Path) :
    (compiler.request input).version = Artifact.version := rfl

theorem artifactName_eq (input : Path) : artifactName input =
    Text.utf8 ((input.stem?.map Text.lossy).getD "scene") ++ Text.utf8 ".scene" :=
  Text.utf8_append _ _

/-- The text of a last name without its extension has no slash. -/
theorem slash_notMem_stem (input : Path) :
    '/' ∉ ((input.stem?.map Text.lossy).getD "scene").toList := by
  rw [Path.stem?]
  cases named : input.fileName? with
  | none => decide
  | some name =>
      apply Path.slash_notMem_lossy
      exact fun slash => (Path.plain_of_fileName? named).noSlash (Path.mem_of_mem_stemOf slash)

/-- The name of an artifact is one that every file system can hold. -/
theorem plain_artifactName (input : Path) : Path.Plain (artifactName input) := by
  rw [artifactName_eq]
  apply Path.Plain.of_length
  · rw [List.mem_append, not_or]
    exact ⟨Path.slash_notMem_utf8 (slash_notMem_stem input), by decide⟩
  · rw [List.length_append]
    change 2 < _ + 6
    omega

/-- Artifacts stand in the output directory. -/
theorem place_outputPath (compiler : Compiler) (files : FileSystem) (input : Path) :
    files.place (compiler.outputPath input) =
      files.place compiler.config.outputDirectory ++ [artifactName input] :=
  files.place_join _ (plain_artifactName input)

/-- No temporary file has the name of an artifact. -/
theorem append_artifactName_ne (location : Location) (input path : Path) (process : String)
    (files : FileSystem) : location ++ [artifactName input] ≠ files.place (path.temporary process) := by
  obtain ⟨_, name, temporary⟩ := path.exists_place_temporary files process
  intro same
  rw [temporary, artifactName_eq] at same
  have ends := congrArg List.getLast? (List.head_eq_of_cons_eq (List.append_inj' same rfl).2)
  have scene : (Text.utf8 ".scene").getLast? = some 0x65 := by decide
  have tmp : (Text.utf8 ".tmp").getLast? = some 0x70 := by decide
  rw [List.getLast?_append, List.getLast?_append, scene, tmp] at ends
  cases ends

/-- No artifact is where a temporary file is. -/
theorem place_outputPath_ne_temporary (compiler : Compiler) (input path : Path) (process : String)
    (files : FileSystem) :
    files.place (compiler.outputPath input) ≠ files.place (path.temporary process) := by
  rw [place_outputPath]
  exact append_artifactName_ne _ input path process files

/-- Nor is an artifact where the temporary file is that becomes it. -/
theorem place_temporary_outputPath_ne (compiler : Compiler) (input : Path) (files : FileSystem) :
    files.place ((compiler.outputPath input).temporary files.process) ≠
      files.place (compiler.outputPath input) :=
  (compiler.place_outputPath_ne_temporary input _ files.process files).symm

/-- The phases of compiling that may end it, from judging to writing the artifact. -/
def phases (compiler : Compiler) (input : Path) (cache : Cache) :
    Phase (BuildDecision × Bytes × Bytes) := do
  let decision ← compiler.judge input cache
  let (source, artifact) ← compiler.buildInput input
  compiler.write input artifact
  return (decision, source, artifact)

theorem compile_eq (compiler : Compiler) (input : Path) (cache : Cache) :
    compiler.compile input cache = (compiler.phases input cache).run >>= fun result =>
      match result with
      | .error result => return (result, cache)
      | .ok (decision, source, artifact) => compiler.record input decision source artifact cache :=
  rfl

/-- What the gate can answer when an input is compiled. -/
inductive Judged (compiler : Compiler) (input : Path) (cache : Cache) (files : FileSystem) :
    Except (Except CompileError Outcome) BuildDecision → Prop where
  | upToDate {decision : BuildDecision} :
      cache.Evaluates (compiler.request input) files decision → decision.verdict = .upToDate →
        Judged compiler input cache files (.error (.ok (.upToDate (compiler.outputPath input))))
  | failed (error : CompileError) : Judged compiler input cache files (.error (.error error))
  | rebuild {decision : BuildDecision} :
      cache.Evaluates (compiler.request input) files decision →
        Judged compiler input cache files (.ok decision)

/-- Whether a source and an artifact are what an input is compiled from, and to. -/
structure Builds (compiler : Compiler) (input : Path) (files : FileSystem) (source artifact : Bytes) :
    Prop where
  read_eq : files.read input = .ok source
  build_eq : compiler.build source = .ok artifact

/-- How the phases of compiling up to the record can end, and the files that they leave. -/
inductive PhasesEnd (compiler : Compiler) (input : Path) (cache : Cache) (files : FileSystem) :
    Except (Except CompileError Outcome) (BuildDecision × Bytes × Bytes) → FileSystem → Prop where
  | upToDate {decision : BuildDecision} :
      cache.Evaluates (compiler.request input) files decision → decision.verdict = .upToDate →
        PhasesEnd compiler input cache files
          (.error (.ok (.upToDate (compiler.outputPath input)))) files
  | failed (error : CompileError) : PhasesEnd compiler input cache files (.error (.error error)) files
  | notWritten {source artifact : Bytes} {refusal : FileError} {after : FileSystem} :
      compiler.Builds input files source artifact →
        Writes (compiler.outputPath input) artifact files (.error refusal) after →
          PhasesEnd compiler input cache files
            (.error (.error (.outputWrite (compiler.outputPath input)))) after
  | written {decision : BuildDecision} {source artifact : Bytes} {after : FileSystem} :
      cache.Evaluates (compiler.request input) files decision →
        compiler.Builds input files source artifact →
          Writes (compiler.outputPath input) artifact files (.ok ()) after →
            PhasesEnd compiler input cache files (.ok (decision, source, artifact)) after

/-- The records once an artifact has been recorded. -/
def recordsAfter (compiler : Compiler) (input : Path) (cache : Cache) (decision : BuildDecision)
    (source : Bytes) : BuildRecords :=
  cache.records.insert (compiler.request input).key
    (compiler.recordedInputs input source decision.inputs)

/-- How recording an artifact can end, and what it leaves. -/
inductive RecordEnd (compiler : Compiler) (input : Path) (decision : BuildDecision)
    (source artifact : Bytes) (cache : Cache) (files : FileSystem) :
    Except CompileError Outcome × Cache → FileSystem → Prop where
  | notStored {database : Path} {refusal : FileError} {after : FileSystem} :
      cache.path = some database →
        Writes database (Database.encode
            ⟨Database.currentVersion, compiler.recordsAfter input cache decision source⟩)
          files (.error refusal) after →
          RecordEnd compiler input decision source artifact cache files
            (.error (.cache (.io database)), cache) after
  | stored {after : FileSystem} :
      cache.Saves (compiler.recordsAfter input cache decision source) files after →
        RecordEnd compiler input decision source artifact cache files
          (.ok (.compiled (compiler.outputPath input) artifact.length),
            { cache with records := compiler.recordsAfter input cache decision source }) after

/-- How compiling can end: in one of the phases, or with the record after them. -/
inductive CompileEnd (compiler : Compiler) (input : Path) (cache : Cache) (files : FileSystem) :
    Except CompileError Outcome × Cache → FileSystem → Prop where
  | early {result : Except CompileError Outcome} {after : FileSystem} :
      (compiler.phases input cache).run.run files = (.error result, after) →
        PhasesEnd compiler input cache files (.error result) after →
          CompileEnd compiler input cache files (result, cache) after
  | recorded {decision : BuildDecision} {source artifact : Bytes} {between after : FileSystem}
      {result : Except CompileError Outcome × Cache} :
      (compiler.phases input cache).run.run files = (.ok (decision, source, artifact), between) →
        PhasesEnd compiler input cache files (.ok (decision, source, artifact)) between →
          RecordEnd compiler input decision source artifact cache between result after →
            CompileEnd compiler input cache files result after

variable (compiler : Compiler) (input : Path) (cache : Cache) (files : FileSystem)

theorem leaves_judge :
    (compiler.judge input cache).run.Leaves files fun answer after =>
      after = files ∧ Judged compiler input cache files answer := by
  apply leaves_bind_of_failing.mpr
  apply leaves_lift.mpr
  apply (cache.leaves_evaluate (compiler.request input) files).mono
  rintro answer _ ⟨rfl, evaluates⟩
  cases answer with
  | error error => exact leaves_pure.mpr ⟨rfl, .failed _⟩
  | ok decision =>
      have evaluated := evaluates decision rfl
      dsimp only
      split
      next done => exact leaves_pure.mpr ⟨rfl, .upToDate evaluated done.1⟩
      next => exact leaves_pure.mpr ⟨rfl, .rebuild evaluated⟩

theorem leaves_buildInput :
    (compiler.buildInput input).run.Leaves files fun answer after =>
      after = files ∧
        ((∃ source artifact, answer = .ok (source, artifact) ∧
          compiler.Builds input files source artifact) ∨
        ∃ error, answer = .error (.error error)) := by
  apply leaves_bind_of_failing.mpr
  apply leaves_lift.mpr
  rw [leaves_ask, FileRequest.run]
  cases content : files.read input with
  | error error => exact leaves_pure.mpr ⟨rfl, .inr ⟨_, rfl⟩⟩
  | ok source =>
      dsimp only
      cases built : compiler.build source with
      | error error => exact leaves_pure.mpr ⟨rfl, .inr ⟨error, rfl⟩⟩
      | ok artifact => exact leaves_pure.mpr ⟨rfl, .inl ⟨source, artifact, rfl, content, built⟩⟩

theorem leaves_write (artifact : Bytes) :
    (compiler.write input artifact).run.Leaves files fun answer after =>
      (answer = .ok () ∧ Writes (compiler.outputPath input) artifact files (.ok ()) after) ∨
        ∃ refusal, answer = .error (.error (.outputWrite (compiler.outputPath input))) ∧
          Writes (compiler.outputPath input) artifact files (.error refusal) after := by
  rw [write]
  apply leaves_bind_of_failing.mpr
  apply leaves_lift.mpr
  apply (leaves_writeAtomically (compiler.outputPath input) artifact files).mono
  intro answer after writes
  cases answer with
  | error refusal => exact leaves_pure.mpr (.inr ⟨refusal, rfl, writes⟩)
  | ok value => exact leaves_pure.mpr (.inl ⟨rfl, writes⟩)

theorem leaves_phases :
    (compiler.phases input cache).run.Leaves files (PhasesEnd compiler input cache files) := by
  rw [phases]
  apply leaves_bind_of_failing.mpr
  apply (leaves_judge compiler input cache files).mono
  rintro answer _ ⟨rfl, judged⟩
  cases judged with
  | upToDate evaluated verdict => exact .upToDate evaluated verdict
  | failed error => exact .failed error
  | rebuild evaluated =>
      apply leaves_bind_of_failing.mpr
      apply (leaves_buildInput compiler input _).mono
      rintro answer _ ⟨rfl, ⟨source, artifact, rfl, built⟩ | ⟨error, rfl⟩⟩
      · apply leaves_bind_of_failing.mpr
        apply (leaves_write compiler input _ artifact).mono
        rintro answer after (⟨rfl, writes⟩ | ⟨refusal, rfl, writes⟩)
        · exact leaves_pure.mpr (.written evaluated built writes)
        · exact .notWritten built writes
      · exact .failed error

variable {compiler input files} in
/-- A source that compiles is read and compiled. -/
theorem Builds.leaves {source artifact : Bytes} (built : compiler.Builds input files source artifact) :
    (compiler.buildInput input).run.Leaves files fun answer after =>
      answer = .ok (source, artifact) ∧ after = files := by
  rw [buildInput]
  apply leaves_bind_of_failing.mpr
  apply leaves_lift.mpr
  rw [leaves_ask, FileRequest.run, built.read_eq]
  dsimp only
  rw [built.build_eq]
  exact leaves_pure.mpr ⟨rfl, rfl⟩

variable {compiler input cache files} in
/-- The artifact is written if the gate lets an input be compiled, if it compiles, and if
nothing keeps its file from being written. -/
theorem phases_reach {source artifact : Bytes} {after : FileSystem}
    (judged : ((compiler.judge input cache).run.run files).1.isOk)
    (built : compiler.Builds input files source artifact)
    (written : (writeAtomically (compiler.outputPath input) artifact).run files = (.ok (), after)) :
    ∃ decision, (compiler.phases input cache).run.run files =
      (.ok (decision, source, artifact), after) := by
  have judges : (compiler.judge input cache).run.Leaves files fun answer after =>
      after = files ∧ answer.isOk :=
    ⟨(leaves_judge compiler input cache files).holds.1, judged⟩
  have writes : (compiler.write input artifact).run.Leaves files fun answer left =>
      answer = .ok () ∧ left = after := by
    rw [write]
    apply leaves_bind_of_failing.mpr
    apply leaves_lift.mpr
    constructor
    rw [written]
    exact leaves_pure.mpr ⟨rfl, rfl⟩
  have reaches : (compiler.phases input cache).run.Leaves files fun answer left =>
      ∃ decision, answer = .ok (decision, source, artifact) ∧ left = after := by
    rw [phases]
    apply leaves_bind_of_failing.mpr
    apply judges.mono
    rintro answer _ ⟨rfl, accepted⟩
    cases answer with
    | error error => cases accepted
    | ok decision =>
        apply leaves_bind_of_failing.mpr
        apply built.leaves.mono
        rintro _ _ ⟨rfl, rfl⟩
        apply leaves_bind_of_failing.mpr
        apply writes.mono
        rintro _ _ ⟨rfl, rfl⟩
        exact leaves_pure.mpr ⟨decision, rfl, rfl⟩
  obtain ⟨decision, reached, left⟩ := reaches.holds
  exact ⟨decision, Prod.ext reached left⟩

variable {compiler input cache files} in
/-- Inputs that can be read are judged, and without a record the artifact has to be built. -/
theorem exists_judge (readable : ∀ path ∈ (compiler.request input).inputs,
      ∃ content, files.read path = .ok content)
    (unrecorded : cache.inputs? (compiler.request input).key = none) :
    ∃ decision, ((compiler.judge input cache).run.run files).1 = .ok decision := by
  obtain ⟨decision, evaluated⟩ := @Cache.exists_evaluate cache _ _ readable
  obtain ⟨current, -, verdict, -⟩ :=
    (cache.leaves_evaluate (compiler.request input) files).holds.2 decision evaluated
  rw [unrecorded] at verdict
  have stale : decision.verdict ≠ .upToDate := by
    rw [verdict]
    exact nofun
  have evaluates : (cache.evaluate (compiler.request input)).Leaves files fun answer _ =>
      answer = .ok decision :=
    ⟨evaluated⟩
  have judges : (compiler.judge input cache).run.Leaves files fun answer _ => answer = .ok decision := by
    rw [judge]
    apply leaves_bind_of_failing.mpr
    apply leaves_lift.mpr
    apply evaluates.mono
    rintro _ _ rfl
    dsimp only
    rw [if_neg fun upToDate => stale upToDate.1]
    exact leaves_pure.mpr rfl
  exact ⟨decision, judges.holds⟩

variable {compiler input cache files} in
/-- What the gate finds up to date is left as it is, unless it has to be built in any case. -/
theorem compile_of_upToDate {decision : BuildDecision}
    (evaluated : ((cache.evaluate (compiler.request input)).run files).1 = .ok decision)
    (verdict : decision.verdict = .upToDate) (unforced : compiler.config.force = false) :
    (compiler.compile input cache).run files =
      ((.ok (.upToDate (compiler.outputPath input)), cache), files) := by
  have stays := (cache.leaves_evaluate (compiler.request input) files).holds.1
  have evaluates : (cache.evaluate (compiler.request input)).Leaves files fun answer after =>
      answer = .ok decision ∧ after = files :=
    ⟨evaluated, stays⟩
  have judges : (compiler.judge input cache).run.Leaves files fun answer after =>
      answer = .error (.ok (.upToDate (compiler.outputPath input))) ∧ after = files := by
    rw [judge]
    apply leaves_bind_of_failing.mpr
    apply leaves_lift.mpr
    apply evaluates.mono
    rintro _ _ ⟨rfl, rfl⟩
    dsimp only
    rw [if_pos ⟨verdict, by rw [unforced]; rfl⟩]
    exact leaves_pure.mpr ⟨rfl, rfl⟩
  have compiles : (compiler.compile input cache).Leaves files fun answer after =>
      answer = (.ok (.upToDate (compiler.outputPath input)), cache) ∧ after = files := by
    rw [compile_eq, phases]
    apply leaves_bind.mpr
    apply leaves_bind_of_failing.mpr
    apply judges.mono
    rintro _ _ ⟨rfl, rfl⟩
    exact leaves_pure.mpr ⟨rfl, rfl⟩
  exact Prod.ext compiles.holds.1 compiles.holds.2

variable {compiler input cache files} in
/-- A source that depends on nothing else and reads as it was recorded is not compiled again,
whatever stands in the place of its artifact. -/
theorem compile_of_recorded {source : Bytes} (alone : compiler.catalog.dependencies = [])
    (read : files.read input = .ok source)
    (record : cache.inputs? (compiler.request input).key =
      some [⟨compiler.config.target, input.portable, .ofContent source, Artifact.version⟩])
    (stands : files.pathExists (compiler.outputPath input))
    (unforced : compiler.config.force = false) :
    (compiler.compile input cache).run files =
      ((.ok (.upToDate (compiler.outputPath input)), cache), files) := by
  have inputs : (compiler.request input).inputs = [input] := by rw [inputs_request, alone]
  have readable : ∀ path ∈ (compiler.request input).inputs, ∃ content, files.read path = .ok content := by
    rw [inputs]
    intro path member
    obtain rfl := List.mem_singleton.mp member
    exact ⟨source, read⟩
  obtain ⟨decision, evaluated⟩ := @Cache.exists_evaluate cache _ _ readable
  obtain ⟨current, shown, judged, -⟩ :=
    (cache.leaves_evaluate (compiler.request input) files).holds.2 decision evaluated
  rw [inputs] at shown
  obtain ⟨first, _, shows, others, rfl⟩ := List.forall₂_cons_left_iff.mp shown
  obtain rfl := List.forall₂_nil_left_iff.mp others
  apply compile_of_upToDate evaluated _ unforced
  rw [judged, record, Option.getD_some, output_request, stands, shows.eq_of_read read,
    version_request, target_request]
  apply Verdict.judge_eq_upToDate_iff.mpr
  constructor <;> simp

variable {compiler input cache} in
/-- Without a database a record is always stored. -/
theorem record_of_inMemory {decision : BuildDecision} {source artifact : Bytes}
    (inMemory : cache.path = none) (files : FileSystem) :
    (compiler.record input decision source artifact cache).run files =
      ((.ok (.compiled (compiler.outputPath input) artifact.length),
        { cache with records := compiler.recordsAfter input cache decision source }), files) := by
  obtain ⟨path, records⟩ := cache
  obtain rfl : path = none := inMemory
  rfl

variable {compiler input cache files} in
/-- A record is stored if nothing keeps the database file from being written. -/
theorem record_eq_ok {decision : BuildDecision} {source artifact : Bytes} {database : Path}
    {after : FileSystem} (hasDatabase : cache.path = some database)
    (written : (writeAtomically database (Database.encode
      ⟨Database.currentVersion, compiler.recordsAfter input cache decision source⟩)).run files =
        (.ok (), after)) :
    (compiler.record input decision source artifact cache).run files =
      ((.ok (.compiled (compiler.outputPath input) artifact.length),
        { cache with records := compiler.recordsAfter input cache decision source }), after) := by
  have updates : (cache.update (compiler.recordsAfter input cache decision source)).run files =
      ((.ok (), { cache with records := compiler.recordsAfter input cache decision source }),
        after) := by
    rw [Cache.update, Cache.save, hasDatabase, run_bind, run_bind, written]
    rfl
  change ((cache.update (compiler.recordsAfter input cache decision source)) >>= _).run files = _
  rw [run_bind, updates]
  rfl

theorem leaves_record (decision : BuildDecision) (source artifact : Bytes) :
    (compiler.record input decision source artifact cache).Leaves files
      (RecordEnd compiler input decision source artifact cache files) := by
  apply leaves_bind.mpr
  apply (cache.leaves_update (compiler.recordsAfter input cache decision source) files).mono
  rintro result after (⟨rfl, saves⟩ | ⟨database, refusal, hasDatabase, rfl, writes⟩)
  · exact leaves_pure.mpr (.stored saves)
  · exact leaves_pure.mpr (.notStored hasDatabase writes)

theorem leaves_compile :
    (compiler.compile input cache).Leaves files (CompileEnd compiler input cache files) := by
  have ends := (leaves_phases compiler input cache files).holds
  rw [compile_eq]
  apply leaves_bind.mpr
  constructor
  rcases ran : (compiler.phases input cache).run.run files with ⟨ended, between⟩
  rw [ran] at ends
  cases ended with
  | error result => exact leaves_pure.mpr (.early ran ends)
  | ok values =>
      obtain ⟨decision, source, artifact⟩ := values
      apply (leaves_record compiler input cache between decision source artifact).mono
      intro result after recorded
      exact .recorded ran ends recorded

end Compiler

end SceneForge
