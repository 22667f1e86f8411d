import SceneForge.Proofs.Build.Gate
import SceneForge.Proofs.Compile.Outputs
import SceneForge.Proofs.Compile.RoundTrip
import SceneForge.Proofs.Compile.Stepping
import SceneForge.Proofs.Files.Replacing

/-!
# Artifacts that last

Whatever the steps of a batch are, an artifact of its own lasts: what stands in its place
once its input is compiled is what the input compiles to, and stays so, since it is only
ever replaced by the same. Inputs with the same last name share an artifact, of which the
last one to be written remains.
-/

namespace SceneForge

open FileSystem Program

namespace Outcome

theorem output_upToDate (output : Path) : (upToDate output).output = output := rfl

theorem output_compiled (output : Path) (size : Nat) : (compiled output size).output = output := rfl

end Outcome

namespace Compiler

/-- Whether a buffer is what an input compiles to. -/
def Compiles (compiler : Compiler) (input : Path) (files : FileSystem) (buffer : Bytes) : Prop :=
  ∃ source text, files.read input = .ok source ∧ Text.ofUtf8 source = .ok text ∧
    compiler.buffer text = .ok buffer

/-- Whether an artifact holds what an input compiles to. -/
def Holds (compiler : Compiler) (input : Path) (files : FileSystem) (artifact : Bytes) : Prop :=
  ∃ buffer, compiler.Compiles input files buffer ∧ Artifact.decode artifact = .ok buffer

/-- Whether what stands at a path is an artifact that holds what an input, as it is in the
beginning, compiles to. -/
def Delivers (compiler : Compiler) (input : Path) (start files : FileSystem) (output : Path) : Prop :=
  ∃ artifact, files.find output = .ok (files.place output, .file artifact) ∧
    compiler.Holds input start artifact

/-- Whether an artifact is replaced by nothing but what its input compiles to: no other input
of the batch puts something else in its place, nor is the database there. -/
structure Sheltered (compiler : Compiler) (inputs : List Path) (cache : Cache) (files : FileSystem)
    (input : Path) : Prop where
  alone : ∀ other ∈ inputs, compiler.outputPath other = compiler.outputPath input →
    ∀ buffer, compiler.Compiles other files buffer → compiler.Compiles input files buffer
  database_apart : ∀ database, cache.path = some database →
    files.place database ≠ files.place (compiler.outputPath input)

/-- Whether a record that fits the inputs of an artifact vouches for what stands in its place,
if anything does. -/
def Vouched (compiler : Compiler) (input : Path) (cache : Cache) (files : FileSystem) : Prop :=
  ∀ current, List.Forall₂ (Cache.Shows files) (compiler.request input).inputs current →
    Verdict.judge Artifact.version compiler.config.target
        ((cache.inputs? (compiler.request input).key).getD []) current true = .upToDate →
      ∀ artifact, files.fileAt? (files.place (compiler.outputPath input)) = some artifact →
        compiler.Holds input files artifact

variable {compiler : Compiler} {input : Path} {files start : FileSystem}

theorem Builds.holds {source artifact : Bytes} (built : compiler.Builds input files source artifact) :
    compiler.Holds input files artifact := by
  obtain ⟨text, decoded, compiled⟩ := bind_eq_ok_iff.mp built.build_eq
  obtain ⟨buffer, buffered, opened⟩ := artifact_eq_ok compiled
  exact ⟨buffer, ⟨source, text, built.read_eq, mapError_eq_ok_iff.mp decoded, buffered⟩, opened⟩

/-- A change of files that leaves an artifact what it was or makes it what its input, as it is
in the beginning, compiles to. -/
structure Spares (compiler : Compiler) (input : Path) (start files after : FileSystem) : Prop
    extends Extends files after where
  kept : after.fileAt? (start.place (compiler.outputPath input)) =
      files.fileAt? (start.place (compiler.outputPath input)) ∨
    ∃ artifact, after.fileAt? (start.place (compiler.outputPath input)) = some artifact ∧
      compiler.Holds input start artifact

/-- Whether what stands in an artifact's place, if a file does, holds what its input, as it is
in the beginning, compiles to. -/
def Faithful (compiler : Compiler) (input : Path) (start files : FileSystem) : Prop :=
  ∀ artifact, files.fileAt? (start.place (compiler.outputPath input)) = some artifact →
    compiler.Holds input start artifact

theorem Spares.refl (compiler : Compiler) (input : Path) (start files : FileSystem) :
    compiler.Spares input start files files :=
  ⟨.refl files, .inl rfl⟩

section Spares

variable {after : FileSystem}

theorem Faithful.spares (faithful : compiler.Faithful input start files)
    (spares : compiler.Spares input start files after) : compiler.Faithful input start after := by
  intro artifact stands
  rcases spares.kept with same | ⟨other, now, holds⟩
  · exact faithful artifact (same ▸ stands)
  · rw [now] at stands
    cases stands
    exact holds

/-- What is found at the artifact's path, unless it is a directory, is such an artifact. -/
theorem Faithful.delivers (faithful : compiler.Faithful input start files)
    (extended : Extends start files) (found : files.pathExists (compiler.outputPath input))
    (noDirectory : files.entry? (files.place (compiler.outputPath input)) ≠ some .directory) :
    compiler.Delivers input start files (compiler.outputPath input) := by
  obtain ⟨location, entry, finds⟩ := pathExists_iff.mp found
  obtain ⟨place, stands⟩ := find_eq_ok finds
  rw [place] at finds stands
  cases entry with
  | directory => exact absurd stands noDirectory
  | file artifact =>
      have file := fileAt?_eq_some_iff.mpr stands
      rw [extended.place_eq] at file
      exact ⟨artifact, finds, faithful artifact file⟩

/-- What is found at the artifact's path is still found. -/
theorem Spares.pathExists (spares : compiler.Spares input start files after)
    (extended : Extends start files) (found : files.pathExists (compiler.outputPath input)) :
    after.pathExists (compiler.outputPath input) := by
  obtain ⟨entry, stands⟩ := entry?_of_pathExists found
  cases entry with
  | directory => exact spares.toExtends.pathExists found (spares.directory_stays _ stands)
  | file content =>
      have file := fileAt?_eq_some_iff.mpr stands
      rw [extended.place_eq] at file
      rcases spares.kept with same | ⟨artifact, now, -⟩
      · have stays := fileAt?_eq_some_iff.mp (same.trans file)
        rw [← extended.place_eq] at stays
        exact spares.toExtends.pathExists found stays
      · have stays := fileAt?_eq_some_iff.mp now
        rw [← extended.place_eq] at stays
        exact spares.toExtends.pathExists found stays

/-- Writing any artifact spares one that is sheltered. -/
theorem spares_of_write {inputs : List Path} {cache : Cache} {other : Path} {artifact : Bytes}
    {answer : Except FileError Unit} (sheltered : compiler.Sheltered inputs cache start input)
    (extended : Extends start files) (listed : other ∈ inputs)
    (holds : compiler.Holds other start artifact)
    (writes : Writes (compiler.outputPath other) artifact files answer after) :
    compiler.Spares input start files after := by
  refine ⟨writes.toExtends, ?_⟩
  have notTemporary :=
    compiler.place_outputPath_ne_temporary input (compiler.outputPath other) files.process files
  rw [← extended.place_eq]
  by_cases same : files.place (compiler.outputPath input) = files.place (compiler.outputPath other)
  · by_cases succeeded : answer = .ok ()
    · obtain ⟨buffer, compiles, opened⟩ := holds
      have own := outputPath_eq_of_place same.symm
      refine .inr ⟨artifact, ?_, buffer, sheltered.alone other listed own buffer compiles, opened⟩
      rw [same]
      exact writes.written succeeded
    · rw [same] at notTemporary ⊢
      exact .inl (writes.kept succeeded notTemporary)
  · exact .inl (writes.fileAt?_eq _ notTemporary same)

/-- Writing the database spares every artifact in whose place it is not. -/
theorem spares_of_save {database : Path} {data : Bytes} {answer : Except FileError Unit}
    (extended : Extends start files)
    (apart : start.place database ≠ start.place (compiler.outputPath input))
    (writes : Writes database data files answer after) :
    compiler.Spares input start files after := by
  refine ⟨writes.toExtends, .inl ?_⟩
  rw [← extended.place_eq, ← extended.place_eq] at apart
  rw [← extended.place_eq]
  exact writes.fileAt?_eq _
    (compiler.place_outputPath_ne_temporary input database files.process files) apart.symm

end Spares

/-- Whether an artifact is there, and is what its input compiles to. -/
structure Stands (compiler : Compiler) (input : Path) (start files : FileSystem) : Prop where
  found : files.pathExists (compiler.outputPath input)
  faithful : compiler.Faithful input start files
  file : ∃ artifact, files.fileAt? (start.place (compiler.outputPath input)) = some artifact

/-- What the progress of a task says of the artifact of some input, if it is that of the task.
What is up to date is what the input compiles to if records are trusted. -/
inductive Attests (compiler : Compiler) (trusted : Prop) (input : Path) (start files : FileSystem)
    (other : Path) : Progress → Prop where
  | waiting : Attests compiler trusted input start files other .waiting
  | taken : Attests compiler trusted input start files other .taken
  | locked : Attests compiler trusted input start files other .locked
  | judged (decision : BuildDecision) :
      Attests compiler trusted input start files other (.judged decision)
  | built {decision : BuildDecision} {source artifact : Bytes} :
      compiler.Builds other start source artifact →
        Attests compiler trusted input start files other (.built decision source artifact)
  | written {decision : BuildDecision} {source artifact : Bytes} :
      compiler.Builds other start source artifact →
        (compiler.outputPath other = compiler.outputPath input →
          compiler.Stands input start files) →
          Attests compiler trusted input start files other (.written decision source artifact)
  | failed (error : CompileError) :
      Attests compiler trusted input start files other (.settled (.error error))
  | upToDate :
      (other = input → files.pathExists (compiler.outputPath input) ∧
        (trusted → compiler.Faithful input start files)) →
        Attests compiler trusted input start files other
          (.settled (.ok (.upToDate (compiler.outputPath other))))
  | compiled (size : Nat) :
      (compiler.outputPath other = compiler.outputPath input →
        compiler.Stands input start files) →
        Attests compiler trusted input start files other
          (.settled (.ok (.compiled (compiler.outputPath other) size)))
  | finished {result : Except CompileError Outcome} :
      Attests compiler trusted input start files other (.settled result) →
        Attests compiler trusted input start files other (.finished result)

/-- What holds throughout a batch of an artifact that is sheltered. -/
structure Lasts (compiler : Compiler) (inputs : List Path) (cache : Cache) (trusted : Prop)
    (input : Path) (start : FileSystem) (batch : Batch) (files : FileSystem) : Prop where
  extended : Extends start files
  path_eq : batch.cache.path = cache.path
  listed : ∀ task ∈ batch.tasks, task.1 ∈ inputs
  /-- As long as it is not what its input compiles to, it has its old record. -/
  untouched : compiler.Faithful input start files ∨
    (files.fileAt? (start.place (compiler.outputPath input)) =
        start.fileAt? (start.place (compiler.outputPath input)) ∧
      batch.cache.inputs? (compiler.request input).key = cache.inputs? (compiler.request input).key)
  attested : ∀ task ∈ batch.tasks, compiler.Attests trusted input start files task.1 task.2

section Lasts

variable {inputs : List Path} {cache : Cache} {trusted : Prop} {after : FileSystem} {batch : Batch}
  {other : Path} {progress : Progress} {index workers : Nat}

theorem Stands.spares (stands : compiler.Stands input start files) (extended : Extends start files)
    (spares : compiler.Spares input start files after) : compiler.Stands input start after where
  found := spares.pathExists extended stands.found
  faithful := stands.faithful.spares spares
  file := by
    obtain ⟨artifact, file⟩ := stands.file
    rcases spares.kept with same | ⟨artifact, now, -⟩
    · exact ⟨artifact, same.trans file⟩
    · exact ⟨artifact, now⟩

/-- What a task says stays true where the artifact is spared. -/
theorem Attests.spares (attests : compiler.Attests trusted input start files other progress)
    (extended : Extends start files) (spares : compiler.Spares input start files after) :
    compiler.Attests trusted input start after other progress := by
  induction attests with
  | waiting => exact .waiting
  | taken => exact .taken
  | locked => exact .locked
  | judged decision => exact .judged decision
  | built builds => exact .built builds
  | written builds stands => exact .written builds fun own => (stands own).spares extended spares
  | failed error => exact .failed error
  | upToDate holds =>
      refine .upToDate fun own => ⟨spares.pathExists extended (holds own).1, fun trusts => ?_⟩
      exact ((holds own).2 trusts).spares spares
  | compiled size stands => exact .compiled size fun own => (stands own).spares extended spares
  | finished _ ih => exact .finished ih

theorem mem_moved {task : Path × Progress} (member : task ∈ (batch.moved index other progress).tasks) :
    task ∈ batch.tasks ∨ task = (other, progress) :=
  List.mem_or_eq_of_mem_set member

/-- A task comes further, with a cache that keeps the record of the artifact or belongs to one
that is what it should be. -/
theorem Lasts.move (lasts : compiler.Lasts inputs cache trusted input start batch files)
    {earlier : Progress} {now : Cache} (task : batch.tasks[index]? = some (other, earlier))
    (spares : compiler.Spares input start files after) (path : now.path = batch.cache.path)
    (records : now.inputs? (compiler.request input).key =
        batch.cache.inputs? (compiler.request input).key ∨ compiler.Faithful input start files)
    (attests : compiler.Attests trusted input start after other progress) :
    compiler.Lasts inputs cache trusted input start { batch.moved index other progress with cache := now }
      after where
  extended := lasts.extended.trans spares.toExtends
  path_eq := path.trans lasts.path_eq
  listed := by
    intro task' member
    rcases mem_moved member with old | rfl
    · exact lasts.listed task' old
    · exact lasts.listed (other, earlier) (List.mem_of_getElem? task)
  untouched := by
    rcases records with same | faithful
    · rcases lasts.untouched with faithful | ⟨file, record⟩
      · exact .inl (faithful.spares spares)
      · rcases spares.kept with kept | ⟨artifact, now, holds⟩
        · exact .inr ⟨kept.trans file, same.trans record⟩
        · refine .inl fun artifact' stands => ?_
          rw [now] at stands
          cases stands
          exact holds
    · exact .inl (faithful.spares spares)
  attested := by
    intro task' member
    rcases mem_moved member with old | rfl
    · exact (lasts.attested task' old).spares lasts.extended spares
    · exact attests

/-- Inputs are shown alike by file systems in which they read alike. -/
theorem shows_of_read_eq {paths : List Path} {current : List CurrentInput}
    (same : ∀ path ∈ paths, files.read path = start.read path)
    (shown : List.Forall₂ (Cache.Shows files) paths current) :
    List.Forall₂ (Cache.Shows start) paths current := by
  induction shown with
  | nil => exact .nil
  | @cons path input paths current shows _ ih =>
      refine .cons ?_ (ih fun path' member => same path' (List.mem_cons_of_mem path member))
      rw [Cache.Shows, ← same path List.mem_cons_self]
      exact shows

/-- What the gate finds up to date is what its input compiles to, if records are trusted. -/
theorem Lasts.faithful_of_upToDate
    (lasts : compiler.Lasts inputs cache trusted input start batch files)
    (vouched : trusted → compiler.Vouched input cache start)
    (same : trusted → ∀ path ∈ (compiler.request input).inputs, files.read path = start.read path)
    {decision : BuildDecision}
    (evaluates : batch.cache.Evaluates (compiler.request input) files decision)
    (verdict : decision.verdict = .upToDate) :
    files.pathExists (compiler.outputPath input) ∧
      (trusted → compiler.Faithful input start files) := by
  obtain ⟨current, shown, judged, -⟩ := evaluates
  rw [judged] at verdict
  have found := (Verdict.judge_eq_upToDate_iff.mp verdict).outputExists
  rw [output_request] at found
  refine ⟨found, fun trusts => ?_⟩
  rcases lasts.untouched with faithful | ⟨file, record⟩
  · exact faithful
  · intro artifact stands
    rw [output_request, found, record] at verdict
    exact vouched trusts current (shows_of_read_eq (same trusts) shown) verdict artifact
      (file.symm.trans stands)

/-- What recording an artifact leaves. -/
theorem Lasts.record (lasts : compiler.Lasts inputs cache trusted input start batch files)
    (sheltered : compiler.Sheltered inputs cache start input) {decision : BuildDecision}
    {source artifact : Bytes} {result : Except CompileError Outcome} {now : Cache}
    (task : batch.tasks[index]? = some (other, .written decision source artifact))
    (ends : RecordEnd compiler other decision source artifact batch.cache files (result, now) after) :
    compiler.Lasts inputs cache trusted input start
      { batch.moved index other (.settled result) with cache := now } after := by
  have standing : compiler.outputPath other = compiler.outputPath input →
      compiler.Stands input start files := by
    cases lasts.attested _ (List.mem_of_getElem? task) with
    | written _ standing => exact standing
  have saves {database : Path} {data : Bytes} {answer : Except FileError Unit}
      (hasDatabase : batch.cache.path = some database)
      (writes : Writes database data files answer after) : compiler.Spares input start files after :=
    spares_of_save lasts.extended
      (sheltered.database_apart database (lasts.path_eq.symm.trans hasDatabase)) writes
  cases ends with
  | notStored hasDatabase writes =>
      exact lasts.move task (saves hasDatabase writes) rfl (.inl rfl) (.failed _)
  | stored saved =>
      have spares : compiler.Spares input start files after := by
        rw [Cache.Saves] at saved
        split at saved
        next =>
          rw [saved]
          exact .refl compiler input start files
        next database hasDatabase => exact saves hasDatabase saved
      refine lasts.move task spares rfl ?_ (.compiled _ fun own => ?_)
      · by_cases same : (compiler.request other).key = (compiler.request input).key
        · exact .inr (standing (outputPath_eq_of_key same)).faithful
        · exact .inl (SortedMap.get?_insert_of_ne _ _ (Ne.symm same))
      · exact (standing own).spares lasts.extended spares

/-- What writing an artifact leaves. -/
theorem Lasts.write (lasts : compiler.Lasts inputs cache trusted input start batch files)
    (sheltered : compiler.Sheltered inputs cache start input) {decision : BuildDecision}
    {source artifact : Bytes} {answer : Except FileError Unit}
    (task : batch.tasks[index]? = some (other, .built decision source artifact))
    (written : (writeAtomically (compiler.outputPath other) artifact).run files = (answer, after)) :
    (answer = .ok () → compiler.Lasts inputs cache trusted input start
      (batch.moved index other (.written decision source artifact)) after) ∧
    (answer ≠ .ok () → compiler.Lasts inputs cache trusted input start
      (batch.moved index other
        (.settled (.error (.outputWrite (compiler.outputPath other))))) after) := by
  have writes := (leaves_writeAtomically (compiler.outputPath other) artifact files).holds
  rw [written] at writes
  have builds : compiler.Builds other start source artifact := by
    cases lasts.attested _ (List.mem_of_getElem? task) with
    | built builds => exact builds
  have spares := spares_of_write sheltered lasts.extended
    (lasts.listed _ (List.mem_of_getElem? task)) builds.holds writes
  constructor
  · rintro rfl
    refine lasts.move task spares rfl (.inl rfl) (.written builds fun own => ?_)
    have file := writes.written rfl
    rw [own, lasts.extended.place_eq] at file
    constructor
    · rw [← own]
      exact pathExists_of_writeAtomically written (compiler.place_temporary_outputPath_ne other files)
    · intro artifact' stands
      cases file.symm.trans stands
      obtain ⟨buffer, compiles, opened⟩ := builds.holds
      exact ⟨buffer, sheltered.alone other (lasts.listed _ (List.mem_of_getElem? task)) own buffer
        compiles, opened⟩
    · exact ⟨artifact, file⟩
  · intro failed
    exact lasts.move task spares rfl (.inl rfl) (.failed _)

/-- Every step preserves this as long as sources read as in the beginning. -/
theorem Lasts.step (lasts : compiler.Lasts inputs cache trusted input start batch files)
    (sheltered : compiler.Sheltered inputs cache start input)
    (vouched : trusted → compiler.Vouched input cache start)
    (same : ∀ source ∈ inputs, files.read source = start.read source)
    (sameCatalog : trusted → ∀ path ∈ compiler.catalog.dependencies, files.read path = start.read path)
    {next : Batch} (stepped : Batch.Stepped compiler workers batch index files next after) :
    compiler.Lasts inputs cache trusted input start next after := by
  have spared := Spares.refl compiler input start files
  cases stepped with
  | waited => exact lasts
  | took task => exact lasts.move task spared rfl (.inl rfl) .taken
  | locked task => exact lasts.move task spared rfl (.inl rfl) .locked
  | judged task => exact lasts.move task spared rfl (.inl rfl) (.judged _)
  | @endedJudging other result task ended =>
      have judges := (leaves_judge compiler other batch.cache files).holds.2
      rw [ended] at judges
      refine lasts.move task spared rfl (.inl rfl) ?_
      cases judges with
      | failed error => exact .failed error
      | upToDate evaluates verdict =>
          -- Only here the past matters: the gate goes by the record, not by what stands there.
          refine .upToDate fun own => ?_
          have listed := lasts.listed _ (List.mem_of_getElem? task)
          subst own
          refine lasts.faithful_of_upToDate vouched (fun trusts path member => ?_) evaluates verdict
          rcases List.mem_cons.mp member with rfl | dependency
          · exact same path listed
          · exact sameCatalog trusts path dependency
  | @built other decision source artifact task built =>
      have builds := (leaves_buildInput compiler other files).holds.2
      rw [built] at builds
      obtain ⟨_, _, answer, builds⟩ | ⟨error, wrong⟩ := builds
      · cases answer
        have unchanged := same other (lasts.listed _ (List.mem_of_getElem? task))
        exact lasts.move task spared rfl (.inl rfl)
          (.built ⟨unchanged.symm.trans builds.read_eq, builds.build_eq⟩)
      · cases wrong
  | @endedBuilding other decision result task ended =>
      have builds := (leaves_buildInput compiler other files).holds.2
      rw [ended] at builds
      obtain ⟨_, _, wrong, -⟩ | ⟨error, answer⟩ := builds
      · cases wrong
      · cases answer
        exact lasts.move task spared rfl (.inl rfl) (.failed error)
  | written task written =>
      rcases write_cases written with ⟨-, written⟩ | ⟨refusal, wrong, -⟩
      · exact (lasts.write sheltered task written).1 rfl
      · cases wrong
  | endedWriting task written =>
      rcases write_cases written with ⟨wrong, -⟩ | ⟨refusal, ended, written⟩
      · cases wrong
      · have settles := (lasts.write sheltered task written).2
        cases ended
        apply settles
        intro wrong
        cases wrong
  | @recorded other decision source artifact result now _ task ran =>
      have ends := (leaves_record compiler other batch.cache files decision source artifact).holds
      rw [ran] at ends
      exact lasts.record sheltered task ends
  | released task =>
      exact lasts.move task spared rfl (.inl rfl)
        (.finished (lasts.attested _ (List.mem_of_getElem? task)))

/-- It holds in the beginning. -/
theorem lasts_start (compiler : Compiler) (inputs : List Path) (cache : Cache) (trusted : Prop)
    (input : Path) (start : FileSystem) :
    compiler.Lasts inputs cache trusted input start (.start inputs cache) start where
  extended := .refl start
  path_eq := rfl
  listed := by
    intro task member
    obtain ⟨path, listed, rfl⟩ := List.mem_map.mp member
    exact listed
  untouched := .inr ⟨rfl, rfl⟩
  attested := by
    intro task member
    obtain ⟨path, -, rfl⟩ := List.mem_map.mp member
    exact .waiting

/-- What a task that has succeeded says of its artifact. -/
theorem Lasts.delivers (lasts : compiler.Lasts inputs cache trusted input start batch files)
    {outcome : Outcome} (task : batch.tasks[index]? = some (input, .finished (.ok outcome)))
    (trusts : outcome.wasCompiled = false →
      trusted ∧ files.entry? (files.place outcome.output) ≠ some .directory) :
    outcome.output = compiler.outputPath input ∧
      compiler.Delivers input start files outcome.output := by
  have attests : compiler.Attests trusted input start files input (.finished (.ok outcome)) :=
    lasts.attested _ (List.mem_of_getElem? task)
  cases attests with
  | finished attests =>
      cases attests with
      | upToDate holds =>
          obtain ⟨found, faithful⟩ := holds rfl
          obtain ⟨isTrusted, noDirectory⟩ := trusts rfl
          rw [Outcome.output_upToDate] at noDirectory ⊢
          exact ⟨rfl, (faithful isTrusted).delivers lasts.extended found noDirectory⟩
      | compiled size stands =>
          obtain ⟨found, faithful, artifact, file⟩ := stands rfl
          rw [Outcome.output_compiled]
          refine ⟨rfl, faithful.delivers lasts.extended found fun directory => ?_⟩
          rw [lasts.extended.place_eq] at directory
          cases directory.symm.trans (fileAt?_eq_some_iff.mp file)

end Lasts

end Compiler

end SceneForge
