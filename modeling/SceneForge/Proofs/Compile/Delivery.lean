import SceneForge.Proofs.Compile.Alone
import SceneForge.Proofs.Compile.Apart
import SceneForge.Proofs.Compile.Lasting

/-!
# What a batch delivers

What stands at the path of a successful result is what its input compiles to, as long as no
other input compiles to something else at the same path and what the gate lets pass is what
the record says. Inputs with the same last name share a path, and what they compile to is lost
but for the last; and the gate does not look at what an artifact holds.
-/

namespace SceneForge

open FileSystem Program

namespace Compiler

variable {compiler : Compiler} {inputs : List Path} {cache : Cache} {input : Path}
  {start files after : FileSystem} {index workers : Nat}

/-- Whatever the gate says, an input that can be compiled is compiled if the settings say so. -/
theorem exists_compiled_of_forced {source artifact : Bytes} (forced : compiler.config.force = true)
    (noDatabase : cache.path = none)
    (readable : ∀ path ∈ compiler.catalog.dependencies, ∃ content, files.read path = .ok content)
    (built : compiler.Builds input files source artifact)
    (written : ((writeAtomically (compiler.outputPath input) artifact).run files).1 = .ok ()) :
    ∃ now after, now.path = none ∧
      (writeAtomically (compiler.outputPath input) artifact).run files = (.ok (), after) ∧
      (compiler.compile input cache).run files =
        ((.ok (.compiled (compiler.outputPath input) artifact.length), now), after) := by
  have readableToo : ∀ path ∈ (compiler.request input).inputs,
      ∃ content, files.read path = .ok content := by
    intro path member
    rcases List.mem_cons.mp member with rfl | dependency
    · exact ⟨source, built.read_eq⟩
    · exact readable path dependency
  obtain ⟨decision, evaluated⟩ := @Cache.exists_evaluate cache _ _ readableToo
  have evaluates : (cache.evaluate (compiler.request input)).Leaves files fun answer _ =>
      answer = .ok decision :=
    ⟨evaluated⟩
  have judges : (compiler.judge input cache).run.Leaves files fun answer _ => answer = .ok decision := by
    rw [judge]
    apply leaves_bind_of_failing.mpr
    apply leaves_lift.mpr
    apply evaluates.mono
    rintro _ after rfl
    dsimp only
    rw [if_neg (by simp [forced])]
    exact leaves_pure.mpr rfl
  rcases ran : (writeAtomically (compiler.outputPath input) artifact).run files with ⟨answer, after⟩
  rw [ran] at written
  obtain rfl : answer = .ok () := written
  refine ⟨{ cache with records := compiler.recordsAfter input cache decision source }, after,
    noDatabase, rfl, ?_⟩
  exact compile_of_inMemory noDatabase judges.holds built ran

/-- An artifact that holds what one text compiles to is not what a source of another text is
compiled to, if they compile to buffers of different lengths. -/
theorem not_delivers {text other : String} {artifact : Bytes} {output : Path}
    (read : start.read input = .ok (Text.utf8 text)) (compiled : compiler.artifact other = .ok artifact)
    (stands : files.fileAt? (files.place output) = some artifact)
    (lengths : (compiler.buffer text).toOption.map List.length ≠
      (compiler.buffer other).toOption.map List.length) :
    ¬compiler.Delivers input start files output := by
  rintro ⟨found, finds, buffer, ⟨source, decoded, reads, decodes, buffered⟩, opened⟩
  obtain rfl := Except.ok.inj (read.symm.trans reads)
  rw [Text.ofUtf8_utf8] at decodes
  obtain rfl := Except.ok.inj decodes
  have same := fileAt?_eq_some_iff.mpr (find_eq_ok finds).2
  obtain rfl := Option.some.inj (stands.symm.trans same)
  obtain ⟨otherBuffer, otherBuffered, otherOpened⟩ := artifact_eq_ok compiled
  obtain rfl := Except.ok.inj (opened.symm.trans otherOpened)
  rw [buffered, otherBuffered] at lengths
  exact lengths rfl

/-- Two sources with the same last name, one of one empty node and one of two. -/
def namesakes : FileSystem :=
  let one := Text.utf8 "\x7b\"Nodes\":[\x7b\x7d]\x7d"
  let two := Text.utf8 "\x7b\"Nodes\":[\x7b\x7d,\x7b\x7d]\x7d"
  let entries := SortedMap.empty.insert [Text.utf8 "x"] .directory
  let entries := entries.insert [Text.utf8 "x", Text.utf8 "a.json"] (.file one)
  let entries := entries.insert [Text.utf8 "y"] .directory
  ⟨entries.insert [Text.utf8 "y", Text.utf8 "a.json"] (.file two), [], "1", fun _ _ => false⟩

/-- Compiles in any case, to where the process works. -/
def forcing : Compiler := ⟨⟨"Vulkan", .ofText "", none, none, 0, true⟩, .empty, .standard⟩

theorem dependencies_forcing : forcing.catalog.dependencies = [] := rfl

theorem outputPath_namesakes :
    forcing.outputPath (.ofText "x/a.json") = .ofText "a.scene" ∧
      forcing.outputPath (.ofText "y/a.json") = .ofText "a.scene" :=
  ⟨rfl, rfl⟩

/-- The first of them is compiled. -/
theorem exists_compiled_namesake :
    ∃ artifact now after, now.path = none ∧
      (writeAtomically (forcing.outputPath (.ofText "x/a.json")) artifact).run namesakes = (.ok (), after) ∧
      (forcing.compile (.ofText "x/a.json") .inMemory).run namesakes =
        ((.ok (.compiled (forcing.outputPath (.ofText "x/a.json")) artifact.length), now), after) := by
  obtain ⟨artifact, built⟩ : ∃ artifact, forcing.Builds (.ofText "x/a.json") namesakes
      (Text.utf8 "\x7b\"Nodes\":[\x7b\x7d]\x7d") artifact :=
    exists_builds rfl (by rfl) (by decide +kernel)
  have written : ((writeAtomically (forcing.outputPath (.ofText "x/a.json")) artifact).run namesakes).1 =
      .ok () := by
    rw [outputPath_namesakes.1]
    rfl
  exact ⟨artifact, @exists_compiled_of_forced forcing .inMemory _ _ _ _ rfl rfl
    (by simp [dependencies_forcing]) built written⟩

/-- Once a batch is done, what stands at the path of a successful result is what its input
compiles to: for every number of workers and every order of their steps, as long as sources do
not change, the artifact is sheltered, and, if it has been found up to date, its record is
vouched for, the catalog does not change either, and it is no directory. -/
theorem batch_artifact_lasts {schedule : List Nat} {batch : Batch}
    {results : List (Except CompileError Outcome)} {outcome : Outcome}
    (ran : (Batch.follow compiler workers schedule (.start inputs cache)).run start = (batch, files))
    (finished : batch.results? = some results)
    (unchanged : Batch.Throughout compiler workers schedule (.start inputs cache) start
      fun files => ∀ source ∈ inputs, files.read source = start.read source)
    (named : inputs[index]? = some input) (succeeded : results[index]? = some (.ok outcome))
    (sheltered : compiler.Sheltered inputs cache start input)
    (trusted : outcome.wasCompiled = false → compiler.Vouched input cache start ∧
      (Batch.Throughout compiler workers schedule (.start inputs cache) start fun files =>
        ∀ path ∈ compiler.catalog.dependencies, files.read path = start.read path) ∧
      files.entry? (files.place outcome.output) ≠ some .directory) :
    outcome.output = compiler.outputPath input ∧
      compiler.Delivers input start files outcome.output := by
  have throughout : Batch.Throughout compiler workers schedule (.start inputs cache) start fun files =>
      (∀ source ∈ inputs, files.read source = start.read source) ∧
        (outcome.wasCompiled = false →
          ∀ path ∈ compiler.catalog.dependencies, files.read path = start.read path) :=
    fun count => ⟨unchanged count, fun upToDate => (trusted upToDate).2.1 count⟩
  have lasts := (@Batch.leaves_follow compiler workers (.start inputs cache) start
    (compiler.Lasts inputs cache (outcome.wasCompiled = false) input start) _
    (fun same _ stepped lasts => lasts.step sheltered (fun upToDate => (trusted upToDate).1)
      same.1 same.2 stepped)
    schedule throughout (lasts_start compiler inputs cache _ input start)).holds
  have inputs_eq := (Batch.leaves_follow_inputs compiler workers schedule (.start inputs cache) start).holds
  rw [ran, Batch.inputs_start] at inputs_eq
  rw [ran] at lasts
  exact lasts.delivers (Batch.task_of_results? finished inputs_eq named succeeded)
    fun upToDate => ⟨upToDate, (trusted upToDate).2.2⟩

/-- Compiles what has changed, to where the process works. -/
def trusting : Compiler := ⟨⟨"Vulkan", .ofText "", none, none, 0, false⟩, .empty, .standard⟩

/-- A scene of one empty node. -/
def twinText : String := "\x7b\"Nodes\":[\x7b\x7d]\x7d"

/-- The same scene, with something else beside it. -/
def otherTwinText : String := "\x7b\"Nodes\":[\x7b\x7d],\"Other\":0\x7d"

def twinArtifact : Bytes := (trusting.artifact twinText).toOption.getD []

/-- Two sources with the same last name that compile to the same, and what stands in the places of
their artifact and of the database. -/
def twinFiles (artifact : Bytes) (database : Option Bytes) : FileSystem :=
  let entries : SortedMap Location Entry := SortedMap.empty.insert [Text.utf8 "a.scene"] (.file artifact)
  let entries := match database with
    | none => entries
    | some data => entries.insert [Text.utf8 "cache.bin"] (.file data)
  let entries := (entries.insert [Text.utf8 "x"] .directory).insert [Text.utf8 "y"] .directory
  let entries := entries.insert [Text.utf8 "x", Text.utf8 "a.json"] (.file (Text.utf8 twinText))
  ⟨entries.insert [Text.utf8 "y", Text.utf8 "a.json"] (.file (Text.utf8 otherTwinText)), [], "1",
    fun _ _ => false⟩

def twins : List Path := [.ofText "x/a.json", .ofText "y/a.json"]

/-- The first of the two has been compiled last. -/
def twinCache : Cache :=
  let record : RecordedInput := ⟨"Vulkan", "x/a.json", .ofContent (Text.utf8 twinText), Artifact.version⟩
  ⟨some (.ofText "cache.bin"), SortedMap.empty.insert (trusting.request (.ofText "x/a.json")).key [record]⟩

theorem artifact_twin : trusting.artifact twinText = .ok twinArtifact := by
  obtain ⟨artifact, compiled⟩ : ∃ artifact, trusting.artifact twinText = .ok artifact :=
    exists_artifact rfl (by decide +kernel)
  rw [twinArtifact, compiled]
  rfl

theorem outputPath_twin : ∀ input ∈ twins, trusting.outputPath input = .ofText "a.scene" := by
  decide +kernel

theorem reads_twin (artifact : Bytes) :
    (twinFiles artifact none).read (.ofText "x/a.json") = .ok (Text.utf8 twinText) ∧
      (twinFiles artifact none).read (.ofText "y/a.json") = .ok (Text.utf8 otherTwinText) :=
  ⟨by rfl, by rfl⟩

/-- Both compile to what a scene of one empty node compiles to. -/
theorem compiles_twin_iff {input : Path} (listed : input ∈ twins) (artifact buffer : Bytes) :
    trusting.Compiles input (twinFiles artifact none) buffer ↔ trusting.buffer twinText = .ok buffer := by
  have compiles_iff {text : String} (read : (twinFiles artifact none).read input = .ok (Text.utf8 text)) :
      trusting.Compiles input (twinFiles artifact none) buffer ↔ trusting.buffer text = .ok buffer := by
    constructor
    · rintro ⟨source, found, reads, decodes, buffered⟩
      obtain rfl := Except.ok.inj (read.symm.trans reads)
      rw [Text.ofUtf8_utf8] at decodes
      rwa [Except.ok.inj decodes]
    · intro buffered
      exact ⟨_, text, read, Text.ofUtf8_utf8 text, buffered⟩
  have same : (trusting.buffer otherTwinText).toOption = (trusting.buffer twinText).toOption := by
    decide +kernel
  rcases List.mem_pair.mp listed with rfl | rfl
  · exact compiles_iff (reads_twin artifact).1
  · rw [compiles_iff (reads_twin artifact).2, ← toOption_eq_some_iff, same, toOption_eq_some_iff]

/-- Neither of the two puts anything else in the place of the artifact. -/
theorem sheltered_twin {input : Path} (listed : input ∈ twins) (artifact : Bytes) :
    trusting.Sheltered twins twinCache (twinFiles artifact none) input where
  alone other otherListed _ buffer compiles :=
    (compiles_twin_iff listed artifact buffer).mpr
      ((compiles_twin_iff otherListed artifact buffer).mp compiles)
  database_apart database hasDatabase := by
    obtain rfl := Option.some.inj hasDatabase
    rw [outputPath_twin input listed]
    change ([Text.utf8 "cache.bin"] : Location) ≠ [Text.utf8 "a.scene"]
    decide

/-- The artifact holds what its record vouches for. -/
theorem vouched_twin :
    trusting.Vouched (.ofText "x/a.json") twinCache (twinFiles twinArtifact none) := by
  intro current _ _ artifact stands
  obtain rfl : twinArtifact = artifact := Option.some.inj stands
  exact Builds.holds ⟨(reads_twin twinArtifact).1, (trusting.build_utf8 _).trans artifact_twin⟩

theorem writes_twin (artifact other data : Bytes) :
    (writeAtomically (.ofText "a.scene") other).run (twinFiles artifact none) =
        (.ok (), twinFiles other none) ∧
      (writeAtomically (.ofText "cache.bin") data).run (twinFiles other none) =
        (.ok (), twinFiles other (some data)) := by
  have replaced : (replace (.ofText ".a.scene.1.tmp") (.ofText "a.scene") other).run.run
      (twinFiles artifact none) = (.ok (), twinFiles other none) :=
    Prod.ext (by rfl) (by rfl)
  have saved : (replace (.ofText ".cache.bin.1.tmp") (.ofText "cache.bin") data).run.run
      (twinFiles other none) = (.ok (), twinFiles other (some data)) :=
    Prod.ext (by rfl) (by rfl)
  have named : (Path.ofText "a.scene").temporary "1" = .ofText ".a.scene.1.tmp" := by decide +kernel
  have namedToo : (Path.ofText "cache.bin").temporary "1" = .ofText ".cache.bin.1.tmp" := by
    decide +kernel
  exact ⟨run_writeAtomically (ready_of_parent (by decide)) named replaced,
    run_writeAtomically (ready_of_parent (by decide)) namedToo saved⟩

/-- The first is up to date, and then the second is compiled in its place. -/
theorem compiles_twins :
    ∃ other now data,
      (trusting.compile (.ofText "x/a.json") twinCache).run (twinFiles twinArtifact none) =
          ((.ok (.upToDate (.ofText "a.scene")), twinCache), twinFiles twinArtifact none) ∧
        (trusting.compile (.ofText "y/a.json") twinCache).run (twinFiles twinArtifact none) =
          ((.ok (.compiled (.ofText "a.scene") other.length), now), twinFiles other (some data)) := by
  have goes := outputPath_twin (.ofText "x/a.json") (by decide)
  have goesToo := outputPath_twin (.ofText "y/a.json") (by decide)
  obtain ⟨other, compiled⟩ : ∃ artifact, trusting.artifact otherTwinText = .ok artifact :=
    exists_artifact rfl (by decide +kernel)
  have built : trusting.Builds (.ofText "y/a.json") (twinFiles twinArtifact none)
      (Text.utf8 otherTwinText) other :=
    ⟨(reads_twin twinArtifact).2, (trusting.build_utf8 _).trans compiled⟩
  obtain ⟨decision, judged⟩ := exists_of_isOk
    (show ((trusting.judge (.ofText "y/a.json") twinCache).run.run (twinFiles twinArtifact none)).1.isOk by
      decide +kernel)
  have upToDate := @compile_of_recorded trusting (.ofText "x/a.json") twinCache
    (twinFiles twinArtifact none) _ rfl (reads_twin twinArtifact).1 (SortedMap.get?_insert_self _ _ _)
    (by decide +kernel) rfl
  have written : (writeAtomically (trusting.outputPath (.ofText "y/a.json")) other).run
      (twinFiles twinArtifact none) = (.ok (), twinFiles other none) := by
    rw [goesToo]
    exact (writes_twin twinArtifact other []).1
  have recorded := @record_eq_ok trusting (.ofText "y/a.json") twinCache (twinFiles other none) decision
    (Text.utf8 otherTwinText) other _ _ rfl (writes_twin twinArtifact other _).2
  rw [goes] at upToDate
  rw [goesToo] at recorded
  exact ⟨other, _, _, upToDate,
    (run_compile_of_written judged built.leaves.holds.1 (run_write_of_ok written)).trans recorded⟩

/-- Two workers have taken both. The first is up to date, the second is compiled in its place, and
both are delivered. -/
theorem batch_artifact_lasts_twins :
    ∃ schedule batch files size,
      (Batch.follow trusting (workerCount 2 twins) schedule (.start twins twinCache)).run
          (twinFiles twinArtifact none) = (batch, files) ∧
        batch.results? = some
          [.ok (.upToDate (.ofText "a.scene")), .ok (.compiled (.ofText "a.scene") size)] ∧
        trusting.Delivers (.ofText "x/a.json") (twinFiles twinArtifact none) files (.ofText "a.scene") ∧
        trusting.Delivers (.ofText "y/a.json") (twinFiles twinArtifact none) files (.ofText "a.scene") := by
  obtain ⟨other, now, data, upToDate, compiled⟩ := compiles_twins
  have follows := Batch.run_follow_of_both_taken upToDate compiled
  have apart : trusting.Apart twins twinCache (twinFiles twinArtifact none) :=
    apart_of_clear (by decide +kernel) (by decide +kernel) (by decide +kernel) (by decide +kernel)
  have found : trusting.Found twins (twinFiles twinArtifact none) := found_of_clear (by decide +kernel)
  have unchanged := apart.throughout found 2 ([0, 1] ++ List.replicate 6 0 ++ List.replicate 6 1)
  have same (count : Nat) := fun source listed => unchanged count source (List.mem_append_left _ listed)
  refine ⟨_, _, _, other.length, follows, rfl, ?_, ?_⟩
  · refine (@batch_artifact_lasts _ _ _ (.ofText "x/a.json") _ _ 0 _ _ _ _ _ follows rfl same rfl rfl
      (sheltered_twin (by decide) _) fun _ => ⟨vouched_twin, ?_, ?_⟩).2
    · exact fun count path listed => unchanged count path (List.mem_append_right _ listed)
    · change some (Entry.file other) ≠ some .directory
      exact nofun
  · exact (@batch_artifact_lasts _ _ _ (.ofText "y/a.json") _ _ 1 _ _ _ _ _ follows rfl same rfl rfl
      (sheltered_twin (by decide) _) nofun).2

/-- Whether a batch with one job may end with a successful result for an input of which the
artifact is not delivered, although all sources read the same throughout. -/
def Loses (compiler : Compiler) (inputs : List Path) (cache : Cache) (start : FileSystem)
    (input : Path) : Prop :=
  ∃ (schedule : List Nat) (batch : Batch) (files : FileSystem)
    (results : List (Except CompileError Outcome)) (index : Nat) (outcome : Outcome),
    (Batch.follow compiler (workerCount 1 inputs) schedule (.start inputs cache)).run start =
        (batch, files) ∧
      batch.results? = some results ∧
      (Batch.Throughout compiler (workerCount 1 inputs) schedule (.start inputs cache) start
        fun files => ∀ source ∈ inputs, files.read source = start.read source) ∧
      inputs[index]? = some input ∧ results[index]? = some (.ok outcome) ∧
      ¬compiler.Delivers input start files outcome.output

/-- Of two sources with the same last name, the artifact of the first is lost to the second. -/
theorem loses_namesake :
    forcing.Loses [.ofText "x/a.json", .ofText "y/a.json"] .inMemory namesakes (.ofText "x/a.json") := by
  let inputs : List Path := [.ofText "x/a.json", .ofText "y/a.json"]
  obtain ⟨one, now, between, noDatabase, writes, ran⟩ := exists_compiled_namesake
  obtain ⟨two, compiledTwo⟩ :
      ∃ artifact, forcing.artifact "\x7b\"Nodes\":[\x7b\x7d,\x7b\x7d]\x7d" = .ok artifact :=
    exists_artifact rfl (by decide +kernel)
  obtain ⟨goes, goesToo⟩ := outputPath_namesakes
  have apart : forcing.Apart inputs .inMemory namesakes :=
    apart_of_clear (by decide +kernel) (by decide +kernel) (by decide +kernel) (by decide +kernel)
  have found : forcing.Found inputs namesakes := found_of_clear (by decide +kernel)
  have sane := (found.sane _).write apart
    (outputPath_mem_targets (List.mem_cons_self : (.ofText "x/a.json") ∈ inputs) _ _) writes
  have builtToo : forcing.Builds (.ofText "y/a.json") between
      (Text.utf8 "\x7b\"Nodes\":[\x7b\x7d,\x7b\x7d]\x7d") two := by
    refine ⟨(sane.read_eq apart ?_).trans (by rfl), (forcing.build_utf8 _).trans compiledTwo⟩
    decide
  have writtenToo : ((writeAtomically (forcing.outputPath (.ofText "y/a.json")) two).run between).1 =
      .ok () := by
    rw [goesToo, ← goes]
    exact writeAtomically_again writes
      (fun files => forcing.place_temporary_outputPath_ne _ files) two
  obtain ⟨later, files, -, writesToo, ranToo⟩ :=
    @exists_compiled_of_forced forcing now _ _ _ _ rfl noDatabase (by simp [dependencies_forcing])
      builtToo writtenToo
  have both := Batch.run_follow_of_both_waiting ran ranToo
  have unchanged := apart.throughout found 1 (List.replicate 7 0 ++ List.replicate 7 1)
  refine ⟨_, _, files, _, 0, _, both, rfl,
    fun count source listed => unchanged count source (List.mem_append_left _ listed), rfl, rfl, ?_⟩
  have replaced := (leaves_writeAtomically (forcing.outputPath (.ofText "y/a.json")) two between).holds
  rw [writesToo] at replaced
  have stands := replaced.written rfl
  rw [← replaced.toExtends.place_eq, goesToo] at stands
  rw [Outcome.output_compiled, goes]
  exact not_delivers (by rfl) compiledTwo stands (by decide +kernel)

/-- A source, and something that is no artifact in the place of its artifact. -/
def editedArtifact : FileSystem :=
  let source := Text.utf8 "\x7b\"Nodes\":[\x7b\x7d]\x7d"
  let entries := SortedMap.empty.insert [Text.utf8 "a.json"] (.file source)
  ⟨entries.insert [Text.utf8 "a.scene"] (.file []), [], "1", fun _ _ => false⟩

/-- The record of an artifact that stood there before. -/
def earlierRecord : RecordedInput :=
  ⟨"Vulkan", "a.json", .ofContent (Text.utf8 "\x7b\"Nodes\":[\x7b\x7d]\x7d"), Artifact.version⟩

def earlierCache : Cache :=
  ⟨none, SortedMap.empty.insert (trusting.request (.ofText "a.json")).key [earlierRecord]⟩

/-- Whatever has been put in the place of an artifact that has a record is up to date. -/
theorem compile_edited : (trusting.compile (.ofText "a.json") earlierCache).run editedArtifact =
    ((.ok (.upToDate (trusting.outputPath (.ofText "a.json"))), earlierCache), editedArtifact) :=
  compile_of_recorded rfl (by rfl) (SortedMap.get?_insert_self _ _ _) (by decide +kernel) rfl

/-- It stays there, though it is no artifact. -/
theorem exists_loses_edited :
    ∃ cache, trusting.Loses [.ofText "a.json"] cache editedArtifact (.ofText "a.json") := by
  let inputs : List Path := [.ofText "a.json"]
  have ran := compile_edited
  have follows := @Batch.run_follow_of_waiting trusting 1 0 (.start inputs earlierCache)
    editedArtifact (.ofText "a.json") _ _ _ rfl rfl rfl ran
  have apart : trusting.Apart inputs earlierCache editedArtifact :=
    apart_of_clear (by decide +kernel) (by decide +kernel) (by decide +kernel) (by decide +kernel)
  have found : trusting.Found inputs editedArtifact := found_of_clear (by decide +kernel)
  have unchanged := apart.throughout found 1 (List.replicate 7 0)
  refine ⟨earlierCache, _, _, _, _, 0, _, follows, rfl,
    fun count source listed => unchanged count source (List.mem_append_left _ listed), rfl, rfl, ?_⟩
  rintro ⟨artifact, finds, buffer, -, opened⟩
  have goes : trusting.outputPath (.ofText "a.json") = .ofText "a.scene" := by rfl
  have stands : editedArtifact.fileAt? (editedArtifact.place (.ofText "a.scene")) = some [] := by
    decide +kernel
  rw [Outcome.output_upToDate, goes] at finds
  have same := fileAt?_eq_some_iff.mpr (find_eq_ok finds).2
  obtain rfl := Option.some.inj (stands.symm.trans same)
  have notArtifact : (Artifact.decode []).isOk = false := by decide +kernel
  rw [opened] at notArtifact
  cases notArtifact

/-- An artifact can be lost to another input of the batch, and what is found up to date need not
have been one in the first place. -/
theorem batch_artifact_lost :
    forcing.Loses [.ofText "x/a.json", .ofText "y/a.json"] .inMemory namesakes (.ofText "x/a.json") ∧
      ∃ cache, trusting.Loses [.ofText "a.json"] cache editedArtifact (.ofText "a.json") :=
  ⟨loses_namesake, exists_loses_edited⟩

end Compiler

end SceneForge
