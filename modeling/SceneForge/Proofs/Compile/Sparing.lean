import SceneForge.Proofs.Compile.Apart
import SceneForge.Proofs.Compile.RoundTrip

/-!
# What compiling spares

Compiling writes four files at most: the artifact, the database of the cache, and the
temporary files of the two. Every other file stays what it is, however compiling ends, so
an input is lost only if it stands in one of these four places. A source stands where its
own artifact goes if it lies in the output directory and is called like the artifact;
compiling then puts the artifact in its place.
-/

namespace SceneForge

namespace FileSystem

/-- The places that writing some files may change: theirs and those of their temporary files. -/
def placesToWrite (files : FileSystem) (paths : List Path) : List Location :=
  paths.flatMap fun path => [files.place path, files.place (path.temporary files.process)]

/-- Directories have been made, and files have changed in some places at most. -/
structure Confined (touched : List Location) (files after : FileSystem) : Prop
    extends Extends files after where
  process_eq : after.process = files.process
  fileAt?_eq : ∀ location ∉ touched, after.fileAt? location = files.fileAt? location

variable {touched wider : List Location} {files between after : FileSystem} {paths : List Path}

theorem Confined.refl (touched : List Location) (files : FileSystem) : Confined touched files files :=
  ⟨.refl files, rfl, fun _ _ => rfl⟩

theorem Confined.trans (first : Confined touched files between)
    (second : Confined touched between after) : Confined touched files after where
  toExtends := first.toExtends.trans second.toExtends
  process_eq := second.process_eq.trans first.process_eq
  fileAt?_eq location outside :=
    (second.fileAt?_eq location outside).trans (first.fileAt?_eq location outside)

theorem Confined.mono (confined : Confined touched files after) (narrow : touched ⊆ wider) :
    Confined wider files after where
  toExtends := confined.toExtends
  process_eq := confined.process_eq
  fileAt?_eq location outside := confined.fileAt?_eq location fun inside => outside (narrow inside)

theorem Confined.placesToWrite_eq (confined : Confined touched files after) (paths : List Path) :
    after.placesToWrite paths = files.placesToWrite paths := by
  simp only [placesToWrite, confined.place_eq, confined.process_eq]

theorem place_mem_placesToWrite {path : Path} (member : path ∈ paths) :
    files.place path ∈ files.placesToWrite paths :=
  List.mem_flatMap.mpr ⟨path, member, List.mem_cons_self⟩

theorem place_temporary_mem_placesToWrite {path : Path} (member : path ∈ paths) :
    files.place (path.temporary files.process) ∈ files.placesToWrite paths :=
  List.mem_flatMap.mpr ⟨path, member, List.mem_cons_of_mem _ List.mem_cons_self⟩

/-- Writing a file spares all others but its temporary file. -/
theorem confined_of_writes {path : Path} {data : Bytes} {answer : Except FileError Unit}
    (writes : Program.Writes path data files answer after) (member : path ∈ paths) :
    Confined (files.placesToWrite paths) files after where
  toExtends := writes.toExtends
  process_eq := writes.process_eq
  fileAt?_eq location outside := by
    apply writes.fileAt?_eq
    · rintro rfl
      exact outside (place_temporary_mem_placesToWrite member)
    · rintro rfl
      exact outside (place_mem_placesToWrite member)

end FileSystem

namespace Compiler

open FileSystem Program

variable {compiler : Compiler} {input : Path} {cache : Cache} {files after : FileSystem}

theorem PhasesEnd.confined
    {answer : Except (Except CompileError Outcome) (BuildDecision × Bytes × Bytes)}
    (ends : PhasesEnd compiler input cache files answer after) :
    Confined (files.placesToWrite (compiler.targets [input] cache)) files after := by
  cases ends with
  | upToDate | failed => exact .refl _ files
  | notWritten _ writes => exact confined_of_writes writes List.mem_cons_self
  | written _ _ writes => exact confined_of_writes writes List.mem_cons_self

/-- Recording an artifact touches nothing but the database. -/
theorem RecordEnd.confined {decision : BuildDecision} {source artifact : Bytes}
    {result : Except CompileError Outcome × Cache}
    (ends : RecordEnd compiler input decision source artifact cache files result after) :
    Confined (files.placesToWrite cache.path.toList) files after := by
  cases ends with
  | notStored hasDatabase writes => exact confined_of_writes writes (by simp [hasDatabase])
  | stored saves =>
      rw [Cache.Saves] at saves
      split at saves
      next =>
        obtain rfl := saves
        exact .refl _ _
      next database hasDatabase => exact confined_of_writes saves (by simp [hasDatabase])

/-- However compiling ends, it spares all files but those that it replaces and their temporary
files. -/
theorem CompileEnd.confined {result : Except CompileError Outcome × Cache}
    (ends : CompileEnd compiler input cache files result after) :
    Confined (files.placesToWrite (compiler.targets [input] cache)) files after := by
  cases ends with
  | early _ ends => exact ends.confined
  | recorded _ ends recorded =>
      have recording := recorded.confined
      rw [ends.confined.placesToWrite_eq] at recording
      apply ends.confined.trans (recording.mono _)
      exact List.subset_append_right _ _

/-- Where an artifact is to stand, and the database is not, there is what was there, or the
artifact of the source. -/
theorem CompileEnd.fileAt?_artifact {result : Except CompileError Outcome × Cache} {content : Bytes}
    (ends : CompileEnd compiler input cache files result after) (read : files.read input = .ok content)
    (apart : files.place (compiler.outputPath input) ∉ files.placesToWrite cache.path.toList) :
    after.fileAt? (files.place (compiler.outputPath input)) =
        files.fileAt? (files.place (compiler.outputPath input)) ∨
      ∃ artifact, compiler.build content = .ok artifact ∧
        after.fileAt? (files.place (compiler.outputPath input)) = some artifact := by
  cases ends with
  | early _ ends =>
      cases ends with
      | upToDate | failed => exact .inl rfl
      | notWritten _ writes =>
          exact .inl (writes.kept nofun (compiler.place_temporary_outputPath_ne input files).symm)
  | recorded _ ends recorded =>
      have recording := recorded.confined
      rw [ends.confined.placesToWrite_eq] at recording
      cases ends with
      | written _ built writes =>
          obtain rfl := Except.ok.inj (read.symm.trans built.read_eq)
          refine .inr ⟨_, built.build_eq, ?_⟩
          rw [recording.fileAt?_eq _ apart, writes.written rfl]

theorem artifactName_of_fileName? {name : Bytes} (named : input.fileName? = some name) :
    artifactName input = Text.utf8 (Text.lossy (Path.stemOf name) ++ ".scene") := by
  rw [artifactName, Path.stem?, named]
  rfl

/-- A source does not stand where the temporary file of its artifact goes. -/
theorem place_ne_temporary_outputPath {name : Bytes} (process : '/' ∉ files.process.toList)
    (named : input.fileName? = some name) :
    files.place input ≠ files.place ((compiler.outputPath input).temporary files.process) := by
  intro same
  have outputNamed : (compiler.outputPath input).fileName? = some (artifactName input) :=
    compiler.config.outputDirectory.fileName?_join (plain_artifactName input)
  obtain ⟨above, whole⟩ := Path.exists_place_of_fileName? named files
  obtain ⟨temporaryAbove, temporaryWhole⟩ :=
    Path.exists_place_temporary_of_fileName? process outputNamed files
  rw [whole, temporaryWhole] at same
  have last := List.singleton_inj.mp (List.append_inj' same (by simp)).2
  rw [Path.temporaryName_eq, artifactName_of_fileName? named, Option.map_some, Option.getD_some,
    Text.lossy_utf8, Text.utf8_append] at last
  -- The name up to its extension would be longer than itself.
  have stem := congrArg (fun bytes => (Text.lossy (Path.stemOf bytes)).length) last
  have stemOf {stem : Bytes} (long : stem ≠ []) : Path.stemOf (stem ++ Text.utf8 ".tmp") = stem :=
    Path.stemOf_append long (by decide)
  rw [stemOf (by simp [Text.utf8]), Text.lossy_utf8] at stem
  simp only [String.length_append] at stem
  change _ = 1 + (_ + 6) + 1 + _ at stem
  omega

/-- A source that stands where its artifact goes is called like it. -/
theorem name_eq_of_place_outputPath {name : Bytes} (named : input.fileName? = some name)
    (same : files.place input = files.place (compiler.outputPath input)) :
    name = Path.stemOf name ++ Text.utf8 ".scene" ∧
      files.place input = files.place compiler.config.outputDirectory ++ [name] := by
  obtain ⟨above, whole⟩ := Path.exists_place_of_fileName? named files
  rw [place_outputPath, whole] at same
  obtain ⟨directory, last⟩ := List.append_inj' same rfl
  have called := List.singleton_inj.mp last
  refine ⟨?_, by rw [whole, directory]⟩
  rw [artifactName_of_fileName? named, Text.utf8_append] at called
  have notEmpty : Text.utf8 (Text.lossy (Path.stemOf name)) ≠ [] := by
    intro empty
    rw [empty] at called
    rw [called] at empty
    exact absurd empty (by decide +kernel)
  have stem : Path.stemOf name = Text.utf8 (Text.lossy (Path.stemOf name)) := by
    conv_lhs => rw [called]
    exact Path.stemOf_append notEmpty (by decide)
  conv_lhs => rw [called, ← stem]

/-- Without a database, compiling leaves what writing the artifact has left. -/
theorem run_compile_of_inMemory {decision : BuildDecision} {source artifact : Bytes}
    {between : FileSystem} (inMemory : cache.path = none)
    (reached : (compiler.phases input cache).run.run files =
      (.ok (decision, source, artifact), between)) :
    ((compiler.compile input cache).run files).2 = between := by
  rw [compile_eq, run_bind, reached]
  exact congrArg Prod.snd (record_of_inMemory inMemory between)

/-- Whatever compiling returns, no file changes but the artifact, the database, and the
temporary files of the two. An input that stands in none of these places reads the same
afterwards. A source that is apart from the database reads the same, too, unless it lies in
the output directory under the name of its artifact, which may then stand in its place. -/
theorem compile_spares {result : Except CompileError Outcome × Cache}
    (process : '/' ∉ files.process.toList)
    (ran : (compiler.compile input cache).run files = (result, after)) :
    (∀ location ∉ files.placesToWrite (compiler.targets [input] cache),
      after.fileAt? location = files.fileAt? location) ∧
    (∀ path ∈ (compiler.request input).inputs,
      files.place path ∉ files.placesToWrite (compiler.targets [input] cache) →
        ∀ content, files.read path = .ok content → after.read path = .ok content) ∧
    ∀ name content, input.fileName? = some name → files.read input = .ok content →
      files.place input ∉ files.placesToWrite cache.path.toList →
        ∃ now, after.read input = .ok now ∧
          (now = content ∨ compiler.build content = .ok now ∧ name = Path.stemOf name ++ Text.utf8 ".scene" ∧
            files.place input = files.place compiler.config.outputDirectory ++ [name]) := by
  have ends : CompileEnd compiler input cache files result after := by
    have ends := (leaves_compile compiler input cache files).holds
    rwa [ran] at ends
  have confined := ends.confined
  have refuses : after.refuses = files.refuses := by
    have refuses := refuses_run (compiler.compile input cache) files
    rwa [ran] at refuses
  refine ⟨confined.fileAt?_eq, ?_, ?_⟩
  · intro path _ apart content read
    apply confined.read_eq_ok refuses read
    rw [confined.fileAt?_eq _ apart, read_eq_ok read]
  · intro name content named read apart
    have stands := read_eq_ok read
    by_cases same : files.place input = files.place (compiler.outputPath input)
    · rw [same] at apart stands
      rcases ends.fileAt?_artifact read apart with kept | ⟨artifact, built, replaced⟩
      · refine ⟨content, confined.read_eq_ok refuses read ?_, .inl rfl⟩
        rw [same, kept, stands]
      · refine ⟨artifact, confined.read_eq_ok refuses read ?_, .inr ⟨built, ?_⟩⟩
        · rw [same, replaced]
        · exact name_eq_of_place_outputPath named same
    · refine ⟨content, confined.read_eq_ok refuses read ?_, .inl rfl⟩
      rw [confined.fileAt?_eq, stands]
      intro touched
      obtain ⟨target, listed, place⟩ := List.mem_flatMap.mp touched
      rcases List.mem_cons.mp listed with rfl | database
      · rcases List.mem_cons.mp place with here | temporary
        · exact same here
        · exact place_ne_temporary_outputPath process named (List.mem_singleton.mp temporary)
      · exact apart (List.mem_flatMap.mpr ⟨target, database, place⟩)

/-- A directory with a source of one empty node that is called like an artifact, and with a
catalog that is called like the temporary file of this artifact. -/
def compiledFiles : FileSystem :=
  let source := Text.utf8 "\x7b\"Nodes\":[\x7b\x7d]\x7d"
  let catalog := Text.utf8 "\x7b\"Assets\":\x7b\x7d\x7d"
  let entries := SortedMap.empty.insert [Text.utf8 "compiled"] .directory
  let entries := entries.insert [Text.utf8 "compiled", Text.utf8 "a.scene"] (.file source)
  ⟨entries.insert [Text.utf8 "compiled", Text.utf8 ".a.scene.1.tmp"] (.file catalog), [], "1",
    fun _ _ => false⟩

/-- The catalog of this directory. -/
def compiledCatalog : Catalog := { Catalog.empty with source := some (.ofText "compiled/.a.scene.1.tmp") }

/-- Both are spared if the artifact goes to another directory. -/
theorem compile_spares_elsewhere :
    let compiler : Compiler := ⟨⟨"Vulkan", .ofText "", none, none, 0, false⟩, compiledCatalog, .standard⟩
    let cache : Cache := ⟨some (.ofText "cache.bin"), SortedMap.empty⟩
    ∃ result after,
      (compiler.compile (.ofText "compiled/a.scene") cache).run compiledFiles = (result, after) ∧
        ∀ path ∈ (compiler.request (.ofText "compiled/a.scene")).inputs,
          ∃ content, compiledFiles.read path = .ok content ∧ after.read path = .ok content := by
  intro compiler cache
  have apart : ∀ path ∈ (compiler.request (.ofText "compiled/a.scene")).inputs, compiledFiles.place path ∉
      compiledFiles.placesToWrite (compiler.targets [.ofText "compiled/a.scene"] cache) := by
    decide +kernel
  have reads : ∀ path ∈ (compiler.request (.ofText "compiled/a.scene")).inputs,
      (compiledFiles.read path).isOk := by
    decide +kernel
  rcases ran : (compiler.compile (.ofText "compiled/a.scene") cache).run compiledFiles with ⟨result, after⟩
  have spares := compile_spares (by decide) ran
  refine ⟨result, after, rfl, fun path listed => ?_⟩
  obtain ⟨content, read⟩ := exists_of_isOk (reads path listed)
  exact ⟨content, read, spares.2.1 path listed (apart path listed) content read⟩

/-- Neither is if it goes to the same directory: the artifact takes the place of the source, and
its temporary file that of the catalog. -/
theorem compile_loses_inputs :
    let compiler : Compiler :=
      ⟨⟨"Vulkan", .ofText "compiled", none, none, 0, false⟩, compiledCatalog, .standard⟩
    let cache : Cache := ⟨none, SortedMap.empty⟩
    ∀ path ∈ (compiler.request (.ofText "compiled/a.scene")).inputs,
      ∃ content, compiledFiles.read path = .ok content ∧
        ((compiler.compile (.ofText "compiled/a.scene") cache).run compiledFiles).2.read path ≠
          .ok content := by
  intro compiler cache
  have read : compiledFiles.read (.ofText "compiled/a.scene") =
      .ok (Text.utf8 "\x7b\"Nodes\":[\x7b\x7d]\x7d") := by rfl
  obtain ⟨artifact, built⟩ :
      ∃ artifact, compiler.Builds (.ofText "compiled/a.scene") compiledFiles _ artifact :=
    exists_builds rfl read (by decide +kernel)
  have goes : compiler.outputPath (.ofText "compiled/a.scene") = .ofText "compiled/a.scene" := by
    decide +kernel
  have written : ((writeAtomically (.ofText "compiled/a.scene") artifact).run compiledFiles).1 =
      .ok () := by
    rfl
  have writes := (leaves_writeAtomically (.ofText "compiled/a.scene") artifact compiledFiles).holds
  rcases wrote : (writeAtomically (.ofText "compiled/a.scene") artifact).run compiledFiles with
    ⟨answer, after⟩
  rw [wrote] at written writes
  subst written
  obtain ⟨decision, reached⟩ :=
    @phases_reach _ _ cache _ _ _ _ (by decide +kernel) built (goes ▸ wrote)
  rw [run_compile_of_inMemory rfl reached]
  intro path listed
  rcases List.mem_pair.mp listed with rfl | rfl
  · refine ⟨_, read, fun unchanged => ?_⟩
    have remains := read_eq_ok unchanged
    rw [writes.place_eq, writes.written rfl] at remains
    obtain rfl := Option.some.inj remains
    obtain ⟨buffer, -, opened⟩ := artifact_eq_ok ((compiler.build_utf8 _).symm.trans built.build_eq)
    have closed : (Artifact.decode (Text.utf8 "\x7b\"Nodes\":[\x7b\x7d]\x7d")).isOk = false := by
      decide +kernel
    rw [opened] at closed
    cases closed
  · refine ⟨Text.utf8 "\x7b\"Assets\":\x7b\x7d\x7d", by rfl, fun unchanged => ?_⟩
    have temporary : compiledFiles.place (.ofText "compiled/.a.scene.1.tmp") =
        compiledFiles.place ((.ofText "compiled/a.scene" : Path).temporary compiledFiles.process) := by
      decide +kernel
    have remains := read_eq_ok unchanged
    rw [writes.place_eq, temporary, writes.gone rfl (Path.place_temporary_ne (by decide) _ _)] at remains
    cases remains

end Compiler

end SceneForge
