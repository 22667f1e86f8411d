import SceneForge.Proofs.Compile.Weighing

/-!
# Soundness of the gate

Whenever compiling an input answers that its artifact is up to date, the artifact holds
what the source compiles to with the catalog, both as they are now. This is so after any
run: every step keeps all records, in memory and in the database file, vouching for the
artifacts that stand beside them.
-/

namespace SceneForge

open FileSystem Program

namespace Workspace

/-- What holds of every session that a run leads to. -/
structure Sound (workspace : Workspace) (session : Session) : Prop where
  database_apart : ∀ input,
    session.files.place workspace.database ≠ session.files.place (workspace.output input)
  path_eq : session.cache.path = some workspace.database
  records : workspace.Trusts session.files session.cache.records
  stored : ∀ database : Database, database.StandsAt session.files workspace.database →
    workspace.Trusts session.files database.records

variable {workspace : Workspace} {files after : FileSystem} {cache : Cache} {input : Path}

theorem Sound.of_starts {session : Session} (starts : workspace.Starts session) :
    workspace.Sound session where
  database_apart := starts.database_apart
  path_eq := starts.path_eq
  records := by
    rw [starts.records_eq]
    exact nofun
  stored database stands := by
    rw [starts.unrecorded database stands]
    exact nofun

/-- Edits leave a session sound. -/
theorem Sound.edit (sound : workspace.Sound ⟨files, cache⟩) (edits : workspace.Edits files after) :
    workspace.Sound ⟨after, cache⟩ where
  database_apart other := by
    rw [edits.place_eq, edits.place_eq]
    exact sound.database_apart other
  path_eq := sound.path_eq
  records key recorded found := by
    obtain ⟨other, named, vouches⟩ := sound.records key recorded found
    exact ⟨other, named, vouches.edit edits⟩
  stored database stands key recorded found := by
    obtain ⟨content, file, decoded⟩ := stands
    rw [edits.place_eq] at file
    rcases edits.database with same | gone
    · rw [same] at file
      obtain ⟨other, named, vouches⟩ := sound.stored database ⟨content, file, decoded⟩ key recorded found
      exact ⟨other, named, vouches.edit edits⟩
    · rw [gone] at file
      cases file

/-- Opening the database again leaves a session sound. -/
theorem Sound.reopen (sound : workspace.Sound ⟨files, cache⟩) {reopened : Cache}
    (loaded : ((Cache.load workspace.database).run files).1 = .ok reopened) :
    workspace.Sound ⟨files, reopened⟩ where
  database_apart := sound.database_apart
  path_eq := (Cache.load_eq_ok loaded).1
  records key recorded found := by
    obtain ⟨database, stands, found⟩ := (Cache.load_eq_ok loaded).2 key recorded found
    exact sound.stored database stands key recorded found
  stored := sound.stored

/-- No database is what an artifact is, or a part of it: the database file may be where the
temporary file of an artifact goes. -/
theorem standsAt_of_write {artifact buffer : Bytes} {answer : Except FileError Unit}
    (writes : Writes (workspace.output input) artifact files answer after)
    (opened : Artifact.decode artifact = .ok buffer)
    (apart : files.place workspace.database ≠ files.place (workspace.output input))
    {database : Database} (stands : database.StandsAt after workspace.database) :
    database.StandsAt files workspace.database := by
  obtain ⟨content, file, decoded, current⟩ := stands
  rw [writes.place_eq] at file
  refine ⟨content, ?_, decoded, current⟩
  by_cases temporary : files.place workspace.database =
      files.place ((workspace.output input).temporary files.process)
  · rw [temporary] at file ⊢
    rcases writes.temporary with same | written
    · exact same ▸ file
    · simp only [file, List.mem_cons, reduceCtorEq, Option.some.injEq, List.not_mem_nil, or_false,
        false_or] at written
      obtain ⟨rest, whole⟩ := Database.eq_append_of_decode? decoded
      rcases written with rfl | rfl
      · have length := congrArg List.length whole
        rw [List.length_append, Bytes.length_ofUInt32, List.length_nil] at length
        omega
      · rw [whole, current] at opened
        exact absurd (Container.type_eq_of_decompress opened) (by decide)
  · exact (writes.fileAt?_eq _ temporary apart).symm.trans file

/-- An artifact that could not be written leaves a session sound. -/
theorem Sound.notWritten (sound : workspace.Sound ⟨files, cache⟩) {artifact buffer : Bytes}
    {refusal : FileError}
    (writes : Writes (workspace.output input) artifact files (.error refusal) after)
    (opened : Artifact.decode artifact = .ok buffer) : workspace.Sound ⟨after, cache⟩ where
  database_apart other := by
    rw [writes.place_eq, writes.place_eq]
    exact sound.database_apart other
  path_eq := sound.path_eq
  records key recorded found := by
    obtain ⟨other, named, vouches⟩ := sound.records key recorded found
    exact ⟨other, named, vouches.write writes (.inl nofun)⟩
  stored database stands key recorded found := by
    have stood := standsAt_of_write writes opened (sound.database_apart input) stands
    obtain ⟨other, named, vouches⟩ := sound.stored database stood key recorded found
    exact ⟨other, named, vouches.write writes (.inl nofun)⟩

variable {session : Session} {compiler : Compiler}

section Spelled

variable {decision : BuildDecision} {source artifact : Bytes} {between : FileSystem}
  (spelled : workspace.Spelled)
include spelled

/-- A new record vouches for its artifact. -/
theorem vouches_of_record (allowed : workspace.Allows ⟨files, cache⟩ compiler input)
    (apart : files.place workspace.database ≠ files.place (workspace.output input))
    (evaluated : cache.Evaluates (compiler.request input) files decision)
    (built : compiler.Builds input files source artifact)
    (writes : Writes (workspace.output input) artifact files (.ok ()) between) {data : Bytes}
    (saves : Writes workspace.database data between (.ok ()) after) :
    workspace.Vouches after (workspace.output input)
      (compiler.recordedInputs input source decision.inputs) := by
  obtain ⟨shown, catalog, weighs⟩ := exists_weighs allowed evaluated
  have stands : after.fileAt? (after.place (workspace.output input)) = some artifact := by
    rw [saves.place_eq, writes.place_eq, saves.fileAt?_eq]
    · exact writes.written rfl
    · rw [← writes.place_eq]
      exact workspace.place_output_ne_temporary between input workspace.database between.process
    · rw [writes.place_eq]
      exact apart.symm
  refine ⟨allowed.fits _ (by simp), _, _, source, catalog, weighs.names spelled allowed built.read_eq, ?_⟩
  intro other file
  obtain rfl := Option.some.inj (stands.symm.trans file)
  exact holds_of_build built.build_eq weighs.listed

/-- An artifact that has been recorded leaves a session sound. -/
theorem Sound.recorded (sound : workspace.Sound ⟨files, cache⟩)
    (allowed : workspace.Allows ⟨files, cache⟩ compiler input)
    (evaluated : cache.Evaluates (compiler.request input) files decision)
    (built : compiler.Builds input files source artifact)
    (writes : Writes (workspace.output input) artifact files (.ok ()) between)
    (saves : cache.Saves (compiler.recordsAfter input cache decision source) between after) :
    workspace.Sound
      ⟨after, { cache with records := compiler.recordsAfter input cache decision source }⟩ := by
  rw [Cache.Saves, sound.path_eq] at saves
  have place (path : Path) : after.place path = files.place path := by
    rw [saves.place_eq, writes.place_eq]
  have apart (other : Path) :
      between.place workspace.database ≠ between.place (workspace.output other) := by
    rw [writes.place_eq, writes.place_eq]
    exact sound.database_apart other
  have trusts : workspace.Trusts after (compiler.recordsAfter input cache decision source) := by
    intro key recorded found
    rw [Compiler.recordsAfter, SortedMap.get?_insert, key_eq allowed] at found
    split at found
    next same =>
      cases found
      exact ⟨input, same,
        vouches_of_record spelled allowed (sound.database_apart input) evaluated built writes saves⟩
    next differs =>
      obtain ⟨other, rfl, vouches⟩ := sound.records key recorded found
      have kept : workspace.output other ≠ workspace.output input := by
        intro same
        exact differs (by rw [same])
      exact ⟨other, rfl, (vouches.write writes (.inr kept)).save saves (apart other)⟩
  refine ⟨?_, sound.path_eq, trusts, ?_⟩
  · intro other
    rw [place, place]
    exact sound.database_apart other
  · rintro database ⟨content, file, decoded, -⟩ key recorded found
    rw [saves.place_eq, saves.written rfl] at file
    cases file
    exact trusts key recorded (Database.get?_of_decode? trusts.recordFits decoded found)

/-- Compiling leaves a session sound, however it ends. -/
theorem Sound.compile (sound : workspace.Sound ⟨files, cache⟩)
    (allowed : workspace.Allows ⟨files, cache⟩ compiler input)
    (stores : Stores ⟨files, cache⟩ compiler input) {result : Except CompileError Outcome}
    {cacheAfter : Cache}
    (ran : (compiler.compile input cache).run files = ((result, cacheAfter), after)) :
    workspace.Sound ⟨after, cacheAfter⟩ := by
  have ends := (Compiler.leaves_compile compiler input cache files).holds
  rw [ran] at ends
  have goes := outputPath_eq allowed.outputDirectory_eq input
  cases ends with
  | early stopped ends =>
      cases ends with
      | upToDate => exact sound
      | failed => exact sound
      | notWritten built writes =>
          rw [goes] at writes
          obtain ⟨text, -, compiled⟩ := bind_eq_ok_iff.mp built.build_eq
          obtain ⟨buffer, -, opened⟩ := Compiler.artifact_eq_ok compiled
          exact sound.notWritten writes opened
  | @recorded decision source artifact between _ _ reached ends recorded =>
      rw [Compiler.compile_eq, run_bind, reached] at ran
      have isStored := stores decision source artifact between reached
      rw [ran] at isStored
      cases ends with
      | written evaluated built writes =>
          rw [goes] at writes
          cases recorded with
          | notStored => cases isStored
          | stored saves => exact sound.recorded spelled allowed evaluated built writes saves

/-- Every step of a run leaves a session sound. -/
theorem Sound.step (sound : workspace.Sound session) {next : Session}
    (step : workspace.Step session next) : workspace.Sound next := by
  cases step with
  | edit edits => exact sound.edit edits
  | reopen loaded => exact sound.reopen loaded
  | compile allowed stores ran => exact sound.compile spelled allowed stores ran

/-- Every session that a run leads to is sound. -/
theorem Sound.of_reachable (reachable : workspace.Reachable session) : workspace.Sound session := by
  induction reachable with
  | start starts => exact .of_starts starts
  | step _ step sound => exact sound.step spelled step

end Spelled

/-- Compiling answers that an artifact is up to date only if the gate found it so, and then
nothing has changed. -/
theorem evaluates_of_upToDate {output : Path} {cacheAfter : Cache}
    (ran : (compiler.compile input cache).run files = ((.ok (.upToDate output), cacheAfter), after)) :
    output = compiler.outputPath input ∧ cacheAfter = cache ∧ after = files ∧
      ∃ decision, cache.Evaluates (compiler.request input) files decision ∧
        decision.verdict = .upToDate := by
  have ends := (Compiler.leaves_compile compiler input cache files).holds
  rw [ran] at ends
  cases ends with
  | early stopped ends =>
      cases ends with
      | upToDate evaluated verdict => exact ⟨rfl, rfl, rfl, _, evaluated, verdict⟩
  | recorded reached ends recorded => cases recorded

/-- The record of an input's artifact vouches for it. -/
theorem Sound.vouches (sound : workspace.Sound session)
    (allowed : workspace.Allows session compiler input) {recorded : List RecordedInput}
    (record : session.cache.inputs? (compiler.request input).key = some recorded) :
    workspace.Vouches session.files (workspace.output input) recorded := by
  obtain ⟨other, key, vouches⟩ := sound.records _ recorded record
  rw [key_eq allowed, ArtifactKey.mk.injEq] at key
  rw [output_eq_of_portable key]
  exact vouches

/-- What the gate lets through is there, and holds what its source compiles to if it is a file. -/
theorem Sound.holds_of_upToDate (sound : workspace.Sound session)
    (distinct : Set.InjOn Fingerprint.ofContent workspace.contents)
    (allowed : workspace.Allows session compiler input) {decision : BuildDecision}
    (evaluated : session.cache.Evaluates (compiler.request input) session.files decision)
    (verdict : decision.verdict = .upToDate)
    (noDirectory : session.files.entry? (session.files.place (workspace.output input)) ≠ some .directory) :
    ∃ artifact source catalog,
      session.files.find (workspace.output input) =
        .ok (session.files.place (workspace.output input), .file artifact) ∧
      session.files.read input = .ok source ∧
      Catalog.ofContent? workspace.catalog catalog = some compiler.catalog ∧
      workspace.Holds artifact source catalog := by
  obtain ⟨shown, catalog, weighs⟩ := exists_weighs allowed evaluated
  have agrees := Verdict.judge_eq_upToDate_iff.mp (weighs.verdict_eq.symm.trans verdict)
  obtain ⟨source, read⟩ : ∃ source, session.files.read input = .ok source := by
    rcases weighs.shows.2 with ⟨-, missing⟩ | ⟨source, read, -⟩
    · have present := agrees.isPresent shown List.mem_cons_self
      rw [missing] at present
      cases present
    · exact ⟨source, read⟩
  cases record : session.cache.inputs? (compiler.request input).key with
  | none =>
      rw [record] at agrees
      exact absurd rfl agrees.isRecorded
  | some recorded =>
      rw [record, Option.getD_some, weighs.shown_eq read] at agrees
      have vouches := sound.vouches allowed record
      obtain ⟨target, path, formerSource, formerCatalog, names, holds⟩ := vouches.built
      obtain ⟨rfl, rfl⟩ := names.eq_of_agrees distinct agrees
        (allowed.contents input (by simp) source read)
        (allowed.contents workspace.catalog (by simp) catalog weighs.read_eq)
      obtain ⟨artifact, found, file⟩ := exists_artifact agrees.outputExists noDirectory
      exact ⟨artifact, source, catalog, found, read, weighs.listed, holds artifact file⟩

/-- After any run, whenever compiling an input answers that its artifact is up to date and no
directory has come to stand there, the artifact is a file, and it decompresses to the buffer
that the source, as it is now, compiles to with the catalog as it is now. -/
theorem upToDate_sound {output : Path} {cacheAfter : Cache}
    (distinct : Set.InjOn Fingerprint.ofContent workspace.contents) (spelled : workspace.Spelled)
    (reachable : workspace.Reachable session) (allowed : workspace.Allows session compiler input)
    (ran : (compiler.compile input session.cache).run session.files =
      ((.ok (.upToDate output), cacheAfter), after)) :
    output = compiler.outputPath input ∧ after = session.files ∧
      (after.entry? (after.place output) ≠ some .directory →
        ∃ artifact source text buffer,
          after.find output = .ok (after.place output, .file artifact) ∧
          after.read input = .ok source ∧ Text.ofUtf8 source = .ok text ∧
          compiler.buffer text = .ok buffer ∧ Artifact.decode artifact = .ok buffer) := by
  obtain ⟨rfl, -, rfl, decision, evaluated, verdict⟩ := evaluates_of_upToDate ran
  have sound := Sound.of_reachable spelled reachable
  refine ⟨rfl, rfl, fun noDirectory => ?_⟩
  rw [outputPath_eq allowed.outputDirectory_eq] at noDirectory ⊢
  obtain ⟨artifact, source, catalog, found, read, listed, ⟨text, known, buffer, decoded, same, compiles,
    opened⟩⟩ := sound.holds_of_upToDate distinct allowed evaluated verdict noDirectory
  rw [listed] at same
  exact ⟨artifact, source, text, buffer, found, read, decoded,
    compiles compiler (Option.some.inj same), opened⟩

/-- A run goes on where an artifact has been written and the database can be: with a record of
what source and catalog are. -/
theorem Reachable.exists_recorded (reachable : workspace.Reachable session)
    (allowed : workspace.Allows session compiler input)
    (hasDatabase : session.cache.path = some workspace.database) {source catalog artifact : Bytes}
    {between : FileSystem} {saved : Bytes → FileSystem}
    (judged : ((compiler.judge input session.cache).run.run session.files).1.isOk)
    (built : compiler.Builds input session.files source artifact)
    (readCatalog : session.files.read workspace.catalog = .ok catalog)
    (written : (writeAtomically (compiler.outputPath input) artifact).run session.files =
      (.ok (), between))
    (saves : ∀ data, (writeAtomically workspace.database data).run between = (.ok (), saved data)) :
    ∃ data cache, workspace.Reachable ⟨saved data, cache⟩ ∧
      cache.inputs? (compiler.request input).key = some
        [⟨compiler.config.target, input.portable, .ofContent source, Artifact.version⟩,
          ⟨compiler.config.target, workspace.catalog.portable, .ofContent catalog, Artifact.version⟩] := by
  obtain ⟨decision, reached⟩ := Compiler.phases_reach judged built written
  have recorded := @Compiler.record_eq_ok compiler input session.cache between decision source artifact
    workspace.database _ hasDatabase (saves _)
  have stores : Stores session compiler input := by
    intro _ _ _ _ again
    cases reached.symm.trans again
    rw [recorded]
    rfl
  have ran := congrArg (fun program => program.run session.files) (compiler.compile_eq input session.cache)
  rw [run_bind, reached] at ran
  have ends := (compiler.leaves_phases input session.cache session.files).holds
  rw [reached] at ends
  cases ends with
  | written evaluated =>
      obtain ⟨shown, content, weighs⟩ := exists_weighs allowed evaluated
      obtain rfl := Except.ok.inj (readCatalog.symm.trans weighs.read_eq)
      exact ⟨_, _, .step reachable (.compile allowed stores (ran.trans recorded)),
        (SortedMap.get?_insert_self _ _ _).trans (congrArg some (weighs.recorded_eq built.read_eq))⟩

/-- A text that is a scene as well as a catalog. -/
def sampleContent : Bytes := Text.utf8 "\x7b\"Nodes\":[\x7b\x7d],\"Assets\":\x7b\x7d\x7d"

/-- A source and a catalog with the same content. -/
def sampleFiles : FileSystem :=
  let entries := SortedMap.empty.insert [Text.utf8 "a.json"] (.file sampleContent)
  ⟨entries.insert [Text.utf8 "catalog.json"] (.file sampleContent), [], "1", fun _ _ => false⟩

/-- The files with an artifact and a database. -/
def sampleFilesWith (artifact : Bytes) (database : Option Bytes) : FileSystem :=
  let entries := sampleFiles.entries.insert [Text.utf8 "a.scene"] (.file artifact)
  match database with
  | none => { sampleFiles with entries }
  | some data => { sampleFiles with entries := entries.insert [Text.utf8 "cache.bin"] (.file data) }

/-- Where they are compiled. -/
def sample : Workspace :=
  ⟨.ofText "", .ofText "catalog.json", .ofText "cache.bin", {.ofText "a.json"}, {sampleContent}⟩

/-- How they are compiled. -/
def sampleCompiler : Compiler :=
  ⟨⟨"Vulkan", .ofText "", none, none, 0, false⟩, { Catalog.empty with source := some (.ofText "catalog.json") },
    .standard⟩

theorem spelled_sample : sample.Spelled := by
  rintro source rfl same
  exact absurd same (by decide +kernel)

/-- Names with another last byte are not those of artifacts. -/
theorem artifactName_ne {name : Bytes} (ends : name.getLast? ≠ some 0x65) (input : Path) :
    Compiler.artifactName input ≠ name := by
  rintro rfl
  have scene : (Text.utf8 ".scene").getLast? = some 0x65 := by decide
  rw [Compiler.artifactName_eq, List.getLast?_append, scene] at ends
  exact ends rfl

/-- A database in the directory where the process works is no artifact. -/
theorem database_apart_sample (session : Session) (root : session.files.workingDirectory = [])
    (database : workspace.database = .ofText "cache.bin") (input : Path) :
    session.files.place workspace.database ≠ session.files.place (workspace.output input) := by
  have place : session.files.place (.ofText "cache.bin") = [] ++ [Text.utf8 "cache.bin"] := by
    rw [FileSystem.place, root]
    decide
  intro same
  rw [database, place, place_output] at same
  exact artifactName_ne (by decide) input (List.singleton_inj.mp (List.append_inj' same rfl).2).symm

theorem starts_sample : sample.Starts ⟨sampleFiles, ⟨some (.ofText "cache.bin"), SortedMap.empty⟩⟩ where
  database_apart := database_apart_sample _ rfl rfl
  path_eq := rfl
  records_eq := rfl
  unrecorded := by
    rintro database ⟨content, file, -⟩
    have nothing : sampleFiles.fileAt? (sampleFiles.place (.ofText "cache.bin")) = none := by decide +kernel
    cases nothing.symm.trans file

theorem allows_sample {session : Session}
    (read : session.files.read (.ofText "a.json") = .ok sampleContent)
    (readCatalog : session.files.read (.ofText "catalog.json") = .ok sampleContent) :
    sample.Allows session sampleCompiler (.ofText "a.json") where
  outputDirectory_eq := rfl
  catalog_eq := by
    change ((Catalog.load (.ofText "catalog.json")).run session.files).1 = _
    rw [Catalog.load, run_bind, run_ask, FileRequest.run, readCatalog]
    dsimp only
    rw [sampleContent, Text.ofUtf8_utf8]
    rfl
  fits := by
    unfold Database.TextFits
    decide +kernel
  source_mem := rfl
  contents path member content found := by
    rcases List.mem_pair.mp member with rfl | rfl
    · exact (Except.ok.inj (read.symm.trans found)).symm
    · exact (Except.ok.inj (readCatalog.symm.trans found)).symm

/-- A database in the directory where the process works is written if its temporary file takes
its place. -/
theorem save_of_replaced {between : FileSystem} {data : Bytes} (process : files.process = "1")
    (replaced : (replace (.ofText ".cache.bin.1.tmp") (.ofText "cache.bin") data).run.run files =
      (.ok (), between)) :
    (writeAtomically (.ofText "cache.bin") data).run files = (.ok (), between) := by
  refine run_writeAtomically (ready_of_parent (by decide)) ?_ replaced
  rw [process]
  rfl

theorem save_sample (artifact data : Bytes) :
    (writeAtomically (.ofText "cache.bin") data).run (sampleFilesWith artifact none) =
      (.ok (), sampleFilesWith artifact (some data)) :=
  save_of_replaced rfl (by rfl)

/-- The sample compiles, and its artifact can be written. -/
theorem exists_written_sample :
    ∃ artifact, sampleCompiler.Builds (.ofText "a.json") sampleFiles sampleContent artifact ∧
      (writeAtomically (sampleCompiler.outputPath (.ofText "a.json")) artifact).run sampleFiles =
        (.ok (), sampleFilesWith artifact none) := by
  have read : sampleFiles.read (.ofText "a.json") = .ok sampleContent := by rfl
  rw [sampleContent] at read
  obtain ⟨artifact, built⟩ :
      ∃ artifact, sampleCompiler.Builds (.ofText "a.json") sampleFiles sampleContent artifact :=
    Compiler.exists_builds rfl read (by decide +kernel)
  have goes : sampleCompiler.outputPath (.ofText "a.json") = .ofText "a.scene" := by rfl
  rw [goes]
  exact ⟨artifact, built, rfl⟩

theorem judge_sample : ((sampleCompiler.judge (.ofText "a.json")
    ⟨some (.ofText "cache.bin"), SortedMap.empty⟩).run.run sampleFiles).1.isOk := by
  decide +kernel

/-- The sample has been compiled: its artifact and its record stand beside it. -/
theorem exists_recorded_sample :
    ∃ artifact data cache, sample.Reachable ⟨sampleFilesWith artifact (some data), cache⟩ ∧
      cache.inputs? (sampleCompiler.request (.ofText "a.json")).key = some
        [⟨"Vulkan", "a.json", .ofContent sampleContent, Artifact.version⟩,
          ⟨"Vulkan", "catalog.json", .ofContent sampleContent, Artifact.version⟩] := by
  obtain ⟨artifact, built, written⟩ := exists_written_sample
  obtain ⟨data, cache, recorded⟩ := (Reachable.start starts_sample).exists_recorded
    (allows_sample (by rfl) (by rfl)) rfl judge_sample built (by rfl) written (save_sample artifact)
  exact ⟨artifact, data, cache, recorded⟩

/-- Where nothing changes, compiling a second time answers that the artifact is up to date. -/
theorem exists_upToDate_sample :
    ∃ session, sample.Reachable session ∧ sample.Allows session sampleCompiler (.ofText "a.json") ∧
      (sampleCompiler.compile (.ofText "a.json") session.cache).run session.files =
        ((.ok (.upToDate (sampleCompiler.outputPath (.ofText "a.json"))), session.cache), session.files) ∧
      session.files.entry? (session.files.place (.ofText "a.scene")) ≠ some .directory := by
  obtain ⟨artifact, data, cache, reachable, record⟩ := exists_recorded_sample
  have allowed : sample.Allows ⟨sampleFilesWith artifact (some data), cache⟩ sampleCompiler
      (.ofText "a.json") :=
    allows_sample (by rfl) (by rfl)
  refine ⟨_, reachable, allowed,
    compile_of_agrees allowed (by rfl) (by rfl) record (agrees_recorded _ _ _ _ _) (by rfl) rfl, ?_⟩
  change some (Entry.file artifact) ≠ some .directory
  exact nofun

/-- Compiling the sample a second time, the artifact that is up to date is what the source
compiles to. -/
theorem upToDate_sound_again :
    ∃ session, sample.Reachable session ∧
      (sampleCompiler.compile (.ofText "a.json") session.cache).run session.files =
        ((.ok (.upToDate (.ofText "a.scene")), session.cache), session.files) ∧
      ∃ artifact source text buffer,
        session.files.find (.ofText "a.scene") =
          .ok (session.files.place (.ofText "a.scene"), .file artifact) ∧
        session.files.read (.ofText "a.json") = .ok source ∧ Text.ofUtf8 source = .ok text ∧
        sampleCompiler.buffer text = .ok buffer ∧ Artifact.decode artifact = .ok buffer := by
  obtain ⟨session, reachable, allowed, ran, noDirectory⟩ := exists_upToDate_sample
  have goes : sampleCompiler.outputPath (.ofText "a.json") = .ofText "a.scene" := by rfl
  rw [goes] at ran
  exact ⟨session, reachable, ran,
    (upToDate_sound (Set.injOn_singleton _ _) spelled_sample reachable allowed ran).2.2 noDirectory⟩

/-- Whether the gate, after a run in which different contents have different fingerprints, lets
an input through although what stands at its artifact's place is not the artifact of the source
as it is now. -/
def LetsPass (workspace : Workspace) (session : Session) (compiler : Compiler) (input : Path) : Prop :=
  Set.InjOn Fingerprint.ofContent workspace.contents ∧ workspace.Reachable session ∧
    workspace.Allows session compiler input ∧ ∃ output,
      (compiler.compile input session.cache).run session.files =
          ((.ok (.upToDate output), session.cache), session.files) ∧
        ¬∃ artifact source text buffer,
          session.files.find output = .ok (session.files.place output, .file artifact) ∧
          session.files.read input = .ok source ∧ Text.ofUtf8 source = .ok text ∧
          compiler.buffer text = .ok buffer ∧ Artifact.decode artifact = .ok buffer

/-- The files of the sample with their database, and with a source in a directory that has the
name of the artifact. -/
def sampleDirectory (data : Bytes) : FileSystem :=
  let entries := sampleFiles.entries.insert [Text.utf8 "cache.bin"] (.file data)
  let entries := entries.insert [Text.utf8 "a.scene"] .directory
  { sampleFiles with
    entries := entries.insert [Text.utf8 "a.scene", Text.utf8 "x.json"] (.file sampleContent) }

theorem edits_sample (artifact data : Bytes) :
    sample.Edits (sampleFilesWith artifact (some data)) (sampleDirectory data) where
  workingDirectory_eq := rfl
  database := .inl rfl
  output input := by
    rw [place_output]
    change fileAt? _ [Compiler.artifactName input] = fileAt? _ [Compiler.artifactName input] ∨
      fileAt? _ [Compiler.artifactName input] = none
    by_cases named : Compiler.artifactName input = Text.utf8 "a.scene"
    · rw [named]
      exact .inr rfl
    · left
      simp [fileAt?, entry?, sampleFilesWith, sampleDirectory, SortedMap.get?_insert, named]

/-- A directory in the place of an artifact is let through. -/
theorem letsPass_directory :
    ∃ session, sample.Spelled ∧ sample.LetsPass session sampleCompiler (.ofText "a.json") := by
  obtain ⟨artifact, data, cache, reachable, record⟩ := exists_recorded_sample
  have allowed : sample.Allows ⟨sampleDirectory data, cache⟩ sampleCompiler (.ofText "a.json") :=
    allows_sample (by rfl) (by rfl)
  refine ⟨⟨sampleDirectory data, cache⟩, spelled_sample, Set.injOn_singleton _ _,
    .step reachable (.edit (edits_sample artifact data)), allowed, _,
    compile_of_agrees allowed (by rfl) (by rfl) record (agrees_recorded _ _ _ _ _) (by rfl) rfl, ?_⟩
  rintro ⟨_, _, _, _, found, -⟩
  have directory : (sampleDirectory data).find (sampleCompiler.outputPath (.ofText "a.json")) =
      .ok ([Text.utf8 "a.scene"], .directory) := by rfl
  cases directory.symm.trans found

/-- A source and a catalog whose names are no texts, and are shown alike. -/
def alikeSource : Path := ⟨0xff :: Text.utf8 ".json"⟩

def alikeCatalog : Path := ⟨0xfe :: Text.utf8 ".json"⟩

/-- The scene of the sample with one more node. -/
def longerContent : Bytes := Text.utf8 "\x7b\"Nodes\":[\x7b\x7d,\x7b\x7d],\"Assets\":\x7b\x7d\x7d"

def alikeFiles (source catalog : Bytes) : FileSystem :=
  let entries := SortedMap.empty.insert [alikeSource.bytes] (.file source)
  ⟨entries.insert [alikeCatalog.bytes] (.file catalog), [], "1", fun _ _ => false⟩

/-- The files with an artifact and a database. -/
def alikeFilesWith (source catalog artifact : Bytes) (database : Option Bytes) : FileSystem :=
  let files := alikeFiles source catalog
  let entries := files.entries.insert [Text.utf8 "\uFFFD.scene"] (.file artifact)
  match database with
  | none => { files with entries }
  | some data => { files with entries := entries.insert [Text.utf8 "cache.bin"] (.file data) }

def alike : Workspace :=
  ⟨.ofText "", alikeCatalog, .ofText "cache.bin", {alikeSource}, {sampleContent, longerContent}⟩

def alikeCompiler : Compiler :=
  ⟨⟨"Vulkan", .ofText "", none, none, 0, false⟩, { Catalog.empty with source := some alikeCatalog },
    .standard⟩

theorem distinct_alike : Set.InjOn Fingerprint.ofContent alike.contents :=
  Set.injOn_pair.mpr fun same => absurd same (by decide +kernel)

theorem allows_alike {session : Session} {source catalog : String}
    (read : session.files.read alikeSource = .ok (Text.utf8 source))
    (readCatalog : session.files.read alikeCatalog = .ok (Text.utf8 catalog))
    (listed : Catalog.read catalog = .ok .empty)
    (known : ∀ content ∈ [Text.utf8 source, Text.utf8 catalog], content ∈ alike.contents) :
    alike.Allows session alikeCompiler alikeSource where
  outputDirectory_eq := rfl
  catalog_eq := by
    change ((Catalog.load alikeCatalog).run session.files).1 = _
    rw [Catalog.load, run_bind, run_ask, FileRequest.run, readCatalog]
    dsimp only
    rw [Text.ofUtf8_utf8]
    dsimp only
    rw [listed]
    rfl
  fits := by
    unfold Database.TextFits
    decide +kernel
  source_mem := rfl
  contents path member content found := by
    rcases List.mem_pair.mp member with rfl | rfl
    · exact Except.ok.inj (read.symm.trans found) ▸ known _ List.mem_cons_self
    · exact Except.ok.inj (readCatalog.symm.trans found) ▸ known _ (List.mem_cons_of_mem _ List.mem_cons_self)

theorem starts_alike : alike.Starts
    ⟨alikeFiles sampleContent longerContent, ⟨some (.ofText "cache.bin"), SortedMap.empty⟩⟩ where
  database_apart := database_apart_sample _ rfl rfl
  path_eq := rfl
  records_eq := rfl
  unrecorded := by
    rintro database ⟨content, file, -⟩
    cases file

theorem save_alike (source catalog artifact data : Bytes) :
    (writeAtomically (.ofText "cache.bin") data).run (alikeFilesWith source catalog artifact none) =
      (.ok (), alikeFilesWith source catalog artifact (some data)) :=
  save_of_replaced rfl (by rfl)

/-- The source has been compiled: its artifact stands beside it, with a record of the contents
of both files under the same path. -/
theorem exists_recorded_alike :
    ∃ artifact buffer data cache,
      alikeCompiler.buffer "\x7b\"Nodes\":[\x7b\x7d],\"Assets\":\x7b\x7d\x7d" = .ok buffer ∧
      Artifact.decode artifact = .ok buffer ∧
      alike.Reachable ⟨alikeFilesWith sampleContent longerContent artifact (some data), cache⟩ ∧
      cache.inputs? (alikeCompiler.request alikeSource).key = some
        [⟨"Vulkan", alikeSource.portable, .ofContent sampleContent, Artifact.version⟩,
          ⟨"Vulkan", alikeCatalog.portable, .ofContent longerContent, Artifact.version⟩] := by
  let cache : Cache := ⟨some (.ofText "cache.bin"), SortedMap.empty⟩
  have allowed : alike.Allows ⟨alikeFiles sampleContent longerContent, cache⟩ alikeCompiler alikeSource :=
    allows_alike (by rfl) (by rfl) (by rfl) (by simp [alike, sampleContent, longerContent])
  obtain ⟨artifact, built⟩ : ∃ artifact, alikeCompiler.Builds alikeSource
      (alikeFiles sampleContent longerContent) sampleContent artifact :=
    Compiler.exists_builds rfl (by rfl) (by decide +kernel)
  have written : (writeAtomically (alikeCompiler.outputPath alikeSource) artifact).run
      (alikeFiles sampleContent longerContent) =
        (.ok (), alikeFilesWith sampleContent longerContent artifact none) := by
    have goes : alikeCompiler.outputPath alikeSource = .ofText "\uFFFD.scene" := by rfl
    rw [goes]
    rfl
  obtain ⟨buffer, buffered, opened⟩ :=
    Compiler.artifact_eq_ok ((alikeCompiler.build_utf8 _).symm.trans built.build_eq)
  obtain ⟨data, now, recorded⟩ := (Reachable.start starts_alike).exists_recorded allowed rfl
    (by decide +kernel) built (by rfl) written (save_alike _ _ artifact)
  exact ⟨artifact, buffer, data, now, buffered, opened, recorded⟩

/-- Source and catalog may exchange their contents. -/
theorem edits_alike (source catalog artifact data : Bytes) :
    alike.Edits (alikeFilesWith source catalog artifact (some data))
      (alikeFilesWith catalog source artifact (some data)) where
  workingDirectory_eq := rfl
  database := .inl rfl
  output input := by
    rw [place_output]
    change fileAt? _ [Compiler.artifactName input] = fileAt? _ [Compiler.artifactName input] ∨ _
    have noSource : Compiler.artifactName input ≠ alikeSource.bytes := artifactName_ne (by decide) input
    have noCatalog : Compiler.artifactName input ≠ alikeCatalog.bytes := artifactName_ne (by decide) input
    left
    simp [fileAt?, entry?, alikeFilesWith, alikeFiles, SortedMap.get?_insert, noSource, noCatalog]

/-- The artifact is let through when source and catalog have exchanged their contents. -/
theorem letsPass_exchanged :
    ∃ session, session.files.entry? (session.files.place (alikeCompiler.outputPath alikeSource)) ≠
        some .directory ∧
      alike.LetsPass session alikeCompiler alikeSource := by
  obtain ⟨artifact, buffer, data, cache, buffered, opened, reachable, record⟩ := exists_recorded_alike
  let session : Session := ⟨alikeFilesWith longerContent sampleContent artifact (some data), cache⟩
  have read : session.files.read alikeSource = .ok longerContent := by rfl
  have readCatalog : session.files.read alikeCatalog = .ok sampleContent := by rfl
  have stands : session.files.find (alikeCompiler.outputPath alikeSource) =
      .ok ([Text.utf8 "\uFFFD.scene"], .file artifact) := by rfl
  have shown : alikeSource.portable = alikeCatalog.portable := by decide +kernel
  have agrees : Verdict.Agrees Artifact.version "Vulkan"
      [⟨"Vulkan", alikeSource.portable, .ofContent sampleContent, Artifact.version⟩,
        ⟨"Vulkan", alikeCatalog.portable, .ofContent longerContent, Artifact.version⟩]
      [⟨alikeSource.portable, some (.ofContent longerContent)⟩,
        ⟨alikeCatalog.portable, some (.ofContent sampleContent)⟩] true := by
    constructor <;> simp [shown]
  have allowed : alike.Allows session alikeCompiler alikeSource :=
    allows_alike read readCatalog (by rfl) (by simp [alike, sampleContent, longerContent])
  refine ⟨session, ?_, distinct_alike, .step reachable (.edit (edits_alike _ _ artifact data)), allowed, _,
    compile_of_agrees allowed read readCatalog record agrees (by rfl) rfl, ?_⟩
  · obtain ⟨place, entered⟩ := FileSystem.find_eq_ok stands
    rw [← place, entered]
    exact nofun
  · rintro ⟨_, _, text, longer, found, readNow, decoded, compiles, openedNow⟩
    cases stands.symm.trans found
    obtain rfl := Except.ok.inj (opened.symm.trans openedNow)
    obtain rfl := Except.ok.inj (read.symm.trans readNow)
    rw [longerContent, Text.ofUtf8_utf8] at decoded
    cases decoded
    have lengths : (alikeCompiler.buffer
          "\x7b\"Nodes\":[\x7b\x7d],\"Assets\":\x7b\x7d\x7d").toOption.map (·.length) ≠
        (alikeCompiler.buffer
          "\x7b\"Nodes\":[\x7b\x7d,\x7b\x7d],\"Assets\":\x7b\x7d\x7d").toOption.map (·.length) := by
      decide +kernel
    rw [buffered, compiles] at lengths
    exact lengths rfl

/-- Either way the gate is not sound without a further condition: a directory in the place of an
artifact is let through, and so is the artifact of contents that the source no longer has, where
the source is recorded as the catalog is. -/
theorem upToDate_unsound :
    (∃ session, sample.Spelled ∧ sample.LetsPass session sampleCompiler (.ofText "a.json")) ∧
    ∃ session, session.files.entry? (session.files.place (alikeCompiler.outputPath alikeSource)) ≠
        some .directory ∧
      alike.LetsPass session alikeCompiler alikeSource :=
  ⟨letsPass_directory, letsPass_exchanged⟩

end Workspace

end SceneForge
