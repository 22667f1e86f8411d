import SceneForge.Proofs.Compile.Records

/-!
# What is recorded

A compilation fingerprints its inputs, reads its source, writes the artifact, and records
the inputs, and files may change in between. The record of the source is put right
afterwards, so that it is that of the bytes which were compiled. The record of the catalog
is not: it is that of the bytes which the gate found, whatever the catalog was loaded from.
-/

namespace SceneForge

open Program

namespace Compiler

/-- The record of an input with some content. -/
def entry (compiler : Compiler) (path : Path) (content : Bytes) : RecordedInput :=
  ⟨compiler.config.target, path.portable, .ofContent content, Artifact.version⟩

/-- Whether a source has been compiled and recorded, its inputs having been judged in some
file system. It may have been read in another, and recorded in a third, where others may have
recorded artifacts as well. -/
inductive Recorded (compiler : Compiler) (input : Path) (judging : FileSystem) (source : Bytes) :
    Cache → Prop where
  | intro {cache between after : Cache} {parsing recording : FileSystem} {decision : BuildDecision}
      {artifact : Bytes} {outcome : Outcome} :
      ((compiler.judge input cache).run.run judging).1 = .ok decision →
        ((compiler.buildInput input).run.run parsing).1 = .ok (source, artifact) →
          ((compiler.record input decision source artifact between).run recording).1 =
              (.ok outcome, after) →
            Recorded compiler input judging source after

/-- What becomes of a cache while other artifacts are recorded, or fail to be. -/
inductive RecordsOthers (key : ArtifactKey) (cache : Cache) : Cache → Prop where
  | none : RecordsOthers key cache cache
  | record {compiler : Compiler} {input : Path} {between after : Cache} {files : FileSystem}
      {decision : BuildDecision} {source artifact : Bytes} {result : Except CompileError Outcome} :
      RecordsOthers key cache between → (compiler.request input).key ≠ key →
        ((compiler.record input decision source artifact between).run files).1 = (result, after) →
          RecordsOthers key cache after

/-- Whether a file has the fingerprint of some content. -/
def StandsAs (files : FileSystem) (path : Path) (content : Bytes) : Prop :=
  ∃ now, files.read path = .ok now ∧ Fingerprint.ofContent now = .ofContent content

variable {compiler : Compiler} {input path : Path} {cache after : Cache}
  {files judging loading : FileSystem} {decision : BuildDecision} {source artifact : Bytes}

/-- Where all phases up to the record succeed, each of them does. -/
theorem judge_and_build_of_phases {between : FileSystem}
    (reached : (compiler.phases input cache).run.run files = (.ok (decision, source, artifact), between)) :
    ((compiler.judge input cache).run.run files).1 = .ok decision ∧
      ((compiler.buildInput input).run.run files).1 = .ok (source, artifact) := by
  have judges : (compiler.judge input cache).run.Leaves files fun answer after =>
      after = files ∧ ((compiler.judge input cache).run.run files).1 = answer :=
    ⟨(leaves_judge compiler input cache files).holds.1, rfl⟩
  have builds : (compiler.buildInput input).run.Leaves files fun answer _ =>
      ((compiler.buildInput input).run.run files).1 = answer :=
    ⟨rfl⟩
  have phases : (compiler.phases input cache).run.Leaves files fun answer _ =>
      answer = .ok (decision, source, artifact) →
        ((compiler.judge input cache).run.run files).1 = .ok decision ∧
          ((compiler.buildInput input).run.run files).1 = .ok (source, artifact) := by
    rw [Compiler.phases]
    apply leaves_bind_of_failing.mpr
    apply judges.mono
    rintro verdict _ ⟨rfl, judged⟩
    cases verdict with
    | error result => intro wrong; cases wrong
    | ok decision =>
        apply leaves_bind_of_failing.mpr
        apply builds.mono
        intro answer _ built
        cases answer with
        | error result => intro wrong; cases wrong
        | ok value =>
            apply leaves_bind_of_failing.mpr
            apply (leaves_write compiler input _ value.2).mono
            rintro _ _ (⟨rfl, -⟩ | ⟨refusal, rfl, -⟩)
            · apply leaves_pure.mpr
              intro same
              cases same
              exact ⟨judged, built⟩
            · intro wrong
              cases wrong
  exact phases.holds (congrArg Prod.fst reached)

/-- The gate's decision is about the inputs as the file system shows them. -/
theorem evaluates_of_judge (judged : ((compiler.judge input cache).run.run files).1 = .ok decision) :
    cache.Evaluates (compiler.request input) files decision := by
  have judges := (leaves_judge compiler input cache files).holds.2
  rw [judged] at judges
  cases judges with
  | rebuild evaluates => exact evaluates

/-- What recording an artifact puts into the cache. -/
theorem records_of_record {outcome : Outcome}
    (recorded : ((compiler.record input decision source artifact cache).run files).1 = (.ok outcome, after)) :
    after.records = compiler.recordsAfter input cache decision source := by
  have ends := (leaves_record compiler input cache files decision source artifact).holds
  rw [recorded] at ends
  cases ends with
  | stored => rfl

/-- Others leave the record of an artifact alone. -/
theorem RecordsOthers.inputs?_eq {key : ArtifactKey} (others : RecordsOthers key cache after) :
    after.inputs? key = cache.inputs? key := by
  induction others with
  | none => rfl
  | @record compiler input between after files decision source artifact result _ other recorded ih =>
      have ends := (leaves_record compiler input between files decision source artifact).holds
      rw [recorded] at ends
      cases ends with
      | notStored => exact ih
      | stored => exact (SortedMap.get?_insert_of_ne _ _ other.symm).trans ih

/-- The record that the gate would make of an input. -/
theorem recorded?_of_shows {shown : CurrentInput} (shows : Cache.Shows files path shown) :
    Cache.recorded? (compiler.request input) shown =
      (files.read path).toOption.map (compiler.entry path) := by
  obtain ⟨named, ⟨missing, unknown⟩ | ⟨content, found, known⟩⟩ := shows
  · rw [Cache.recorded?, unknown, missing]
    rfl
  · rw [Cache.recorded?, known, found, named]
    rfl

/-- An input is shown with the fingerprint of a content exactly if it stands so. -/
theorem fingerprint_eq_iff {shown : CurrentInput} (shows : Cache.Shows files path shown)
    {content : Bytes} : shown.fingerprint = some (.ofContent content) ↔ StandsAs files path content := by
  obtain ⟨-, ⟨missing, unknown⟩ | ⟨now, found, known⟩⟩ := shows
  · rw [unknown, StandsAs, missing]
    constructor
    · intro wrong
      cases wrong
    · rintro ⟨now, wrong, -⟩
      cases wrong
  · rw [known, StandsAs, found, Option.some.injEq]
    constructor
    · intro same
      exact ⟨now, rfl, same⟩
    · rintro ⟨other, same, fingerprint⟩
      cases same
      exact fingerprint

section Catalog

variable (depends : compiler.catalog.dependencies = [path])
include depends

/-- With a catalog from a file, the gate sees the source and this file. -/
theorem exists_shown (evaluates : cache.Evaluates (compiler.request input) files decision) :
    ∃ first second, Cache.Shows files input first ∧ Cache.Shows files path second ∧
      decision.inputs = [first, second].filterMap (Cache.recorded? (compiler.request input)) ∧
      decision.verdict = .judge Artifact.version compiler.config.target
        ((cache.inputs? (compiler.request input).key).getD []) [first, second]
        (files.pathExists (compiler.outputPath input)) := by
  obtain ⟨current, shown, verdict, inputs⟩ := evaluates
  rw [inputs_request, depends] at shown
  rw [version_request, target_request, output_request] at verdict
  obtain ⟨first, _, shows, others, rfl⟩ := List.forall₂_cons_left_iff.mp shown
  obtain ⟨second, _, showsCatalog, more, rfl⟩ := List.forall₂_cons_left_iff.mp others
  obtain rfl := List.forall₂_nil_left_iff.mp more
  exact ⟨first, second, shows, showsCatalog, inputs, verdict⟩

/-- What is recorded: the bytes that were compiled, and the catalog as the gate found it. -/
theorem Recorded.inputs?_eq (spelled : path.portable = input.portable → path = input)
    (compiled : compiler.Recorded input judging source cache) :
    cache.inputs? (compiler.request input).key =
      some (compiler.entry input source ::
        ((judging.read path).toOption.map (compiler.entry path)).toList) := by
  obtain ⟨judged, -, recorded⟩ := compiled
  obtain ⟨first, second, shows, showsCatalog, inputs, -⟩ :=
    exists_shown depends (evaluates_of_judge judged)
  rw [Cache.inputs?, records_of_record recorded, recordsAfter, SortedMap.get?_insert_self, inputs,
    Option.some.injEq]
  simp only [List.filterMap_cons, recorded?_of_shows shows, recorded?_of_shows showsCatalog,
    List.filterMap_nil]
  cases found : judging.read input with
  | ok content =>
      cases judging.read path with
      | ok known => simp [recordedInputs, entry, Except.toOption, List.findIdx?_cons]
      | error error => simp [recordedInputs, entry, Except.toOption, List.findIdx?_cons]
  | error error =>
      cases foundCatalog : judging.read path with
      | ok known =>
          -- The catalog is not the source, which is missing.
          have apart : path.portable ≠ input.portable := by
            intro same
            rw [spelled same, found] at foundCatalog
            cases foundCatalog
          simp [recordedInputs, entry, Except.toOption, List.findIdx?_cons, apart]
      | error other => simp [recordedInputs, entry, Except.toOption]

/-- What the gate makes of such a record later. -/
theorem upToDate_iff (apart : path.portable ≠ input.portable) {judged : Option Bytes}
    (recorded : cache.inputs? (compiler.request input).key =
      some (compiler.entry input source :: (judged.map (compiler.entry path)).toList))
    (evaluates : cache.Evaluates (compiler.request input) files decision) :
    decision.verdict = .upToDate ↔
      files.pathExists (compiler.outputPath input) ∧ StandsAs files input source ∧
        ∃ content, judged = some content ∧ StandsAs files path content := by
  obtain ⟨first, second, shows, showsCatalog, -, verdict⟩ := exists_shown depends evaluates
  have names : first.path = input.portable := shows.1
  have namesCatalog : second.path = path.portable := showsCatalog.1
  rw [verdict, recorded, Option.getD_some, Verdict.judge_eq_upToDate_iff]
  constructor
  · intro agrees
    have unchanged := agrees.unchanged first List.mem_cons_self
    have unchangedCatalog := agrees.unchanged second (List.mem_cons_of_mem first List.mem_cons_self)
    cases judged with
    | none => cases agrees.paths_perm.length_eq
    | some content =>
        simp only [Option.map_some, Option.toList_some, List.mem_pair, exists_eq_or_imp,
          exists_eq_left] at unchanged unchangedCatalog
        refine ⟨agrees.outputExists, ?_, content, rfl, ?_⟩
        · rcases unchanged with ⟨-, same⟩ | ⟨named, -⟩
          · exact (fingerprint_eq_iff shows).mp same.symm
          · exact absurd (named.trans names) apart
        · rcases unchangedCatalog with ⟨named, -⟩ | ⟨-, same⟩
          · exact absurd (named.trans namesCatalog).symm apart
          · exact (fingerprint_eq_iff showsCatalog).mp same.symm
  · rintro ⟨stands, sourceStands, content, rfl, catalogStands⟩
    have fingerprint := (fingerprint_eq_iff shows).mpr sourceStands
    have catalogFingerprint := (fingerprint_eq_iff showsCatalog).mpr catalogStands
    rw [Option.map_some, Option.toList_some]
    constructor
    · exact List.cons_ne_nil _ _
    · simp [entry]
    · simp [entry]
    · exact stands
    · simp [fingerprint, catalogFingerprint]
    · simp [entry, names, namesCatalog]
    · simp [entry, names, namesCatalog, fingerprint, catalogFingerprint]

end Catalog

/-- The record of an artifact is that of the bytes it was compiled from, and of the catalog as
the gate found it: it is that of what the catalog was loaded from exactly if this still stood
there. Later, and whatever others record, the artifact is up to date as long as its source and
the catalog have the fingerprints that were recorded. -/
theorem compiled_is_recorded
    (loaded : ((Catalog.load path).run loading).1 = .ok compiler.catalog)
    (spelled : path.portable = input.portable → path = input)
    (compiled : compiler.Recorded input judging source cache) :
    ∃ known recorded, loading.read path = .ok known ∧
      cache.inputs? (compiler.request input).key = some recorded ∧
      recorded = compiler.entry input source ::
        ((judging.read path).toOption.map (compiler.entry path)).toList ∧
      (path ≠ input →
        ((∀ entry ∈ recorded, entry = compiler.entry input source ∨ entry = compiler.entry path known) ↔
          ∀ content, judging.read path = .ok content →
            Fingerprint.ofContent content = .ofContent known) ∧
        ∀ after files decision, RecordsOthers (compiler.request input).key cache after →
          ((after.evaluate (compiler.request input)).run files).1 = .ok decision →
            (decision.verdict = .upToDate ↔
              files.pathExists (compiler.outputPath input) ∧ StandsAs files input source ∧
                ∃ content, judging.read path = .ok content ∧ StandsAs files path content)) := by
  obtain ⟨known, read, listed⟩ := Catalog.load_eq_ok loaded
  have depends := Catalog.dependencies_of_ofContent? listed
  have recorded := compiled.inputs?_eq depends spelled
  refine ⟨known, _, read, recorded, rfl, fun differs => ?_⟩
  have apart : path.portable ≠ input.portable := fun same => differs (spelled same)
  have judged (content : Bytes) : judging.read path = .ok content ↔
      (judging.read path).toOption = some content := by
    cases judging.read path with
    | error error => simp [Except.toOption]
    | ok other => simp [Except.toOption]
  constructor
  · simp only [judged]
    cases (judging.read path).toOption with
    | none => simp
    | some content => simp [entry, apart]
  · intro after files decision others evaluated
    have evaluates := (after.leaves_evaluate (compiler.request input) files).holds.2 decision evaluated
    simp only [judged]
    exact upToDate_iff depends apart (others.inputs?_eq.trans recorded) evaluates

/-- A source of one empty node, a catalog with some content, and an artifact. -/
def catalogFiles (catalog artifact : Bytes) : FileSystem :=
  let source := Text.utf8 "\x7b\"Nodes\":[\x7b\x7d]\x7d"
  let entries := SortedMap.empty.insert [Text.utf8 "a.json"] (.file source)
  let entries := entries.insert [Text.utf8 "catalog.json"] (.file catalog)
  ⟨entries.insert [Text.utf8 "a.scene"] (.file artifact), [], "1", fun _ _ => false⟩

/-- Where the catalog is edited after it was loaded, an artifact that was compiled without the
edit is recorded with it, and stays up to date. -/
theorem compiled_is_recorded_edited :
    let known := Text.utf8 "\x7b\"Assets\":\x7b\x7d\x7d"
    let edited := Text.utf8 "\x7b\"Assets\":\x7b\"a\":\x7b\x7d\x7d\x7d"
    let source := Text.utf8 "\x7b\"Nodes\":[\x7b\x7d]\x7d"
    let catalog : Catalog := { Catalog.empty with source := some (.ofText "catalog.json") }
    let compiler : Compiler := ⟨⟨"Vulkan", .ofText "", none, none, 0, false⟩, catalog, .standard⟩
    ((Catalog.load (.ofText "catalog.json")).run (catalogFiles known [])).1 = .ok catalog ∧
      ∃ cache, compiler.Recorded (.ofText "a.json") (catalogFiles edited []) source cache ∧
        cache.inputs? (compiler.request (.ofText "a.json")).key =
          some [compiler.entry (.ofText "a.json") source, compiler.entry (.ofText "catalog.json") edited] ∧
        ∃ decision, ((cache.evaluate (compiler.request (.ofText "a.json"))).run (catalogFiles edited [])).1 =
            .ok decision ∧ decision.verdict = .upToDate := by
  intro known edited source catalog compiler
  have loaded : ((Catalog.load (.ofText "catalog.json")).run (catalogFiles known [])).1 = .ok catalog := by
    have read : (catalogFiles known []).read (.ofText "catalog.json") = .ok known := by rfl
    rw [Catalog.load, run_bind, run_ask, FileRequest.run, read]
    dsimp only [known]
    rw [Text.ofUtf8_utf8]
    rfl
  obtain ⟨artifact, compiled⟩ :
      ∃ artifact, compiler.artifact "\x7b\"Nodes\":[\x7b\x7d]\x7d" = .ok artifact :=
    exists_artifact rfl (by decide +kernel)
  have built : compiler.Builds (.ofText "a.json") (catalogFiles edited []) source artifact :=
    ⟨by rfl, (compiler.build_utf8 _).trans compiled⟩
  obtain ⟨decision, judged⟩ : ∃ decision,
      ((compiler.judge (.ofText "a.json") .inMemory).run.run (catalogFiles edited [])).1 = .ok decision := by
    have accepted : ((compiler.judge (.ofText "a.json") .inMemory).run.run (catalogFiles edited [])).1.isOk := by
      decide +kernel
    cases answer : ((compiler.judge (.ofText "a.json") .inMemory).run.run (catalogFiles edited [])).1 with
    | error result =>
        rw [answer] at accepted
        cases accepted
    | ok decision => exact ⟨decision, rfl⟩
  let cache : Cache := ⟨none, compiler.recordsAfter (.ofText "a.json") .inMemory decision source⟩
  have stored : ((compiler.record (.ofText "a.json") decision source artifact .inMemory).run
      (catalogFiles edited artifact)).1 =
        (.ok (.compiled (compiler.outputPath (.ofText "a.json")) artifact.length), cache) := by rfl
  have recorded : compiler.Recorded (.ofText "a.json") (catalogFiles edited []) source cache :=
    .intro judged built.leaves.holds.1 stored
  have spelled : (.ofText "catalog.json" : Path).portable = (.ofText "a.json" : Path).portable →
      (.ofText "catalog.json" : Path) = .ofText "a.json" := by decide
  obtain ⟨_, _, -, record, rfl, facts⟩ := compiled_is_recorded loaded spelled recorded
  have read : (catalogFiles edited []).read (.ofText "catalog.json") = .ok edited := by rfl
  have readable : ∀ path ∈ (compiler.request (.ofText "a.json")).inputs,
      ∃ content, (catalogFiles edited []).read path = .ok content := by
    intro path member
    rcases List.mem_pair.mp member with rfl | rfl
    · exact ⟨source, built.read_eq⟩
    · exact ⟨edited, read⟩
  obtain ⟨verdict, evaluated⟩ := @Cache.exists_evaluate cache _ _ readable
  have upToDate := ((facts (by decide)).2 cache _ verdict .none evaluated).mpr
    ⟨by decide +kernel, ⟨source, built.read_eq, rfl⟩, edited, read, edited, read, rfl⟩
  rw [read] at record
  exact ⟨loaded, cache, recorded, record, verdict, evaluated, upToDate⟩

end Compiler

end SceneForge
