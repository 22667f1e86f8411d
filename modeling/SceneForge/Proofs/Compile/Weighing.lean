import SceneForge.Proofs.Compile.Records

/-!
# What the gate weighs

Whether an artifact is up to date depends on the fingerprints of its source and of the
catalog. Where different contents have different fingerprints, it is up to date only if
it was built from the contents that there are now, and it is not built again if it was.
-/

namespace SceneForge

open FileSystem Program

namespace Workspace

variable {workspace : Workspace} {session : Session} {compiler : Compiler} {input : Path}

/-- The key of a record is that of the path of its artifact. -/
theorem key_eq (allowed : workspace.Allows session compiler input) :
    (compiler.request input).key = .ofPath (workspace.output input) := by
  rw [BuildRequest.key, Compiler.output_request, outputPath_eq allowed.outputDirectory_eq]

/-- What the gate decides on: the source, and the catalog as it was loaded. -/
structure Weighs (workspace : Workspace) (session : Session) (compiler : Compiler) (input : Path)
    (decision : BuildDecision) (shown : CurrentInput) (catalog : Bytes) : Prop where
  shows : Cache.Shows session.files input shown
  read_eq : session.files.read workspace.catalog = .ok catalog
  listed : Catalog.ofContent? workspace.catalog catalog = some compiler.catalog
  verdict_eq : decision.verdict = .judge Artifact.version compiler.config.target
    ((session.cache.inputs? (compiler.request input).key).getD [])
    [shown, ⟨workspace.catalog.portable, some (.ofContent catalog)⟩]
    (session.files.pathExists (workspace.output input))
  inputs_eq : decision.inputs = [shown, ⟨workspace.catalog.portable, some (.ofContent catalog)⟩].filterMap
    (Cache.recorded? (compiler.request input))

theorem exists_weighs (allowed : workspace.Allows session compiler input) {decision : BuildDecision}
    (evaluated : session.cache.Evaluates (compiler.request input) session.files decision) :
    ∃ shown catalog, workspace.Weighs session compiler input decision shown catalog := by
  obtain ⟨catalog, read, listed⟩ := Catalog.load_eq_ok allowed.catalog_eq
  obtain ⟨current, shown, verdict, inputs⟩ := evaluated
  rw [Compiler.inputs_request, Catalog.dependencies_of_ofContent? listed] at shown
  rw [Compiler.version_request, Compiler.target_request, Compiler.output_request,
    outputPath_eq allowed.outputDirectory_eq] at verdict
  obtain ⟨first, _, shows, others, rfl⟩ := List.forall₂_cons_left_iff.mp shown
  obtain ⟨_, _, second, more, rfl⟩ := List.forall₂_cons_left_iff.mp others
  obtain rfl := List.forall₂_nil_left_iff.mp more
  rw [second.eq_of_read read] at verdict inputs
  exact ⟨first, catalog, shows, read, listed, verdict, inputs⟩

/-- A source that is read is shown with its path and its fingerprint. -/
theorem Weighs.shown_eq {decision : BuildDecision} {shown : CurrentInput} {source catalog : Bytes}
    (weighs : workspace.Weighs session compiler input decision shown catalog)
    (read : session.files.read input = .ok source) :
    shown = ⟨input.portable, some (.ofContent source)⟩ :=
  weighs.shows.eq_of_read read

/-- What is recorded of a source that is read are the paths and the fingerprints of it and of
the catalog. -/
theorem Weighs.recorded_eq {decision : BuildDecision} {shown : CurrentInput} {source catalog : Bytes}
    (weighs : workspace.Weighs session compiler input decision shown catalog)
    (read : session.files.read input = .ok source) :
    compiler.recordedInputs input source decision.inputs =
      [⟨compiler.config.target, input.portable, .ofContent source, Artifact.version⟩,
        ⟨compiler.config.target, workspace.catalog.portable, .ofContent catalog, Artifact.version⟩] := by
  rw [weighs.inputs_eq, weighs.shown_eq read]
  simp [Compiler.recordedInputs, Cache.recorded?, List.findIdx?_cons]

/-- What is recorded names the contents that an artifact was built from. -/
theorem Weighs.names {decision : BuildDecision} {shown : CurrentInput} {source catalog : Bytes}
    (weighs : workspace.Weighs session compiler input decision shown catalog) (spelled : workspace.Spelled)
    (allowed : workspace.Allows session compiler input) (read : session.files.read input = .ok source) :
    workspace.Names compiler.config.target input.portable source catalog
      (compiler.recordedInputs input source decision.inputs) := by
  have recorded := weighs.recorded_eq read
  refine ⟨recorded, ?_, allowed.contents input (by simp) source read,
    allowed.contents workspace.catalog (by simp) catalog weighs.read_eq, ?_⟩
  · rw [recorded]
    intro entry member
    rcases List.mem_pair.mp member with rfl | rfl
    · exact ⟨allowed.fits _ (by simp), allowed.fits _ (by simp)⟩
    · exact ⟨allowed.fits _ (by simp), allowed.fits _ (by simp)⟩
  · intro same
    rw [spelled input allowed.source_mem same, weighs.read_eq] at read
    exact (Except.ok.inj read).symm

/-- Contents that were recorded are those that the gate finds now. -/
theorem Names.eq_of_agrees {target path now : String} {source catalog source' catalog' : Bytes}
    {recorded : List RecordedInput} {found : Bool}
    (names : workspace.Names target path source catalog recorded)
    (distinct : Set.InjOn Fingerprint.ofContent workspace.contents)
    (agrees : Verdict.Agrees Artifact.version now recorded
      [⟨input.portable, some (.ofContent source')⟩,
        ⟨workspace.catalog.portable, some (.ofContent catalog')⟩] found)
    (source_mem : source' ∈ workspace.contents) (catalog_mem : catalog' ∈ workspace.contents) :
    source' = source ∧ catalog' = catalog := by
  have paths := agrees.paths_perm
  have unchanged := agrees.unchanged
  rw [names.recorded_eq] at paths unchanged
  have same : path = input.portable := by
    have singles : [path].Perm [input.portable] :=
      (List.perm_append_right_iff [workspace.catalog.portable]).mp paths
    exact List.singleton_perm_singleton.mp singles
  have equal {first second : Bytes} (known : first ∈ workspace.contents)
      (other : second ∈ workspace.contents)
      (fingerprints : some (Fingerprint.ofContent first) = some (.ofContent second)) :
      second = first :=
    (distinct known other (Option.some.inj fingerprints)).symm
  obtain ⟨entry, member, named, fingerprint⟩ := unchanged _ List.mem_cons_self
  obtain ⟨entry', member', named', fingerprint'⟩ :=
    unchanged _ (List.mem_cons_of_mem _ List.mem_cons_self)
  constructor
  · rcases List.mem_pair.mp member with rfl | rfl
    · exact equal names.source_mem source_mem fingerprint
    · rw [names.source_eq (same.trans named.symm)]
      exact equal names.catalog_mem source_mem fingerprint
  · rcases List.mem_pair.mp member' with rfl | rfl
    · rw [← names.source_eq named']
      exact equal names.source_mem catalog_mem fingerprint'
    · exact equal names.catalog_mem catalog_mem fingerprint'

/-- Contents that are as they were recorded are let through. -/
theorem agrees_recorded (target first second : String) (source catalog : Bytes) :
    Verdict.Agrees Artifact.version target
      [⟨target, first, .ofContent source, Artifact.version⟩,
        ⟨target, second, .ofContent catalog, Artifact.version⟩]
      [⟨first, some (.ofContent source)⟩, ⟨second, some (.ofContent catalog)⟩] true := by
  constructor
  · exact List.cons_ne_nil _ _
  · simp
  · simp
  · rfl
  · simp
  · exact .refl _
  · simp

/-- What has a record that agrees with its source and the catalog is not built again. -/
theorem compile_of_agrees (allowed : workspace.Allows session compiler input) {source catalog : Bytes}
    {recorded : List RecordedInput} (read : session.files.read input = .ok source)
    (readCatalog : session.files.read workspace.catalog = .ok catalog)
    (record : session.cache.inputs? (compiler.request input).key = some recorded)
    (agrees : Verdict.Agrees Artifact.version compiler.config.target recorded
      [⟨input.portable, some (.ofContent source)⟩,
        ⟨workspace.catalog.portable, some (.ofContent catalog)⟩] true)
    (stands : session.files.pathExists (workspace.output input))
    (unforced : compiler.config.force = false) :
    (compiler.compile input session.cache).run session.files =
      ((.ok (.upToDate (compiler.outputPath input)), session.cache), session.files) := by
  obtain ⟨content, _, listed⟩ := Catalog.load_eq_ok allowed.catalog_eq
  have readable : ∀ path ∈ (compiler.request input).inputs,
      ∃ content, session.files.read path = .ok content := by
    rw [Compiler.inputs_request, Catalog.dependencies_of_ofContent? listed]
    intro path member
    rcases List.mem_pair.mp member with rfl | rfl
    · exact ⟨source, read⟩
    · exact ⟨catalog, readCatalog⟩
  obtain ⟨decision, evaluated⟩ := @Cache.exists_evaluate session.cache _ _ readable
  have decides := (session.cache.leaves_evaluate (compiler.request input) session.files).holds.2
  obtain ⟨shown, other, weighs⟩ := exists_weighs allowed (decides decision evaluated)
  obtain rfl := Except.ok.inj (weighs.read_eq.symm.trans readCatalog)
  apply Compiler.compile_of_upToDate evaluated _ unforced
  rw [weighs.verdict_eq, weighs.shown_eq read, record, Option.getD_some, stands]
  exact Verdict.judge_eq_upToDate_iff.mpr agrees

end Workspace

end SceneForge
