import SceneForge.Build.Cache
import SceneForge.Proofs.Files.AtomicWriting

/-!
# What the cache leaves

The gate only reads: its decision is about the inputs as the files show them. Records
are replaced in the database file before they are in memory.
-/

namespace SceneForge

open Program

/-- Whether a database of the current layout is what a file holds. -/
def Database.StandsAt (database : Database) (files : FileSystem) (path : Path) : Prop :=
  ∃ content, files.fileAt? (files.place path) = some content ∧ decode? content = some database ∧
    database.version = currentVersion

namespace Cache

/-- Whether a file system shows an input in some state. -/
def Shows (files : FileSystem) (path : Path) (input : CurrentInput) : Prop :=
  input.path = path.portable ∧
    ((files.read path = .error .notFound ∧ input.fingerprint = none) ∨
      ∃ content, files.read path = .ok content ∧ input.fingerprint = some (.ofContent content))

/-- Whether a decision is the gate's, for inputs as a file system shows them. -/
def Evaluates (cache : Cache) (request : BuildRequest) (files : FileSystem)
    (decision : BuildDecision) : Prop :=
  ∃ current, List.Forall₂ (Shows files) request.inputs current ∧
    decision.verdict = .judge request.version request.target ((cache.inputs? request.key).getD [])
      current (files.pathExists request.output) ∧
    decision.inputs = current.filterMap (recorded? request)

/-- Whether records have been saved: they are in the database file if there is one. -/
def Saves (cache : Cache) (records : BuildRecords) (files after : FileSystem) : Prop :=
  match cache.path with
  | none => after = files
  | some path => Writes path (Database.encode ⟨Database.currentVersion, records⟩) files (.ok ()) after

/-- A file that can be read is shown with the fingerprint of its content. -/
theorem Shows.eq_of_read {files : FileSystem} {path : Path} {input : CurrentInput} {content : Bytes}
    (shown : Shows files path input) (read : files.read path = .ok content) :
    input = ⟨path.portable, some (.ofContent content)⟩ := by
  obtain ⟨named, ⟨missing, -⟩ | ⟨other, same, fingerprint⟩⟩ := shown
  · rw [read] at missing
    cases missing
  · rw [read] at same
    cases same
    cases input
    rw [CurrentInput.mk.injEq]
    exact ⟨named, fingerprint⟩

theorem leaves_inspect (path : Path) (files : FileSystem) :
    (inspect path).Leaves files fun answer after =>
      after = files ∧ ∀ input, answer = .ok input → Shows files path input := by
  apply leaves_bind.mpr
  rw [leaves_ask, FileRequest.run]
  cases content : files.read path with
  | ok bytes =>
      apply leaves_pure.mpr
      refine ⟨rfl, fun input shown => ?_⟩
      cases shown
      exact ⟨rfl, .inr ⟨bytes, content, rfl⟩⟩
  | error error =>
      cases error with
      | notFound =>
          apply leaves_pure.mpr
          refine ⟨rfl, fun input shown => ?_⟩
          cases shown
          exact ⟨rfl, .inl ⟨content, rfl⟩⟩
      | _ =>
          apply leaves_pure.mpr
          refine ⟨rfl, fun input shown => ?_⟩
          cases shown

theorem leaves_inspectAll (paths : List Path) (files : FileSystem) :
    (paths.mapM fun path => ExceptT.mk (inspect path)).run.Leaves files fun answer after =>
      after = files ∧ ∀ current, answer = .ok current → List.Forall₂ (Shows files) paths current := by
  induction paths with
  | nil =>
      apply leaves_pure.mpr
      refine ⟨rfl, fun current shown => ?_⟩
      cases shown
      exact .nil
  | cons path paths ih =>
      rw [List.mapM_cons]
      apply leaves_bind_of_failing.mpr
      apply (leaves_inspect path files).mono
      rintro answer _ ⟨rfl, shows⟩
      cases answer with
      | error error => exact ⟨rfl, nofun⟩
      | ok input =>
          apply leaves_bind_of_failing.mpr
          apply ih.mono
          rintro answer _ ⟨rfl, others⟩
          cases answer with
          | error error => exact ⟨rfl, nofun⟩
          | ok inputs =>
              apply leaves_pure.mpr
              refine ⟨rfl, fun current shown => ?_⟩
              cases shown
              exact .cons (shows input rfl) (others inputs rfl)

theorem leaves_evaluate (cache : Cache) (request : BuildRequest) (files : FileSystem) :
    (cache.evaluate request).Leaves files fun answer after =>
      after = files ∧ ∀ decision, answer = .ok decision → cache.Evaluates request files decision := by
  apply leaves_bind.mpr
  apply (leaves_inspectAll request.inputs files).mono
  rintro answer _ ⟨rfl, shows⟩
  cases answer with
  | error error => exact leaves_pure.mpr ⟨rfl, nofun⟩
  | ok current =>
      apply leaves_bind.mpr
      rw [leaves_ask, FileRequest.run]
      apply leaves_pure.mpr
      refine ⟨rfl, fun decision evaluated => ?_⟩
      cases evaluated
      exact ⟨current, shows current rfl, rfl, rfl⟩

/-- The gate decides wherever all inputs can be read. -/
theorem exists_evaluate {cache : Cache} {request : BuildRequest} {files : FileSystem}
    (readable : ∀ path ∈ request.inputs, ∃ content, files.read path = .ok content) :
    ∃ decision, ((cache.evaluate request).run files).1 = .ok decision := by
  have inspects (paths : List Path)
      (readable : ∀ path ∈ paths, ∃ content, files.read path = .ok content) :
      (paths.mapM fun path => ExceptT.mk (inspect path)).run.Leaves files fun answer after =>
        answer.isOk ∧ after = files := by
    induction paths with
    | nil => exact leaves_pure.mpr ⟨rfl, rfl⟩
    | cons path paths ih =>
        obtain ⟨content, read⟩ := readable path List.mem_cons_self
        rw [List.mapM_cons]
        apply leaves_bind_of_failing.mpr
        apply leaves_bind.mpr
        rw [leaves_ask, FileRequest.run, read]
        apply leaves_pure.mpr
        apply leaves_bind_of_failing.mpr
        apply (ih fun other member => readable other (List.mem_cons_of_mem path member)).mono
        rintro answer _ ⟨ok, rfl⟩
        cases answer with
        | error error => cases ok
        | ok inputs => exact leaves_pure.mpr ⟨rfl, rfl⟩
  have evaluates : (cache.evaluate request).Leaves files fun answer _ =>
      ∃ decision, answer = .ok decision := by
    apply leaves_bind.mpr
    apply (inspects request.inputs readable).mono
    rintro answer _ ⟨ok, rfl⟩
    cases answer with
    | error error => cases ok
    | ok current =>
        apply leaves_bind.mpr
        rw [leaves_ask, FileRequest.run]
        exact leaves_pure.mpr ⟨_, rfl⟩
  exact evaluates.holds

/-- Records are replaced in the file and in memory, or the file could not be written and
they are not replaced in memory. -/
theorem leaves_update (cache : Cache) (records : BuildRecords) (files : FileSystem) :
    (cache.update records).Leaves files fun result after =>
      (result = (.ok (), { cache with records }) ∧ cache.Saves records files after) ∨
        ∃ path refusal, cache.path = some path ∧ result = (.error (.io path), cache) ∧
          Writes path (Database.encode ⟨Database.currentVersion, records⟩) files (.error refusal)
            after := by
  apply leaves_bind.mpr
  rw [save]
  cases database : cache.path with
  | none =>
      apply leaves_pure.mpr
      apply leaves_pure.mpr
      refine .inl ⟨rfl, ?_⟩
      rw [Saves, database]
  | some path =>
      apply leaves_bind.mpr
      apply (leaves_writeAtomically path _ files).mono
      intro answer after writes
      apply leaves_pure.mpr
      cases answer with
      | ok value =>
          apply leaves_pure.mpr
          refine .inl ⟨rfl, ?_⟩
          rw [Saves, database]
          exact writes
      | error refusal => exact leaves_pure.mpr (.inr ⟨path, refusal, rfl, rfl, writes⟩)

/-- A cache that has been opened holds records of the database in its file only. -/
theorem load_eq_ok {files : FileSystem} {path : Path} {cache : Cache}
    (loaded : ((load path).run files).1 = .ok cache) :
    cache.path = some path ∧ ∀ key recorded, cache.records.get? key = some recorded →
      ∃ database : Database, database.StandsAt files path ∧
        database.records.get? key = some recorded := by
  rw [load, run_bind, run_ask, FileRequest.run] at loaded
  split at loaded
  next =>
    cases loaded
    refine ⟨rfl, fun key recorded stored => ?_⟩
    cases stored
  next => cases loaded
  next content read =>
    dsimp only at loaded
    split at loaded
    next => cases loaded
    next database decoded =>
      split at loaded
      next current =>
        cases loaded
        refine ⟨rfl, fun key recorded stored => ⟨database, ?_, stored⟩⟩
        exact ⟨content, FileSystem.read_eq_ok read, decoded, current⟩
      next =>
        cases loaded
        refine ⟨rfl, fun key recorded stored => ?_⟩
        cases stored

end Cache

end SceneForge
