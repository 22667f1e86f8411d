import SceneForge.Proofs.Files.Effects
import SceneForge.Proofs.Files.Leaves

/-!
# Writing files atomically

A file that is written goes to a temporary file first, which then takes its place. What
remains of this, whether it succeeds or fails at any point: the file is what it was or
what it was to be, the temporary file is the only other one that changes, and a
directory is made only where it was missing.
-/

namespace SceneForge

/-- A path is the nearest of those above it. -/
theorem Path.exists_ancestors (path : Path) : ∃ above, path.ancestors = path :: above :=
  ⟨_, rfl⟩

namespace FileSystem

/-- Whether the directory that a file goes to is there, so that none has to be made. -/
def Ready (files : FileSystem) (path : Path) : Prop :=
  ∀ parent, path.parent? = some parent → parent.bytes.isEmpty = false → files.isDirectory parent

/-- The directory where the process works is there. -/
theorem ready_of_parent {files : FileSystem} {path : Path} (here : path.parent? = some (.ofText "")) :
    files.Ready path := by
  intro parent above named
  obtain rfl := Option.some.inj (here.symm.trans above)
  cases named

/-- Where a directory stands above a file, none has to be made. -/
theorem ready_of_isDirectory {files : FileSystem} {path parent : Path}
    (above : path.parent? = some parent) (there : files.isDirectory parent) : files.Ready path := by
  intro other named _
  obtain rfl := Option.some.inj (above.symm.trans named)
  exact there

theorem Extends.ready {files after : FileSystem} (extended : Extends files after) {path : Path}
    (ready : files.Ready path) : after.Ready path := by
  intro parent isParent named
  exact extended.isDirectory (ready parent isParent named)

end FileSystem

namespace Program

open FileSystem

/-- A directory that could not be made counts as made if it is there. -/
theorem leaves_settle {path : Path} {made : Except FileError Unit} {files : FileSystem}
    {condition : Except FileError Unit → FileSystem → Prop}
    (succeeds : made = .ok () ∨ files.isDirectory path → condition (.ok ()) files)
    (fails : ∀ error, ¬ files.isDirectory path → condition (.error error) files) :
    (makeDirectories.settle path made).Leaves files condition := by
  cases made with
  | ok value => exact leaves_pure.mpr (succeeds (.inl rfl))
  | error error =>
      rw [makeDirectories.settle, leaves_bind, leaves_ask, FileRequest.run]
      cases directory : files.isDirectory path with
      | true => exact leaves_pure.mpr (succeeds (.inr directory))
      | false => exact leaves_pure.mpr (fails error (by simp [directory]))

/-- Making directories changes no file, and the first of them is there if it succeeds. -/
theorem leaves_makeDirectories (paths : List Path) (files : FileSystem) :
    (makeDirectories paths).Leaves files fun answer after =>
      AddsDirectories files after ∧ (answer = .ok () →
        ∀ path ∈ paths.head?, path.bytes.isEmpty = false → after.isDirectory path) := by
  induction paths generalizing files with
  | nil => exact leaves_pure.mpr ⟨.refl files, nofun⟩
  | cons path above ih =>
      have settles {between : FileSystem} (added : AddsDirectories files between)
          {made : Except FileError Unit} (made_ok : made = .ok () → between.isDirectory path) :
          (makeDirectories.settle path made).Leaves between fun answer after =>
            AddsDirectories files after ∧ (answer = .ok () →
              ∀ other ∈ (path :: above).head?, other.bytes.isEmpty = false →
                after.isDirectory other) := by
        apply leaves_settle
        · intro directory
          refine ⟨added, fun _ other head _ => ?_⟩
          cases head
          exact directory.elim made_ok id
        · intro error _
          exact ⟨added, nofun⟩
      rw [makeDirectories]
      cases empty : path.bytes.isEmpty with
      | true =>
          apply leaves_pure.mpr
          refine ⟨.refl files, fun _ other head named => ?_⟩
          cases head
          rw [empty] at named
          cases named
      | false =>
          apply leaves_bind.mpr
          apply leaves_change rfl
          · intro error _
            cases error with
            | notFound =>
                apply leaves_bind.mpr
                apply (ih files).mono
                intro answer between facts
                cases answer with
                | error error => exact leaves_pure.mpr ⟨facts.1, nofun⟩
                | ok value =>
                    apply leaves_bind.mpr
                    apply leaves_change rfl
                    · intro error _
                      exact settles facts.1 nofun
                    · intro after made
                      exact settles (facts.1.trans (makeDirectory_adds made))
                        fun _ => isDirectory_of_makeDirectory made
            | _ => exact settles (.refl files) nofun
          · intro after made
            apply leaves_pure.mpr
            refine ⟨makeDirectory_adds made, fun _ other head _ => ?_⟩
            cases head
            exact isDirectory_of_makeDirectory made

/-- Where the first of some directories is there already, nothing is done. -/
theorem leaves_makeDirectories_of_isDirectory {path : Path} (above : List Path) {files : FileSystem}
    (directory : files.isDirectory path) :
    (makeDirectories (path :: above)).Leaves files fun answer after =>
      answer = .ok () ∧ after = files := by
  obtain ⟨location, found⟩ := isDirectory_iff.mp directory
  rw [makeDirectories]
  cases path.bytes.isEmpty with
  | true => exact leaves_pure.mpr ⟨rfl, rfl⟩
  | false =>
      apply leaves_bind.mpr
      apply leaves_change rfl
      · intro error failed
        have settles : (makeDirectories.settle path (.error error)).Leaves files fun answer after =>
            answer = .ok () ∧ after = files := by
          apply leaves_settle
          · intro _
            exact ⟨rfl, rfl⟩
          · intro _ missing
            exact absurd directory missing
        cases error with
        | notFound => exact absurd failed (makeDirectory_ne_notFound found)
        | _ => exact settles
      · intro after made
        have nothing := (makeDirectory_eq_ok made).2.1
        obtain ⟨rfl, stands⟩ := find_eq_ok found
        rw [stands] at nothing
        cases nothing

/-- What there is once a file has been replaced, or replacing it has failed: the answer says
which, and at most the two files that were written to have changed. -/
structure Replaces (temporary path : Path) (data : Bytes) (files : FileSystem)
    (answer : Except FileError Unit) (after : FileSystem) : Prop where
  changes : Changes (fun location => location = files.place temporary ∨ location = files.place path)
    files after
  written : answer = .ok () → after.fileAt? (files.place path) = some data
  kept : answer ≠ .ok () → files.place path ≠ files.place temporary →
    after.fileAt? (files.place path) = files.fileAt? (files.place path)
  gone : answer = .ok () → files.place temporary ≠ files.place path →
    after.fileAt? (files.place temporary) = none
  temporary : after.fileAt? (files.place temporary) = files.fileAt? (files.place temporary) ∨
    after.fileAt? (files.place temporary) ∈ [none, some [], some data]

/-- A failure that has changed the temporary file at most. -/
theorem Replaces.of_failure {temporary path : Path} {data : Bytes} {files after : FileSystem}
    (error : FileError) (changes : Changes (· = files.place temporary) files after)
    (content : after.fileAt? (files.place temporary) = files.fileAt? (files.place temporary) ∨
      after.fileAt? (files.place temporary) ∈ [none, some [], some data]) :
    Replaces temporary path data files (.error error) after where
  changes := changes.mono fun _ => .inl
  written := nofun
  kept _ apart := changes.fileAt?_eq _ apart
  gone := nofun
  temporary := content

theorem leaves_replace (temporary path : Path) (data : Bytes) (files : FileSystem) :
    (replace temporary path data).run.Leaves files (Replaces temporary path data files) := by
  apply leaves_bind_of_failing.mpr
  apply leaves_change rfl
  · intro error _
    exact .of_failure error (.refl _ files) (.inl rfl)
  intro created creates
  obtain ⟨creating, content⟩ := create_eq_ok creates
  apply leaves_bind_of_failing.mpr
  apply leaves_change rfl
  · intro error _
    exact .of_failure error creating (.inr (by simp [content]))
  intro appended appends
  obtain ⟨_, stood, appending, grown⟩ := append_eq_ok appends
  rw [creating.place_eq] at stood appending grown
  obtain rfl := Option.some.inj (content.symm.trans stood)
  rw [List.nil_append] at grown
  have filled := creating.trans appending
  have fails (error : FileError) : Replaces temporary path data files (.error error) appended :=
    .of_failure error filled (.inr (by simp [grown]))
  apply leaves_bind_of_failing.mpr
  apply leaves_change rfl
  · intro error _
    exact fails error
  intro flushed flushes
  obtain rfl := flush_eq_ok flushes
  apply leaves_bind_of_failing.mpr
  apply leaves_change rfl
  · intro error _
    exact fails error
  intro synced syncs
  obtain rfl := sync_eq_ok syncs
  apply leaves_change rfl
  · intro error _
    exact fails error
  intro renamed renames
  obtain ⟨moving, content, stood, arrived, gone⟩ := rename_eq_ok renames
  rw [filled.place_eq temporary, filled.place_eq path] at moving gone
  rw [filled.place_eq temporary] at stood
  rw [filled.place_eq path] at arrived
  obtain rfl := Option.some.inj (grown.symm.trans stood)
  refine ⟨(filled.mono fun _ => .inl).trans moving, fun _ => arrived, absurd rfl,
    fun _ => gone, .inr ?_⟩
  by_cases same : files.place temporary = files.place path
  · simp [same, arrived]
  · simp [gone same]

/-- Makes the directory that a file goes to, unless it has none of its own. -/
def makeReady (path : Path) : Program (Except FileError Unit) :=
  match path.parent? with
  | some parent => if parent.bytes.isEmpty then return .ok () else makeDirectories parent.ancestors
  | none => return .ok ()

/-- Replaces a file, or removes the temporary file if that fails. -/
def replaceOrClean (path : Path) (data : Bytes) : Program (Except FileError Unit) := do
  let temporary := path.temporary (← ask .process)
  match ← (replace temporary path data).run with
  | .ok () => return .ok ()
  | .error error =>
      let _ ← ask (.remove temporary)
      return .error error

theorem writeAtomically_eq (path : Path) (data : Bytes) :
    writeAtomically path data = makeReady path >>= fun made =>
      match made with
      | .error error => return .error error
      | .ok () => replaceOrClean path data := by
  rw [writeAtomically, makeReady]
  cases path.parent? with
  | none => rfl
  | some parent =>
      cases empty : parent.bytes.isEmpty with
      | true =>
          simp only [empty, if_true]
          rfl
      | false =>
          simp only [empty]
          rfl

/-- Nothing is made for a file whose directory is ready, and no file changes anyway. -/
theorem leaves_makeReady (path : Path) (files : FileSystem) :
    (makeReady path).Leaves files fun answer after =>
      AddsDirectories files after ∧ (answer = .ok () → after.Ready path) ∧
        (files.Ready path → answer = .ok () ∧ after = files) := by
  rw [makeReady]
  cases above : path.parent? with
  | none =>
      apply leaves_pure.mpr
      refine ⟨.refl files, fun _ => ?_, fun _ => ⟨rfl, rfl⟩⟩
      intro parent isParent
      cases above.symm.trans isParent
  | some parent =>
      dsimp only
      cases empty : parent.bytes.isEmpty with
      | true =>
          apply leaves_pure.mpr
          refine ⟨.refl files, fun _ => ?_, fun _ => ⟨rfl, rfl⟩⟩
          intro other isParent named
          obtain rfl := Option.some.inj (above.symm.trans isParent)
          exact absurd (empty.symm.trans named) (by simp)
      | false =>
          obtain ⟨higher, first⟩ := parent.exists_ancestors
          rw [first]
          have makes := leaves_makeDirectories (parent :: higher) files
          have idle (ready : files.Ready path) :=
            leaves_makeDirectories_of_isDirectory higher (ready parent above empty)
          constructor
          refine ⟨makes.holds.1, ?_, fun ready => (idle ready).holds⟩
          intro made other isParent named
          obtain rfl := Option.some.inj (above.symm.trans isParent)
          exact makes.holds.2 made parent rfl named

theorem run_makeReady_of_ready {path : Path} {files : FileSystem} (ready : files.Ready path) :
    (makeReady path).run files = (.ok (), files) := by
  have idle := (leaves_makeReady path files).holds.2.2 ready
  exact Prod.ext idle.1 idle.2

/-- Once its directory is ready, a file is replaced. -/
theorem run_writeAtomically_of_makeReady {path : Path} {files between : FileSystem}
    (made : (makeReady path).run files = (.ok (), between)) (data : Bytes) :
    (writeAtomically path data).run files = (replaceOrClean path data).run between := by
  rw [writeAtomically_eq, run_bind, made]

/-- A file whose directory is ready is written if its temporary file takes its place. -/
theorem run_writeAtomically {path temporary : Path} {data : Bytes} {files after : FileSystem}
    (ready : files.Ready path) (named : path.temporary files.process = temporary)
    (replaced : (replace temporary path data).run.run files = (.ok (), after)) :
    (writeAtomically path data).run files = (.ok (), after) := by
  rw [run_writeAtomically_of_makeReady (run_makeReady_of_ready ready), replaceOrClean, run_bind,
    run_ask, FileRequest.run, named, run_bind, replaced]
  rfl

theorem leaves_replaceOrClean (path : Path) (data : Bytes) (files : FileSystem) :
    (replaceOrClean path data).Leaves files
      (Replaces (path.temporary files.process) path data files) := by
  apply leaves_bind.mpr
  rw [leaves_ask, FileRequest.run]
  apply leaves_bind.mpr
  apply (leaves_replace (path.temporary files.process) path data files).mono
  intro answer after replaced
  cases answer with
  | ok value => exact leaves_pure.mpr replaced
  | error error =>
      apply leaves_bind.mpr
      apply leaves_change rfl
      · intro _ _
        exact leaves_pure.mpr replaced
      · intro cleaned removes
        obtain ⟨removing, gone⟩ := remove_eq_ok removes
        rw [replaced.changes.place_eq] at removing gone
        apply leaves_pure.mpr
        exact {
          changes := replaced.changes.trans (removing.mono fun _ => .inl)
          written := nofun
          kept := fun failed apart =>
            (removing.fileAt?_eq _ apart).trans (replaced.kept failed apart)
          gone := nofun
          temporary := .inr (by simp [gone]) }

/-- What there is once a file has been written as a whole, or writing it has failed. -/
structure Writes (path : Path) (data : Bytes) (files : FileSystem)
    (answer : Except FileError Unit) (after : FileSystem) : Prop extends Extends files after where
  process_eq : after.process = files.process
  fileAt?_eq : ∀ location, location ≠ files.place (path.temporary files.process) →
    location ≠ files.place path → after.fileAt? location = files.fileAt? location
  written : answer = .ok () → after.fileAt? (files.place path) = some data
  kept : answer ≠ .ok () → files.place path ≠ files.place (path.temporary files.process) →
    after.fileAt? (files.place path) = files.fileAt? (files.place path)
  gone : answer = .ok () → files.place (path.temporary files.process) ≠ files.place path →
    after.fileAt? (files.place (path.temporary files.process)) = none
  temporary : after.fileAt? (files.place (path.temporary files.process)) =
      files.fileAt? (files.place (path.temporary files.process)) ∨
    after.fileAt? (files.place (path.temporary files.process)) ∈ [none, some [], some data]
  ready : answer = .ok () → after.Ready path
  directory_of_directory : files.Ready path → ∀ location,
    after.entry? location = some .directory → files.entry? location = some .directory

/-- Making directories before a file is replaced changes nothing about it. -/
theorem Replaces.writes {path : Path} {data : Bytes} {files between after : FileSystem}
    {answer : Except FileError Unit} (added : AddsDirectories files between)
    (idle : files.Ready path → between = files)
    (replaced : Replaces (path.temporary files.process) path data between answer after)
    (ready : answer = .ok () → after.Ready path) : Writes path data files answer after := by
  obtain ⟨changes, written, kept, gone, temporary⟩ := replaced
  simp only [added.place_eq, added.fileAt?_eq] at changes written kept gone temporary
  exact {
    toExtends := added.toExtends.trans changes.toExtends
    process_eq := changes.process_eq.trans added.process_eq
    fileAt?_eq := fun location apart other =>
      (changes.fileAt?_eq location (not_or.mpr ⟨apart, other⟩)).trans (added.fileAt?_eq location)
    written
    kept
    gone
    temporary
    ready
    directory_of_directory := fun stood location directory =>
      idle stood ▸ changes.directory_of_directory location directory }

/-- Writing a file makes its directory ready, which changes no file, and then replaces it. -/
theorem leaves_writeAtomically (path : Path) (data : Bytes) (files : FileSystem) :
    (writeAtomically path data).Leaves files (Writes path data files) := by
  rw [writeAtomically_eq]
  apply leaves_bind.mpr
  apply (leaves_makeReady path files).mono
  intro made between facts
  obtain ⟨added, ready, idle⟩ := facts
  have same (stood : files.Ready path) : between = files := (idle stood).2
  cases made with
  | error error =>
      have nothing : Replaces (path.temporary files.process) path data between (.error error) between :=
        .of_failure error (.refl _ between) (.inl rfl)
      exact leaves_pure.mpr (nothing.writes added same nofun)
  | ok value =>
      apply (leaves_replaceOrClean path data between).mono
      intro answer after replaced
      rw [added.process_eq] at replaced
      exact replaced.writes added same fun _ => replaced.changes.ready (ready rfl)

end Program

end SceneForge
