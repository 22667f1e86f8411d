import SceneForge.Proofs.Files.Replacing

/-!
# Stopping while a file is written

A process may stop at any point while it writes a file, and any of its requests may be
refused. Until the temporary file takes its place, the file is what it was, and from then on
it is what it was to be. Only directories may have been made before: if nothing stood where
the file was to stand, and the way to its directory leads through this very place, a directory
may stand there.
-/

namespace SceneForge

namespace FileSystem

/-- What stands in the place of a path is what stood there. Where nothing stood, a directory may
have been made on the way to the one above the path. -/
inductive Kept (files : FileSystem) (path : Path) (state : FileSystem) : Prop
  | same (stands : state.entry? (files.place path) = files.entry? (files.place path))
  | onWay (nothing : files.entry? (files.place path) = none)
      (above : files.place path ∈ files.wayAbove path)
      (made : state.entry? (files.place path) = some .directory)

variable {files between state : FileSystem} {path : Path}

/-- Whether a file has been kept is seen in its place alone. -/
theorem Kept.congr (kept : files.Kept path between)
    (stands : state.entry? (files.place path) = between.entry? (files.place path)) :
    files.Kept path state := by
  cases kept with
  | same before => exact .same (stands.trans before)
  | onWay nothing above made => exact .onWay nothing above (stands.trans made)

/-- Where directories are added on the way to the one above a path, what stands in its place is
kept. -/
theorem AddsDirectories.kept (added : AddsDirectories files state)
    (agrees : Agrees (fun location => ∃ named ∈ path.above, location = files.place named) files state) :
    files.Kept path state := by
  by_cases above : ∃ named ∈ path.above, files.place path = files.place named
  · obtain ⟨named, member, same⟩ := above
    have onWay : files.place path ∈ files.wayAbove path := by
      rw [same]
      exact List.mem_flatMap.mpr ⟨named, member, files.place_mem_trail named⟩
    have file := added.fileAt?_eq (files.place path)
    rw [fileAt?, fileAt?] at file
    cases before : files.entry? (files.place path) with
    | none =>
        cases now : state.entry? (files.place path) with
        | none => exact .same (now.trans before.symm)
        | some entry =>
            cases entry with
            | directory => exact .onWay before onWay now
            | file content => simp [before, now] at file
    | some entry =>
        cases entry with
        | directory => exact .same ((added.directory_stays _ before).trans before.symm)
        | file content =>
            rw [before, ← fileAt?, fileAt?_eq_some_iff] at file
            exact .same (file.trans before.symm)
  · exact .same (agrees.entry?_eq _ above)

theorem addsDirectories_run_makeDirectory (path : Path) (files : FileSystem) :
    AddsDirectories files ((FileRequest.makeDirectory path).run files).2 := by
  rw [FileRequest.run]
  cases made : files.makeDirectory path with
  | error error => exact .refl files
  | ok after => exact makeDirectory_adds made

end FileSystem

namespace Program

open FileSystem

variable {files : FileSystem} {temporary path : Path} {data : Bytes}

section MakingReady

/-- Settling whether a directory is there changes nothing. -/
theorem throughout_settle {made : Except FileError Unit} {condition : FileSystem → Prop}
    (holds : condition files) : (makeDirectories.settle path made).Throughout files condition := by
  cases made with
  | ok value => exact throughout_pure.mpr holds
  | error error =>
      refine throughout_bind (throughout_ask.mpr ⟨holds, holds⟩) (leaves_ask.mpr ?_)
      split
      · exact throughout_pure.mpr holds
      · exact throughout_pure.mpr holds

/-- While directories are made, no file changes. -/
theorem throughout_makeDirectories (paths : List Path) (files : FileSystem) :
    (makeDirectories paths).Throughout files (AddsDirectories files) := by
  induction paths generalizing files with
  | nil => exact throughout_pure.mpr (.refl files)
  | cons path above ih =>
      rw [makeDirectories]
      cases path.bytes.isEmpty with
      | true => exact throughout_pure.mpr (.refl files)
      | false =>
          have first := addsDirectories_run_makeDirectory path files
          refine throughout_bind (throughout_ask.mpr ⟨.refl files, first⟩) (leaves_change rfl ?_ ?_)
          · intro error _
            cases error with
            | notFound =>
                refine throughout_bind (ih files) ((leaves_makeDirectories above files).mono ?_)
                rintro answer between ⟨added, -⟩
                cases answer with
                | error error => exact throughout_pure.mpr added
                | ok value =>
                    have second := added.trans (addsDirectories_run_makeDirectory path between)
                    exact throughout_bind (throughout_ask.mpr ⟨added, second⟩)
                      (leaves_ask.mpr (throughout_settle second))
            | _ => exact throughout_settle (.refl files)
          · intro after made
            exact throughout_pure.mpr (makeDirectory_adds made)

theorem throughout_makeReady (path : Path) (files : FileSystem) :
    (makeReady path).Throughout files (AddsDirectories files) := by
  rw [makeReady]
  cases path.parent? with
  | none => exact throughout_pure.mpr (.refl files)
  | some parent =>
      dsimp only
      split
      · exact throughout_pure.mpr (.refl files)
      · exact throughout_makeDirectories parent.ancestors files

/-- While the directory of a file is made, what stands in the place of the file is kept. -/
theorem kept_throughout_makeReady (path : Path) (files : FileSystem) :
    (makeReady path).Throughout files (files.Kept path) :=
  ⟨fun state member => ((throughout_makeReady path files).holds state member).kept
    ((within_makeReady path).keeps_throughout.holds state member)⟩

end MakingReady

section Replacing

/-- While a file is replaced, it is what it was or what it is to be. -/
theorem throughout_replace (apart : files.place temporary ≠ files.place path) :
    (replace temporary path data).run.Throughout files fun state =>
      state.entry? (files.place path) = files.entry? (files.place path) ∨
        state.entry? (files.place path) = some (.file data) := by
  rw [replace_eq]
  refine throughout_bind_ask_of_failing ?_ ?_
  · refine (within_prepare temporary data).keeps_throughout.mono fun state agrees => ?_
    refine .inl (agrees.entry?_eq _ ?_)
    rintro ⟨named, member, same⟩
    obtain rfl := List.mem_singleton.mp member
    exact apart same.symm
  · rw [← replace_eq]
    refine (leaves_replace temporary path data files).mono fun answer after replaces => ?_
    by_cases succeeded : answer = .ok ()
    · exact .inr (fileAt?_eq_some_iff.mp (replaces.written succeeded))
    · exact .inl (replaces.entry?_eq succeeded apart)

/-- Writing a file is stopped while it is replaced, or when a failure has been cleaned up. -/
theorem throughout_replaceOrClean {condition : FileSystem → Prop}
    (replacing : (replace (path.temporary files.process) path data).run.Throughout files condition)
    (cleaning : ∀ error between,
      (replace (path.temporary files.process) path data).run.run files = (.error error, between) →
        condition ((FileRequest.remove (path.temporary files.process)).run between).2) :
    (replaceOrClean path data).Throughout files condition := by
  have begins := replacing.holds files (mem_states _ files)
  refine throughout_bind (throughout_ask.mpr ⟨begins, begins⟩) (leaves_ask.mpr ?_)
  rw [FileRequest.run]
  refine throughout_bind replacing ⟨?_⟩
  have last := replacing.run
  rcases replaced : (replace (path.temporary files.process) path data).run.run files with
    ⟨answer, between⟩
  rw [replaced] at last
  cases answer with
  | ok value => exact throughout_pure.mpr last
  | error error =>
      have cleaned := cleaning error between replaced
      exact throughout_bind (throughout_ask.mpr ⟨last, cleaned⟩)
        (leaves_ask.mpr (throughout_pure.mpr cleaned))

/-- What comes of it: if the file could not be replaced, the temporary file is removed. -/
theorem run_replaceOrClean (path : Path) (data : Bytes) (files : FileSystem) :
    (replaceOrClean path data).run files =
      match (replace (path.temporary files.process) path data).run.run files with
      | (.ok (), after) => (.ok (), after)
      | (.error error, after) =>
          (.error error, ((FileRequest.remove (path.temporary files.process)).run after).2) := by
  rw [replaceOrClean, run_bind, run_ask, FileRequest.run, run_bind]
  rcases (replace (path.temporary files.process) path data).run.run files with ⟨_ | _, after⟩ <;> rfl

/-- While a file is replaced, and if that fails cleaned up, it is what it was or what it is to
be. -/
theorem whole_throughout_replaceOrClean
    (apart : files.place (path.temporary files.process) ≠ files.place path) :
    (replaceOrClean path data).Throughout files fun state =>
      state.entry? (files.place path) = files.entry? (files.place path) ∨
        state.entry? (files.place path) = some (.file data) := by
  have replacing := @throughout_replace files _ path data apart
  refine throughout_replaceOrClean replacing fun error between replaced => ?_
  have replaces := (leaves_replace (path.temporary files.process) path data files).holds
  have last := replacing.run
  rw [replaced] at replaces last
  have removed := (FileRequest.remove (path.temporary files.process)).keeps between
  rwa [removed.entry?_eq]
  rintro ⟨named, member, same⟩
  obtain rfl := List.mem_singleton.mp member
  rw [replaces.changes.place_eq] at same
  exact apart same.symm

end Replacing

section Cleaning

/-- Where nothing refuses it, no file stays behind that was to be removed, if it can be located. -/
theorem fileAt?_of_remove (located : files.locate temporary false = .ok (files.place temporary))
    (free : files.refuses .remove (files.place temporary) = false) :
    FileSystem.fileAt? ((FileRequest.remove temporary).run files).2 (files.place temporary) = none := by
  rw [FileRequest.run]
  cases removed : files.remove temporary with
  | ok after => exact (remove_eq_ok removed).2
  | error error =>
      cases stands : files.fileAt? (files.place temporary) with
      | none => exact stands
      | some content =>
          have found := findFile_eq_ok_iff.mpr ⟨rfl, located, fileAt?_eq_some_iff.mp stands, free⟩
          cases removed.symm.trans (bind_eq_ok_iff.mpr ⟨_, found, rfl⟩)

/-- Replacing a file fails at once if its temporary file cannot be created. -/
theorem run_replace_of_create_eq_error {error : FileError}
    (refused : files.create temporary = .error error) :
    (replace temporary path data).run.run files = (.error error, files) := by
  rw [replace, ExceptT.run_bind, run_bind, ExceptT.run_mk, run_ask, FileRequest.run, refused]
  rfl

/-- Once its temporary file could be created, a file is replaced or no temporary file is left. -/
theorem fileAt?_of_create_eq_ok {started : FileSystem}
    (created : files.create (path.temporary files.process) = .ok started)
    (free : files.refuses .remove (files.place (path.temporary files.process)) = false)
    (failed : ((replaceOrClean path data).run files).1 ≠ .ok ()) :
    FileSystem.fileAt? ((replaceOrClean path data).run files).2
      (files.place (path.temporary files.process)) = none := by
  obtain ⟨located, -⟩ := create_eq_ok_iff.mp created
  have replaces := (leaves_replace (path.temporary files.process) path data files).holds
  have refuses := refuses_run (replace (path.temporary files.process) path data).run files
  rw [run_replaceOrClean] at failed ⊢
  generalize (replace (path.temporary files.process) path data).run.run files = left at *
  obtain ⟨answer, between⟩ := left
  cases answer with
  | ok value => exact absurd rfl failed
  | error error =>
      dsimp only at replaces refuses ⊢
      rw [← replaces.changes.place_eq] at free ⊢
      rw [← refuses] at free
      refine fileAt?_of_remove ?_ free
      rw [replaces.changes.place_eq]
      exact replaces.changes.toExtends.locate_eq_ok located

/-- If its temporary file could not be created, it has been removed or nothing has changed. -/
theorem cleans_of_create_eq_error {error : FileError}
    (refused : files.create (path.temporary files.process) = .error error) :
    FileSystem.fileAt? ((replaceOrClean path data).run files).2
        (files.place (path.temporary files.process)) = none ∨
      (replaceOrClean path data).Throughout files (· = files) := by
  have stopped : (replace (path.temporary files.process) path data).run.run files =
      (.error error, files) := run_replace_of_create_eq_error refused
  cases removed : files.remove (path.temporary files.process) with
  | ok after =>
      left
      have answer : ((FileRequest.remove (path.temporary files.process)).run files).2 = after := by
        rw [FileRequest.run, removed]
        rfl
      rw [run_replaceOrClean, stopped]
      dsimp only
      rw [answer]
      exact (remove_eq_ok removed).2
  | error still =>
      right
      have answer : ((FileRequest.remove (path.temporary files.process)).run files).2 = files := by
        rw [FileRequest.run, removed]
        rfl
      have creates : (FileRequest.create (path.temporary files.process)).run files =
          (.error error, files) := by
        rw [FileRequest.run, refused]
        rfl
      refine throughout_replaceOrClean (throughout_bind_of_failing ?_ (leaves_ask.mpr ?_)) ?_
      · exact throughout_ask.mpr ⟨rfl, by rw [creates]⟩
      · rw [creates]
        intro _ impossible
        cases impossible
      · intro other between replaced
        cases stopped.symm.trans replaced
        exact answer

end Cleaning

/-- While a file is written, what stands in its place is kept, or it is the new file. -/
theorem whole_throughout_writeAtomically (noSlash : '/' ∉ files.process.toList) :
    (writeAtomically path data).Throughout files fun state =>
      files.Kept path state ∨ state.entry? (files.place path) = some (.file data) := by
  rw [writeAtomically_eq]
  have making := kept_throughout_makeReady path files
  refine throughout_bind (making.mono fun state => .inl) ⟨?_⟩
  have kept := making.run
  have added := (leaves_makeReady path files).holds.1
  generalize (makeReady path).run files = made at *
  obtain ⟨answer, between⟩ := made
  cases answer with
  | error error => exact throughout_pure.mpr (.inl kept)
  | ok value =>
      have replacing := @whole_throughout_replaceOrClean between path data
        (path.place_temporary_ne (added.process_eq ▸ noSlash) between)
      refine replacing.mono fun state whole => ?_
      rw [added.place_eq] at whole
      exact whole.imp_left kept.congr

/-- What could not be written is kept. -/
theorem kept_of_failure (noSlash : '/' ∉ files.process.toList)
    (failed : ((writeAtomically path data).run files).1 ≠ .ok ()) :
    files.Kept path ((writeAtomically path data).run files).2 := by
  have writes := (leaves_writeAtomically path data files).holds
  rcases (@whole_throughout_writeAtomically files path data noSlash).run with kept | new
  · exact kept
  · have content := writes.kept failed (path.place_temporary_ne noSlash files).symm
    rw [fileAt?_eq_some_iff.mpr new, eq_comm, fileAt?_eq_some_iff] at content
    exact .same (new.trans content.symm)

/-- After a failure there is no temporary file left, or it has been what it was all the time. -/
theorem writeAtomically_cleans
    (free : files.refuses .remove (files.place (path.temporary files.process)) = false)
    (failed : ((writeAtomically path data).run files).1 ≠ .ok ()) :
    FileSystem.fileAt? ((writeAtomically path data).run files).2
        (files.place (path.temporary files.process)) = none ∨
      (writeAtomically path data).Throughout files fun state =>
        state.fileAt? (files.place (path.temporary files.process)) =
          files.fileAt? (files.place (path.temporary files.process)) := by
  have making := throughout_makeReady path files
  have ready := making.run
  have refuses := refuses_run (makeReady path) files
  rw [writeAtomically_eq] at failed ⊢
  rw [run_bind] at failed ⊢
  have first := making.mono fun state added =>
    added.fileAt?_eq (files.place (path.temporary files.process))
  rcases made : (makeReady path).run files with ⟨answer, between⟩
  rw [made] at failed ready refuses
  cases answer with
  | error error =>
      right
      refine throughout_bind first ⟨?_⟩
      rw [made]
      exact throughout_pure.mpr (ready.fileAt?_eq _)
  | ok value =>
      rw [← ready.process_eq, ← ready.place_eq, ← refuses] at free
      dsimp only at failed ⊢
      rw [← ready.process_eq, ← ready.place_eq] at first ⊢
      cases created : between.create (path.temporary between.process) with
      | ok started => exact .inl (fileAt?_of_create_eq_ok created free failed)
      | error error =>
          refine (cleans_of_create_eq_error created).imp_right fun still => ?_
          refine throughout_bind first ⟨?_⟩
          rw [made]
          refine still.mono fun state same => ?_
          rw [same]
          exact ready.fileAt?_eq _

/-- What was written is found, and nothing stands in the place of the temporary file. -/
theorem found_of_success {after : FileSystem} (noSlash : '/' ∉ files.process.toList)
    (written : (writeAtomically path data).run files = (.ok (), after)) :
    after.find path = .ok (files.place path, .file data) ∧
      after.entry? (files.place (path.temporary files.process)) = none := by
  have apart := path.place_temporary_ne noSlash files
  have writes := (leaves_writeAtomically path data files).holds
  rw [written] at writes
  constructor
  · obtain ⟨location, entry, found⟩ := pathExists_iff.mp (pathExists_of_writeAtomically written apart)
    obtain ⟨rfl, stands⟩ := find_eq_ok found
    rw [writes.place_eq, fileAt?_eq_some_iff.mp (writes.written rfl), Option.some.injEq] at stands
    rw [found, writes.place_eq, stands]
  · have added := (leaves_makeReady path files).holds.1
    rw [writeAtomically_eq, run_bind] at written
    rcases made : (makeReady path).run files with ⟨answer, between⟩
    rw [made] at written added
    cases answer with
    | error error => cases written
    | ok value =>
        replace added : AddsDirectories files between := added
        rw [← added.place_eq, ← added.place_eq, ← added.process_eq] at apart
        have exactly := (@leaves_replaceOrClean_iff between path data apart).holds
        dsimp only at written
        rw [written] at exactly
        obtain ⟨succeeds, replaced⟩ := exactly
        have can := succeeds.mp rfl
        have left : after = between.replaced (path.temporary between.process) path data := replaced rfl
        rw [← added.process_eq, ← added.place_eq, left,
          entry?_replaced data (ne_nil_of_entry?_ne can.free)
            (ne_nil_of_entry?_ne can.temporary_free), if_neg apart, if_pos rfl]

/-- Writing a file is all or nothing. Wherever it is stopped, what stands in the place of the file
stood there before or is the data. If it succeeds, the data is found and there is no temporary
file; if it fails, what stood there is kept and, unless removing it is refused, no temporary file
is left that was created. Only where nothing stood, and the directory above the file is reached
through the very place of the file, a directory may have been made there. -/
theorem writeAtomically_all_or_nothing (noSlash : '/' ∉ files.process.toList) (path : Path)
    (data : Bytes) :
    ((writeAtomically path data).Throughout files fun state =>
      files.Kept path state ∨ state.entry? (files.place path) = some (.file data)) ∧
    (∀ after, (writeAtomically path data).run files = (.ok (), after) →
      after.find path = .ok (files.place path, .file data) ∧
        after.entry? (files.place (path.temporary files.process)) = none) ∧
    (∀ error after, (writeAtomically path data).run files = (.error error, after) →
      files.Kept path after ∧
        (files.refuses .remove (files.place (path.temporary files.process)) = false →
          after.fileAt? (files.place (path.temporary files.process)) = none ∨
            (writeAtomically path data).Throughout files fun state =>
              state.fileAt? (files.place (path.temporary files.process)) =
                files.fileAt? (files.place (path.temporary files.process)))) := by
  refine ⟨whole_throughout_writeAtomically noSlash, fun after written =>
    found_of_success noSlash written, fun error after failed => ?_⟩
  have fails : ((writeAtomically path data).run files).1 ≠ .ok () := by
    rw [failed]
    exact nofun
  have kept := kept_of_failure noSlash fails
  have cleans := fun free => writeAtomically_cleans free fails
  rw [failed] at kept cleans
  exact ⟨kept, cleans⟩

/-- A file is written into a directory that is made for it; where moving is refused, nothing is
left. -/
theorem writeAtomically_all_or_nothing_refused :
    let files : FileSystem := .empty "7"
    let refusing : FileSystem := { files with refuses := fun access _ => access == .rename }
    let path : Path := .ofText "out/scene.bin"
    '/' ∉ files.process.toList ∧ '/' ∉ refusing.process.toList ∧
      (∃ after, (writeAtomically path [1, 2]).run files = (.ok (), after) ∧
        after.find path = .ok (files.place path, .file [1, 2])) ∧
      ∃ after, (writeAtomically path [1, 2]).run refusing = (.error .refused, after) ∧
        refusing.Kept path after := by
  intro files refusing path
  have noSlash : '/' ∉ files.process.toList := by decide
  have written : ((writeAtomically path [1, 2]).run files).1 = .ok () := by decide +kernel
  have refused : ((writeAtomically path [1, 2]).run refusing).1 = .error .refused := by
    decide +kernel
  obtain ⟨after, ran⟩ := exists_run_eq written
  obtain ⟨left, failed⟩ := exists_run_eq refused
  refine ⟨noSlash, noSlash, ⟨after, ran, ?_⟩, ⟨left, failed, ?_⟩⟩
  · exact ((@writeAtomically_all_or_nothing files noSlash path [1, 2]).2.1 after ran).1
  · exact ((@writeAtomically_all_or_nothing refusing noSlash path [1, 2]).2.2 _ left failed).1

/-- Where the directory above a file is reached through the place of the file, writing it fails,
and there is a directory where nothing was. -/
theorem writeAtomically_makes_directory :
    let files : FileSystem := .empty "7"
    let path : Path := .ofText "a/../a"
    ((writeAtomically path [120]).run files).1 ≠ .ok () ∧
      files.entry? (files.place path) = none ∧ files.pathExists path = false ∧
      FileSystem.entry? ((writeAtomically path [120]).run files).2 (files.place path) =
        some .directory ∧
      FileSystem.isDirectory ((writeAtomically path [120]).run files).2 path = true := by
  decide +kernel

end Program

end SceneForge
