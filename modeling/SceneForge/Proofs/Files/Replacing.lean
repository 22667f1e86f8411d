import SceneForge.Proofs.Files.Frames

/-!
# Replacing files

When a file can be replaced, and exactly what there is afterwards. Whether it can depends
on nothing but what stands on its way, and stays so while directories are made and other
files are written.
-/

namespace SceneForge

/-- The paths of the directories above a path, nearest first. -/
def Path.above (path : Path) : List Path := (path.parent?.map ancestors).getD []

/-- The paths that a process names when it writes a file. -/
def Path.writing (process : String) (path : Path) : List Path :=
  path :: path.temporary process :: path.above

namespace Program

variable {process : String} {allowed : Path → Prop}

theorem within_makeDirectories (paths : List Path) :
    (makeDirectories paths).Within process (· ∈ paths) := by
  induction paths with
  | nil => exact .pure _
  | cons path above ih =>
      have names (request : FileRequest (Except FileError Unit)) (one : request.paths = [path]) :
          (ask request).Within process (· ∈ path :: above) := by
        refine .ask fun other named => ?_
        rw [one] at named
        exact List.mem_cons.mpr (.inl (List.mem_singleton.mp named))
      have settles (made : Except FileError Unit) :
          (makeDirectories.settle path made).Within process (· ∈ path :: above) := by
        cases made with
        | ok value => exact .pure _
        | error error =>
            refine .bind (.ask fun other named => ?_) fun directory => ?_
            · exact List.mem_cons.mpr (.inl (List.mem_singleton.mp named))
            · split
              · exact .pure _
              · exact .pure _
      rw [makeDirectories]
      split
      · exact .pure _
      · refine (names (.makeDirectory path) rfl).bind fun made => ?_
        split
        · exact .pure _
        · refine (ih.mono fun other later => List.mem_cons_of_mem path later).bind fun made => ?_
          split
          · exact .pure _
          · exact (names (.makeDirectory path) rfl).bind settles
        · exact settles _

theorem within_makeReady (path : Path) : (makeReady path).Within process (· ∈ path.above) := by
  rw [makeReady, Path.above]
  cases path.parent? with
  | none => exact .pure _
  | some parent =>
      dsimp only
      split
      · exact .pure _
      · exact within_makeDirectories parent.ancestors

/-- Writes a whole new file. -/
def prepare (temporary : Path) (data : Bytes) : ExceptT FileError Program Unit := do
  ExceptT.mk (ask (.create temporary))
  ExceptT.mk (ask (.append temporary data))
  ExceptT.mk (ask (.flush temporary))
  ExceptT.mk (ask (.sync temporary))

/-- Replacing a file is preparing its temporary file and moving it in one step. -/
theorem replace_eq (temporary path : Path) (data : Bytes) :
    replace temporary path data =
      prepare temporary data >>= fun _ => ExceptT.mk (ask (.rename temporary path)) := by
  simp only [replace, prepare, bind_assoc]

theorem within_prepare (temporary : Path) (data : Bytes) :
    (prepare temporary data).run.Within process (· ∈ [temporary]) := by
  have names (request : FileRequest (Except FileError Unit)) (one : request.paths = [temporary]) :
      (ExceptT.mk (ask request)).run.Within process (· ∈ [temporary]) := by
    refine .ask fun other named => ?_
    rwa [one] at named
  exact .bind_of_failing (names (.create temporary) rfl) fun _ =>
    .bind_of_failing (names (.append temporary data) rfl) fun _ =>
    .bind_of_failing (names (.flush temporary) rfl) fun _ => names (.sync temporary) rfl

theorem within_replace (temporary path : Path) (data : Bytes) :
    (replace temporary path data).run.Within process (· ∈ [path, temporary]) := by
  rw [replace_eq]
  refine .bind_of_failing ((within_prepare temporary data).mono fun other named => ?_) fun _ =>
    .ask fun other named => ?_
  · exact List.mem_cons_of_mem path named
  · rcases List.mem_cons.mp named with rfl | last
    · exact List.mem_cons_of_mem path List.mem_cons_self
    · exact List.mem_cons.mpr (.inl (List.mem_singleton.mp last))

theorem within_replaceOrClean (path : Path) (data : Bytes) :
    (replaceOrClean path data).Within process (· ∈ [path, path.temporary process]) := by
  refine .bind_process ((within_replace _ path data).bind fun replaced => ?_)
  cases replaced with
  | ok value => exact .pure _
  | error error =>
      refine .bind (.ask fun other named => ?_) fun _ => .pure _
      exact List.mem_cons_of_mem path named

theorem within_writeAtomically (path : Path) (data : Bytes) :
    (writeAtomically path data).Within process (· ∈ path.writing process) := by
  rw [writeAtomically_eq]
  refine .bind ((within_makeReady path).mono fun other above => ?_) fun made => ?_
  · exact List.mem_cons_of_mem _ (List.mem_cons_of_mem _ above)
  · cases made with
    | error error => exact .pure _
    | ok value =>
        refine (within_replaceOrClean path data).mono fun other named => ?_
        exact List.mem_append_left path.above named

end Program

namespace FileSystem

open Program

/-- The locations on the way of the directories above a path. -/
def wayAbove (files : FileSystem) (path : Path) : List Location := path.above.flatMap files.trail

/-- The locations on which writing a file depends. -/
def way (files : FileSystem) (path : Path) : List Location :=
  (path.writing files.process).flatMap files.trail

/-- The locations that writing a file may change: those of the file and of its temporary file,
and those of directories that are still to be made. -/
def MayChange (files : FileSystem) (path : Path) (location : Location) : Prop :=
  location = files.place path ∨ location = files.place (path.temporary files.process) ∨
    (location ∈ files.way path ∧ files.entry? location = none)

/-- Whether a temporary file can be written and take the place of a file. -/
structure Replaceable (files : FileSystem) (temporary path : Path) : Prop where
  temporary_located : files.locate temporary false = .ok (files.place temporary)
  located : files.locate path false = .ok (files.place path)
  temporary_free : files.entry? (files.place temporary) ≠ some .directory
  free : files.entry? (files.place path) ≠ some .directory
  allowed : ∀ access ∈ [Access.create, .append, .flush, .sync, .rename],
    files.refuses access (files.place temporary) = false
  taken : files.refuses .rename (files.place path) = false

/-- What there is once a temporary file has taken the place of a file. -/
def replaced (files : FileSystem) (temporary path : Path) (data : Bytes) : FileSystem :=
  { files with
    entries := (files.entries.erase (files.place temporary)).insert (files.place path) (.file data) }

variable {files after : FileSystem} {temporary path : Path} {data : Bytes}

/-- What can be located stays so when directories are added. -/
theorem Extends.locate_eq_ok (extended : Extends files after) {directory : Bool} {location : Location}
    (located : files.locate path directory = .ok location) :
    after.locate path directory = .ok location := by
  rw [locate, extended.namesOf_eq]
  obtain ⟨⟨start, names⟩, named, located⟩ := bind_eq_ok_iff.mp located
  refine bind_eq_ok_iff.mpr ⟨(start, names), named, ?_⟩
  dsimp only at located ⊢
  split at located
  next => cases located
  next last before ending =>
    obtain ⟨parent, followed, located⟩ := bind_eq_ok_iff.mp located
    obtain ⟨_, required, located⟩ := bind_eq_ok_iff.mp located
    rw [requireDirectory_eq_ok_iff] at required
    refine bind_eq_ok_iff.mpr ⟨parent, extended.follow_eq_ok followed, bind_eq_ok_iff.mpr ?_⟩
    exact ⟨(), requireDirectory_eq_ok_iff.mpr (extended.directory_stays parent required), located⟩

/-- What can be located leads to what stands there. -/
theorem find_of_locate {location : Location} {entry : Entry}
    (located : files.locate path false = .ok location) (stands : files.entry? location = some entry) :
    files.find path = .ok (location, entry) := by
  obtain ⟨⟨start, names⟩, named, located⟩ := bind_eq_ok_iff.mp located
  dsimp only at located
  split at located
  next => cases located
  next last before ending =>
    obtain ⟨parent, followed, located⟩ := bind_eq_ok_iff.mp located
    obtain ⟨_, required, located⟩ := bind_eq_ok_iff.mp located
    split at located
    next => cases located
    next notDots =>
      rw [not_or] at notDots
      split at located
      next => cases located
      next short =>
        split at located
        next => cases located
        next noSlash =>
          cases located
          -- There is no slash at the end, so no empty name is skipped.
          obtain ⟨notEmpty, whole⟩ : last ≠ [] ∧ names.reverse = last :: before := by
            cases reversed : names.reverse with
            | nil =>
                rw [reversed] at ending
                cases ending
            | cons name rest =>
                rw [reversed] at ending noSlash
                have notEmpty : name ≠ [] := by simpa using noSlash
                rw [List.dropWhile_cons_of_neg (by simpa using notEmpty)] at ending
                cases ending
                exact ⟨notEmpty, rfl⟩
          have whole : names = before.reverse ++ [last] := by
            rw [← List.reverse_cons, ← whole, List.reverse_reverse]
          have descends : Location.descend parent last = parent ++ [last] := by
            simp [Location.descend, Path.isBlank, notEmpty, notDots.1, notDots.2]
          refine find_eq_ok_iff.mpr ⟨start, names, named, ?_, stands⟩
          rw [whole, follow_append_eq_ok_iff]
          refine ⟨parent, followed, follow_cons_eq_ok_iff.mpr ⟨required, ?_, ?_⟩⟩
          · exact .inr (.inr (Nat.le_of_not_lt short))
          · exact congrArg Except.ok descends

theorem pathExists_iff :
    files.pathExists path ↔ ∃ location entry, files.find path = .ok (location, entry) := by
  rw [pathExists]
  cases found : files.find path with
  | error error =>
      constructor
      · intro wrong
        cases wrong
      · rintro ⟨location, entry, wrong⟩
        cases wrong
  | ok value => exact ⟨fun _ => ⟨value.1, value.2, rfl⟩, fun _ => rfl⟩

/-- What is found at a path stands at its place. -/
theorem entry?_of_pathExists (found : files.pathExists path) :
    ∃ entry, files.entry? (files.place path) = some entry := by
  obtain ⟨location, entry, found⟩ := pathExists_iff.mp found
  obtain ⟨rfl, stands⟩ := find_eq_ok found
  exact ⟨entry, stands⟩

/-- What is found at a path is still found when directories are added, as long as it stands. -/
theorem Extends.pathExists (extended : Extends files after) (found : files.pathExists path)
    {now : Entry} (stands : after.entry? (files.place path) = some now) : after.pathExists path := by
  obtain ⟨location, entry, found⟩ := pathExists_iff.mp found
  obtain ⟨rfl, -⟩ := find_eq_ok found
  obtain ⟨start, names, named, followed, -⟩ := find_eq_ok_iff.mp found
  refine pathExists_iff.mpr ⟨files.place path, now, find_eq_ok_iff.mpr ⟨start, names, ?_, ?_, stands⟩⟩
  · rw [extended.namesOf_eq, named]
  · exact extended.follow_eq_ok followed

theorem allow_eq_ok {access : Access} {location : Location}
    (allowed : files.refuses access location = false) : files.allow access location = .ok () := by
  rw [allow, allowed]
  rfl

theorem refuses_of_allow {access : Access} {location : Location} {value : Unit}
    (allowed : files.allow access location = .ok value) : files.refuses access location = false := by
  rw [allow] at allowed
  split at allowed
  next => cases allowed
  next free => simpa using free

/-- A file that could be read still can be when directories are added and nothing is refused
that was not, as long as it stands. -/
theorem Extends.read_eq_ok (extended : Extends files after) (refuses : after.refuses = files.refuses)
    {content now : Bytes} (read : files.read path = .ok content)
    (stands : after.fileAt? (files.place path) = some now) : after.read path = .ok now := by
  obtain ⟨⟨location, entry⟩, found, read⟩ := bind_eq_ok_iff.mp read
  obtain ⟨rfl, -⟩ := find_eq_ok found
  obtain ⟨start, names, named, followed, -⟩ := find_eq_ok_iff.mp found
  refine bind_eq_ok_iff.mpr ⟨(files.place path, .file now), find_eq_ok_iff.mpr ?_, ?_⟩
  · exact ⟨start, names, (extended.namesOf_eq path).trans named, extended.follow_eq_ok followed,
      fileAt?_eq_some_iff.mp stands⟩
  · cases entry with
    | directory => cases read
    | file other =>
        obtain ⟨_, allowed, -⟩ := bind_eq_ok_iff.mp read
        refine bind_eq_ok_iff.mpr ⟨(), allow_eq_ok ?_, rfl⟩
        rw [refuses]
        exact refuses_of_allow allowed

/-- A file can still be replaced when directories are added elsewhere and nothing is refused
that was not. -/
theorem Replaceable.stays (replaceable : files.Replaceable temporary path)
    (extended : Extends files after) (refuses : after.refuses = files.refuses)
    (temporary_stays : after.entry? (files.place temporary) = files.entry? (files.place temporary))
    (stays : after.entry? (files.place path) = files.entry? (files.place path)) :
    after.Replaceable temporary path where
  temporary_located := by
    rw [extended.place_eq]
    exact extended.locate_eq_ok replaceable.temporary_located
  located := by
    rw [extended.place_eq]
    exact extended.locate_eq_ok replaceable.located
  temporary_free := by
    rw [extended.place_eq, temporary_stays]
    exact replaceable.temporary_free
  free := by
    rw [extended.place_eq, stays]
    exact replaceable.free
  allowed := by
    rw [extended.place_eq, refuses]
    exact replaceable.allowed
  taken := by
    rw [extended.place_eq, refuses]
    exact replaceable.taken

/-- Creating a file where none is in the way puts an empty one there. -/
theorem create_eq_ok_iff :
    files.create path = .ok after ↔
      files.locate path false = .ok (files.place path) ∧
        files.entry? (files.place path) ≠ some .directory ∧
        files.refuses .create (files.place path) = false ∧
        after = files.put (files.place path) (.file []) := by
  constructor
  · intro created
    obtain ⟨location, located, created⟩ := bind_eq_ok_iff.mp created
    obtain rfl := locate_eq_ok located
    split at created
    next => cases created
    next free =>
      obtain ⟨_, allowed, created⟩ := bind_eq_ok_iff.mp created
      cases created
      exact ⟨located, free, refuses_of_allow allowed, rfl⟩
  · rintro ⟨located, free, allowed, rfl⟩
    refine bind_eq_ok_iff.mpr ⟨_, located, ?_⟩
    split
    next directory => exact absurd directory free
    next => exact bind_eq_ok_iff.mpr ⟨(), allow_eq_ok allowed, rfl⟩

theorem findFile_eq_ok_iff {access : Access} {location : Location} {content : Bytes} :
    files.findFile path access = .ok (location, content) ↔
      location = files.place path ∧ files.locate path false = .ok (files.place path) ∧
        files.entry? (files.place path) = some (.file content) ∧
        files.refuses access (files.place path) = false := by
  constructor
  · intro found
    obtain ⟨other, located, found⟩ := bind_eq_ok_iff.mp found
    obtain rfl := locate_eq_ok located
    split at found
    next => cases found
    next => cases found
    next stands =>
      obtain ⟨_, allowed, found⟩ := bind_eq_ok_iff.mp found
      cases found
      exact ⟨rfl, located, stands, refuses_of_allow allowed⟩
  · rintro ⟨rfl, located, stands, allowed⟩
    refine bind_eq_ok_iff.mpr ⟨_, located, ?_⟩
    rw [stands]
    exact bind_eq_ok_iff.mpr ⟨(), allow_eq_ok allowed, rfl⟩

/-- Renaming a file moves it to where none is in the way. -/
theorem rename_eq_ok_iff (apart : files.place temporary ≠ files.place path) :
    files.rename temporary path = .ok after ↔
      ∃ content, files.findFile temporary .rename = .ok (files.place temporary, content) ∧
        files.locate path false = .ok (files.place path) ∧
        files.entry? (files.place path) ≠ some .directory ∧
        files.refuses .rename (files.place path) = false ∧
        after = files.replaced temporary path content := by
  constructor
  · intro renamed
    obtain ⟨⟨old, content⟩, found, renamed⟩ := bind_eq_ok_iff.mp renamed
    obtain ⟨new, located, renamed⟩ := bind_eq_ok_iff.mp renamed
    obtain rfl := locate_eq_ok located
    obtain ⟨rfl, -⟩ := findFile_eq_ok found
    split at renamed
    next => cases renamed
    next free =>
      obtain ⟨_, allowed, renamed⟩ := bind_eq_ok_iff.mp renamed
      rw [if_neg apart.symm] at renamed
      cases renamed
      exact ⟨content, found, located, free, refuses_of_allow allowed, rfl⟩
  · rintro ⟨content, found, located, free, allowed, rfl⟩
    refine bind_eq_ok_iff.mpr ⟨_, found, bind_eq_ok_iff.mpr ⟨_, located, ?_⟩⟩
    split
    next directory => exact absurd directory free
    next =>
      refine bind_eq_ok_iff.mpr ⟨(), allow_eq_ok allowed, ?_⟩
      rw [if_neg apart.symm]
      rfl

/-- The temporary file while it is written. -/
theorem extends_put (free : files.entry? (files.place temporary) ≠ some .directory)
    (content : Bytes) :
    Extends files (files.put (files.place temporary) (.file content)) ∧
      Extends (files.put (files.place temporary) (.file content)) files := by
  have changes := changes_put_file content free
  exact ⟨changes.toExtends, changes.workingDirectory_eq.symm, changes.directory_of_directory⟩

/-- A temporary file that was created is found as long as nothing refuses it. -/
theorem findFile_put_iff (free : files.entry? (files.place temporary) ≠ some .directory)
    (content : Bytes) {access : Access} {found : Location × Bytes} :
    (files.put (files.place temporary) (.file content)).findFile temporary access = .ok found ↔
      found = (files.place temporary, content) ∧
        files.locate temporary false = .ok (files.place temporary) ∧
        files.refuses access (files.place temporary) = false := by
  obtain ⟨extended, narrowed⟩ := extends_put free content
  obtain ⟨location, other⟩ := found
  have stands : FileSystem.entry? (files.put (files.place temporary) (.file content))
      (files.place temporary) = some (.file content) := by
    rw [entry?_put (ne_nil_of_entry?_ne free), if_pos rfl]
  rw [findFile_eq_ok_iff, extended.place_eq, stands]
  constructor
  · rintro ⟨rfl, located, same, allowed⟩
    cases same
    exact ⟨rfl, narrowed.locate_eq_ok located, allowed⟩
  · rintro ⟨same, located, allowed⟩
    cases same
    exact ⟨rfl, extended.locate_eq_ok located, rfl, allowed⟩

theorem put_put (location : Location) (first second : Entry) :
    (files.put location first).put location second = files.put location second := by
  have entries : (files.entries.insert location first).insert location second =
      files.entries.insert location second := by
    apply SortedMap.ext_get?
    intro other
    simp only [SortedMap.get?_insert]
    split <;> rfl
  exact congrArg (fun entries => { files with entries }) entries

/-- What was written to a temporary file does not matter once it has taken its place. -/
theorem replaced_put (content : Bytes) :
    FileSystem.replaced (files.put (files.place temporary) (.file content)) temporary path data =
      files.replaced temporary path data := by
  have entries : (files.entries.insert (files.place temporary) (.file content)).erase
      (files.place temporary) = files.entries.erase (files.place temporary) := by
    apply SortedMap.ext_get?
    intro location
    rw [SortedMap.get?_erase, SortedMap.get?_erase, SortedMap.get?_insert]
    split <;> simp_all
  exact congrArg (fun entries =>
    { files with entries := entries.insert (files.place path) (.file data) }) entries

section Temporary

variable (free : files.entry? (files.place temporary) ≠ some .directory)
  (located : files.locate temporary false = .ok (files.place temporary))
include free located

/-- What is added to an empty temporary file is all that it holds. -/
theorem append_put_iff (data : Bytes) :
    (files.put (files.place temporary) (.file [])).append temporary data = .ok after ↔
      files.refuses .append (files.place temporary) = false ∧
        after = files.put (files.place temporary) (.file data) := by
  constructor
  · intro appended
    obtain ⟨_, found, appended⟩ := bind_eq_ok_iff.mp appended
    obtain ⟨rfl, -, allowed⟩ := (findFile_put_iff free []).mp found
    refine ⟨allowed, ?_⟩
    rw [← Except.ok.inj appended, put_put]
    rfl
  · rintro ⟨allowed, rfl⟩
    refine bind_eq_ok_iff.mpr ⟨_, (findFile_put_iff free []).mpr ⟨rfl, located, allowed⟩, ?_⟩
    rw [← put_put (files.place temporary) (.file []) (.file data)]
    rfl

/-- Finding a temporary file, as for handing over or storing what was written, changes nothing. -/
theorem findFile_put_bind_iff (content : Bytes) {access : Access} :
    (do
      let _ ← (files.put (files.place temporary) (.file content)).findFile temporary access
      return files.put (files.place temporary) (.file content)) = Except.ok after ↔
      files.refuses access (files.place temporary) = false ∧
        after = files.put (files.place temporary) (.file content) := by
  constructor
  · intro done
    obtain ⟨_, found, done⟩ := bind_eq_ok_iff.mp done
    cases done
    exact ⟨((findFile_put_iff free content).mp found).2.2, rfl⟩
  · rintro ⟨allowed, rfl⟩
    exact bind_eq_ok_iff.mpr ⟨_, (findFile_put_iff free content).mpr ⟨rfl, located, allowed⟩, rfl⟩

/-- Moving a temporary file to its place replaces what stood there. -/
theorem rename_put_iff (apart : files.place temporary ≠ files.place path) (data : Bytes) :
    (files.put (files.place temporary) (.file data)).rename temporary path = .ok after ↔
      (files.refuses .rename (files.place temporary) = false ∧
        files.locate path false = .ok (files.place path) ∧
        files.entry? (files.place path) ≠ some .directory ∧
        files.refuses .rename (files.place path) = false) ∧
      after = files.replaced temporary path data := by
  obtain ⟨extended, narrowed⟩ := extends_put free data
  have stands : FileSystem.entry? (files.put (files.place temporary) (.file data)) (files.place path) =
      files.entry? (files.place path) := by
    rw [entry?_put (ne_nil_of_entry?_ne free), if_neg apart.symm]
  have moves := @rename_eq_ok_iff (files.put (files.place temporary) (.file data)) after temporary path
    apart
  constructor
  · intro renamed
    obtain ⟨content, found, pathLocated, pathFree, taken, rfl⟩ := moves.mp renamed
    obtain ⟨same, -, movable⟩ := (findFile_put_iff free data).mp found
    cases same
    exact ⟨⟨movable, narrowed.locate_eq_ok pathLocated, stands ▸ pathFree, taken⟩, replaced_put data⟩
  · rintro ⟨⟨movable, pathLocated, pathFree, taken⟩, rfl⟩
    exact moves.mpr ⟨data, (findFile_put_iff free data).mpr ⟨rfl, located, movable⟩,
      extended.locate_eq_ok pathLocated, stands ▸ pathFree, taken, (replaced_put data).symm⟩

end Temporary

/-- What stands anywhere once a file has been replaced. -/
theorem entry?_replaced (data : Bytes) (notRoot : files.place path ≠ [])
    (temporaryNotRoot : files.place temporary ≠ []) (location : Location) :
    FileSystem.entry? (files.replaced temporary path data) location =
      if location = files.place path then some (.file data)
      else if location = files.place temporary then none
      else files.entry? location := by
  let erased : FileSystem := { files with entries := files.entries.erase (files.place temporary) }
  change FileSystem.entry? (erased.put (files.place path) (.file data)) location = _
  have gone : erased.entry? location =
      if location = files.place temporary then none else files.entry? location := by
    rw [entry?_erase]
    by_cases same : location = files.place temporary
    · rw [if_pos ⟨same, same ▸ temporaryNotRoot⟩, if_pos same]
    · rw [if_neg fun both => same both.1, if_neg same]
  rw [entry?_put notRoot, gone]

end FileSystem

namespace Program

open FileSystem

variable {files : FileSystem} {temporary path : Path} {data : Bytes}

/-- Replacing a file succeeds if it can be replaced, and only then. -/
theorem leaves_replace_iff (apart : files.place temporary ≠ files.place path) :
    (replace temporary path data).run.Leaves files fun answer after =>
      (answer = .ok () ↔ files.Replaceable temporary path) ∧
        (answer = .ok () → after = files.replaced temporary path data) := by
  have fails {after : FileSystem} (error : FileError) (not : ¬files.Replaceable temporary path) :
      ((.error error : Except FileError Unit) = .ok () ↔ files.Replaceable temporary path) ∧
        ((.error error : Except FileError Unit) = .ok () →
          after = files.replaced temporary path data) := by
    refine ⟨⟨fun wrong => ?_, fun can => absurd can not⟩, fun wrong => ?_⟩
    · cases wrong
    · cases wrong
  have creates (after : FileSystem) : files.create temporary = .ok after ↔
      (files.locate temporary false = .ok (files.place temporary) ∧
        files.entry? (files.place temporary) ≠ some .directory ∧
        files.refuses .create (files.place temporary) = false) ∧
      after = files.put (files.place temporary) (.file []) := by
    rw [create_eq_ok_iff, and_assoc, and_assoc]
  apply leaves_bind_of_failing.mpr
  refine leaves_change_iff rfl creates (fun error cannot => fails error fun can =>
    cannot ⟨can.temporary_located, can.temporary_free, can.allowed .create (by simp)⟩) ?_
  rintro ⟨located, free, creatable⟩
  apply leaves_bind_of_failing.mpr
  refine leaves_change_iff rfl (fun _ => append_put_iff free located data)
    (fun error cannot => fails error fun can => cannot (can.allowed .append (by simp))) ?_
  intro appendable
  apply leaves_bind_of_failing.mpr
  refine leaves_change_iff rfl (fun _ => findFile_put_bind_iff free located data)
    (fun error cannot => fails error fun can => cannot (can.allowed .flush (by simp))) ?_
  intro flushable
  apply leaves_bind_of_failing.mpr
  refine leaves_change_iff rfl (fun _ => findFile_put_bind_iff free located data)
    (fun error cannot => fails error fun can => cannot (can.allowed .sync (by simp))) ?_
  intro syncable
  refine leaves_change_iff rfl (fun _ => rename_put_iff free located apart data)
    (fun error cannot => fails error fun can =>
      cannot ⟨can.allowed .rename (by simp), can.located, can.free, can.taken⟩) ?_
  rintro ⟨movable, pathLocated, pathFree, taken⟩
  refine ⟨⟨fun _ => ⟨located, pathLocated, free, pathFree, ?_, taken⟩, fun _ => rfl⟩, fun _ => rfl⟩
  simp only [List.mem_cons, List.not_mem_nil, or_false, forall_eq_or_imp, forall_eq]
  exact ⟨creatable, appendable, flushable, syncable, movable⟩

/-- Writing a file whose directory is ready succeeds if it can be replaced, and only then. -/
theorem leaves_replaceOrClean_iff
    (apart : files.place (path.temporary files.process) ≠ files.place path) :
    (replaceOrClean path data).Leaves files fun answer after =>
      (answer = .ok () ↔ files.Replaceable (path.temporary files.process) path) ∧
        (answer = .ok () → after = files.replaced (path.temporary files.process) path data) := by
  apply leaves_bind.mpr
  rw [leaves_ask, FileRequest.run]
  apply leaves_bind.mpr
  apply (leaves_replace_iff apart).mono
  rintro answer after ⟨succeeds, leaves⟩
  cases answer with
  | ok value => exact leaves_pure.mpr ⟨succeeds, leaves⟩
  | error error =>
      apply leaves_bind.mpr
      rw [leaves_ask]
      apply leaves_pure.mpr
      refine ⟨⟨fun wrong => ?_, fun can => succeeds.mpr can⟩, fun wrong => ?_⟩
      · cases wrong
      · cases wrong

/-- A file that was written is found. -/
theorem pathExists_of_writeAtomically {after : FileSystem}
    (written : (writeAtomically path data).run files = (.ok (), after))
    (apart : files.place (path.temporary files.process) ≠ files.place path) : after.pathExists path := by
  have writes := (leaves_writeAtomically path data files).holds
  have added := (leaves_makeReady path files).holds.1
  rw [written] at writes
  rw [writeAtomically_eq, run_bind] at written
  rcases made : (makeReady path).run files with ⟨answer, between⟩
  rw [made] at written added
  cases answer with
  | error error => cases written
  | ok value =>
      rw [← added.place_eq, ← added.place_eq, ← added.process_eq] at apart
      have exactly := (@leaves_replaceOrClean_iff between path data apart).holds
      have replaces := (leaves_replaceOrClean path data between).holds
      dsimp only at written
      rw [written] at exactly replaces
      have located := replaces.changes.toExtends.locate_eq_ok (exactly.1.mp rfl).located
      have stands := fileAt?_eq_some_iff.mp (writes.written rfl)
      rw [← added.place_eq] at stands
      exact pathExists_iff.mpr ⟨_, _, find_of_locate located stands⟩

/-- A file that was written can be written again. -/
theorem writeAtomically_again {between : FileSystem}
    (written : (writeAtomically path data).run files = (.ok (), between))
    (apart : ∀ files : FileSystem, files.place (path.temporary files.process) ≠ files.place path)
    (more : Bytes) : ((writeAtomically path more).run between).1 = .ok () := by
  have ready : between.Ready path := by
    have writes := (leaves_writeAtomically path data files).holds
    rw [written] at writes
    exact writes.ready rfl
  rw [run_writeAtomically_of_makeReady (run_makeReady_of_ready ready)]
  rcases made : (makeReady path).run files with ⟨answer, readied⟩
  rw [writeAtomically_eq, run_bind, made] at written
  cases answer with
  | error error => cases written
  | ok value =>
      dsimp only at written
      have extended := (leaves_replaceOrClean path data readied).holds.changes.toExtends
      have does := (@leaves_replaceOrClean_iff readied path data (apart readied)).holds
      rw [written] at extended does
      have can := does.1.mp rfl
      have left : between = readied.replaced (path.temporary readied.process) path data := does.2 rfl
      have same : between.process = readied.process ∧ between.refuses = readied.refuses := by
        rw [left]
        exact ⟨rfl, rfl⟩
      have stands := entry?_replaced data (ne_nil_of_entry?_ne can.free)
        (ne_nil_of_entry?_ne can.temporary_free)
      rw [← left] at stands
      apply (@leaves_replaceOrClean_iff between path more (apart between)).holds.1.mpr
      rw [same.1]
      refine ⟨?_, ?_, ?_, ?_, ?_, ?_⟩
      · rw [extended.place_eq]
        exact extended.locate_eq_ok can.temporary_located
      · rw [extended.place_eq]
        exact extended.locate_eq_ok can.located
      · rw [extended.place_eq, stands, if_neg (apart readied), if_pos rfl]
        simp
      · rw [extended.place_eq, stands, if_pos rfl]
        simp
      · rw [extended.place_eq, same.2]
        exact can.allowed
      · rw [extended.place_eq, same.2]
        exact can.taken

/-- Writing a file changes nothing but it, its temporary file, and directories that are made. -/
theorem agrees_writeAtomically (path : Path) (data : Bytes) (files : FileSystem) :
    Agrees (files.MayChange path) files ((writeAtomically path data).run files).2 := by
  have keeps : Agrees _ files ((writeAtomically path data).run files).2 :=
    (within_writeAtomically path data).keeps
  have writes := (leaves_writeAtomically path data files).holds
  refine ⟨keeps.workingDirectory_eq, keeps.process_eq, keeps.refuses_eq, keeps.root_eq, ?_⟩
  intro location outside
  simp only [MayChange, not_or, not_and] at outside
  obtain ⟨other, notTemporary, stands⟩ := outside
  by_cases named : ∃ named ∈ path.writing files.process, location = files.place named
  · obtain ⟨named, member, rfl⟩ := named
    have onWay : files.place named ∈ files.way path :=
      List.mem_flatMap.mpr ⟨named, member, files.place_mem_trail named⟩
    cases entry : files.entry? (files.place named) with
    | none => exact absurd entry (stands onWay)
    | some entry' =>
        cases entry' with
        | directory => exact writes.directory_stays _ entry
        | file content =>
            have same := writes.fileAt?_eq _ notTemporary other
            rw [fileAt?_eq_some_iff.mpr entry] at same
            exact fileAt?_eq_some_iff.mp same
  · exact keeps.entry?_eq location fun ⟨named', member, same⟩ => named ⟨named', member, same⟩

/-- What stands at a location is a directory, or a file with its content, or nothing. -/
theorem entry?_eq_of_fileAt? {after : FileSystem} {location : Location}
    (file : after.fileAt? location = files.fileAt? location)
    (directory : after.entry? location = some .directory ↔ files.entry? location = some .directory) :
    after.entry? location = files.entry? location := by
  rw [fileAt?, fileAt?] at file
  rcases first : files.entry? location with _ | (_ | _) <;>
    rcases second : after.entry? location with _ | (_ | _) <;> simp_all

/-- What stands in the place of a file that could not be replaced is what stood there. -/
theorem Replaces.entry?_eq {answer : Except FileError Unit} {after : FileSystem}
    (replaces : Replaces temporary path data files answer after) (failed : answer ≠ .ok ())
    (apart : files.place temporary ≠ files.place path) :
    after.entry? (files.place path) = files.entry? (files.place path) :=
  entry?_eq_of_fileAt? (replaces.kept failed apart.symm)
    ⟨replaces.changes.directory_of_directory _, replaces.changes.directory_stays _⟩

/-- A file that could not be written is what it was, unless a directory was made in its place. -/
theorem entry?_of_failure (failed : ((writeAtomically path data).run files).1 ≠ .ok ())
    (above : files.place path ∉ files.wayAbove path)
    (apart : files.place (path.temporary files.process) ≠ files.place path) :
    FileSystem.entry? ((writeAtomically path data).run files).2 (files.place path) =
      files.entry? (files.place path) := by
  have keeps : Agrees _ files ((makeReady path).run files).2 := (within_makeReady path).keeps
  have added := (leaves_makeReady path files).holds.1
  have stays : FileSystem.entry? ((makeReady path).run files).2 (files.place path) =
      files.entry? (files.place path) := by
    refine keeps.entry?_eq _ fun ⟨directory, member, same⟩ => above ?_
    rw [same]
    exact List.mem_flatMap.mpr ⟨directory, member, files.place_mem_trail directory⟩
  rw [writeAtomically_eq, run_bind] at failed ⊢
  rcases ran : (makeReady path).run files with ⟨made, between⟩
  rw [ran] at failed stays added
  cases made with
  | error error => exact stays
  | ok value =>
      have replaces := (leaves_replaceOrClean path data between).holds
      rw [added.process_eq] at replaces
      dsimp only at failed ⊢
      rw [← stays, ← added.place_eq]
      refine replaces.entry?_eq failed ?_
      rw [added.place_eq, added.place_eq]
      exact apart

end Program

end SceneForge
