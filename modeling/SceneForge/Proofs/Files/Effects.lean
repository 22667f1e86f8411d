import SceneForge.Files.Program
import SceneForge.Proofs.Files.Joining

/-!
# Effects of operations on files

What operations change, place by place. Making a directory changes no file; every other
operation keeps the directories as they are, and changes files only at the places that
it names.
-/

namespace SceneForge

namespace FileSystem

/-- The content of the file at a location. -/
def fileAt? (files : FileSystem) (location : Location) : Option Bytes :=
  match files.entry? location with
  | some (.file content) => some content
  | _ => none

theorem fileAt?_eq_some_iff {files : FileSystem} {location : Location} {content : Bytes} :
    files.fileAt? location = some content ↔ files.entry? location = some (.file content) := by
  rw [fileAt?]
  cases files.entry? location with
  | none => simp
  | some entry => cases entry <;> simp

/-- Paths still begin in the same place, and no directory has gone. -/
structure Extends (files after : FileSystem) : Prop where
  workingDirectory_eq : after.workingDirectory = files.workingDirectory
  directory_stays : ∀ location, files.entry? location = some .directory →
    after.entry? location = some .directory

/-- Directories have been made, and no file has changed. -/
structure AddsDirectories (files after : FileSystem) : Prop extends Extends files after where
  process_eq : after.process = files.process
  fileAt?_eq : ∀ location, after.fileAt? location = files.fileAt? location

/-- Files have changed at some locations at most, and directories are what they were. -/
structure Changes (changed : Location → Prop) (files after : FileSystem) : Prop
    extends Extends files after where
  process_eq : after.process = files.process
  directory_of_directory : ∀ location, after.entry? location = some .directory →
    files.entry? location = some .directory
  fileAt?_eq : ∀ location, ¬ changed location → after.fileAt? location = files.fileAt? location

theorem Extends.refl (files : FileSystem) : Extends files files :=
  ⟨rfl, fun _ directory => directory⟩

theorem Extends.trans {files between after : FileSystem} (first : Extends files between)
    (second : Extends between after) : Extends files after where
  workingDirectory_eq := second.workingDirectory_eq.trans first.workingDirectory_eq
  directory_stays location directory :=
    second.directory_stays location (first.directory_stays location directory)

theorem Extends.place_eq {files after : FileSystem} (extended : Extends files after) (path : Path) :
    after.place path = files.place path := by
  rw [place, place, extended.workingDirectory_eq]

theorem AddsDirectories.refl (files : FileSystem) : AddsDirectories files files :=
  ⟨.refl files, rfl, fun _ => rfl⟩

theorem AddsDirectories.trans {files between after : FileSystem} (first : AddsDirectories files between)
    (second : AddsDirectories between after) : AddsDirectories files after where
  toExtends := first.toExtends.trans second.toExtends
  process_eq := second.process_eq.trans first.process_eq
  fileAt?_eq location := (second.fileAt?_eq location).trans (first.fileAt?_eq location)

theorem Changes.refl (changed : Location → Prop) (files : FileSystem) : Changes changed files files where
  toExtends := .refl files
  process_eq := rfl
  directory_of_directory _ directory := directory
  fileAt?_eq _ _ := rfl

theorem Changes.trans {changed : Location → Prop} {files between after : FileSystem}
    (first : Changes changed files between) (second : Changes changed between after) :
    Changes changed files after where
  toExtends := first.toExtends.trans second.toExtends
  process_eq := second.process_eq.trans first.process_eq
  directory_of_directory location directory :=
    first.directory_of_directory location (second.directory_of_directory location directory)
  fileAt?_eq location unchanged :=
    (second.fileAt?_eq location unchanged).trans (first.fileAt?_eq location unchanged)

theorem Changes.mono {changed wider : Location → Prop} {files after : FileSystem}
    (changes : Changes changed files after) (narrow : ∀ location, changed location → wider location) :
    Changes wider files after where
  toExtends := changes.toExtends
  process_eq := changes.process_eq
  directory_of_directory := changes.directory_of_directory
  fileAt?_eq location unchanged :=
    changes.fileAt?_eq location fun inside => unchanged (narrow location inside)

theorem entry?_put {files : FileSystem} {location : Location} (notRoot : location ≠ [])
    (entry : Entry) (other : Location) :
    FileSystem.entry? (files.put location entry) other =
      if other = location then some entry else files.entry? other := by
  unfold entry? put
  cases other with
  | nil => simp [Ne.symm notRoot]
  | cons name names => simp [SortedMap.get?_insert]

/-- Nothing but a directory is at the root. -/
theorem ne_nil_of_entry?_ne {files : FileSystem} {location : Location}
    (other : files.entry? location ≠ some .directory) : location ≠ [] := by
  intro root
  subst root
  exact other rfl

/-- Putting a file where no directory is changes this file only. -/
theorem changes_put_file {files : FileSystem} {location : Location} (content : Bytes)
    (noDirectory : files.entry? location ≠ some .directory) :
    Changes (· = location) files (files.put location (.file content)) where
  workingDirectory_eq := rfl
  process_eq := rfl
  directory_stays other directory := by
    rw [entry?_put (ne_nil_of_entry?_ne noDirectory), if_neg, directory]
    intro same
    exact noDirectory (same ▸ directory)
  directory_of_directory other directory := by
    rw [entry?_put (ne_nil_of_entry?_ne noDirectory)] at directory
    split at directory
    · cases directory
    · exact directory
  fileAt?_eq other different := by
    rw [fileAt?, fileAt?, entry?_put (ne_nil_of_entry?_ne noDirectory), if_neg different]

theorem fileAt?_put_file {files : FileSystem} {location : Location} (content : Bytes)
    (noDirectory : files.entry? location ≠ some .directory) :
    (files.put location (.file content)).fileAt? location = some content := by
  rw [fileAt?_eq_some_iff, entry?_put (ne_nil_of_entry?_ne noDirectory), if_pos rfl]

theorem entry?_erase {files : FileSystem} (location other : Location) :
    entry? { files with entries := files.entries.erase location } other =
      if other = location ∧ other ≠ [] then none else files.entry? other := by
  unfold entry?
  cases other with
  | nil => simp
  | cons name names => simp [SortedMap.get?_erase]

/-- Removing a file changes this file only. -/
theorem changes_erase {files : FileSystem} {location : Location} {content : Bytes}
    (file : files.entry? location = some (.file content)) :
    Changes (· = location) files { files with entries := files.entries.erase location } where
  workingDirectory_eq := rfl
  process_eq := rfl
  directory_stays other directory := by
    rw [entry?_erase, if_neg, directory]
    intro same
    rw [same.1, file] at directory
    cases directory
  directory_of_directory other directory := by
    rw [entry?_erase] at directory
    split at directory
    · cases directory
    · exact directory
  fileAt?_eq other different := by
    rw [fileAt?, fileAt?, entry?_erase, if_neg fun same => different same.1]

/-- Names that can be followed still can be when directories are added. -/
theorem Extends.follow_eq_ok {files after : FileSystem} (extended : Extends files after)
    {start location : Location} {names : List Bytes}
    (followed : files.follow start names = .ok location) :
    after.follow start names = .ok location := by
  induction names generalizing start with
  | nil => exact followed
  | cons name names ih =>
      obtain ⟨required, fits, followed⟩ := follow_cons_eq_ok_iff.mp followed
      rw [requireDirectory_eq_ok_iff] at required
      apply follow_cons_eq_ok_iff.mpr
      exact ⟨requireDirectory_eq_ok_iff.mpr (extended.directory_stays start required), fits,
        ih followed⟩

theorem Extends.namesOf_eq {files after : FileSystem} (extended : Extends files after) (path : Path) :
    after.namesOf path = files.namesOf path := by
  rw [namesOf, namesOf, extended.workingDirectory_eq]

/-- A path that leads to a directory keeps leading to it. -/
theorem Extends.isDirectory {files after : FileSystem} (extended : Extends files after) {path : Path}
    (directory : files.isDirectory path) : after.isDirectory path := by
  obtain ⟨location, found⟩ := isDirectory_iff.mp directory
  obtain ⟨start, names, named, followed, stands⟩ := find_eq_ok_iff.mp found
  apply isDirectory_iff.mpr
  refine ⟨location, find_eq_ok_iff.mpr ⟨start, names, ?_, extended.follow_eq_ok followed, ?_⟩⟩
  · rw [extended.namesOf_eq, named]
  · exact extended.directory_stays location stands

theorem makeDirectory_eq_ok {files after : FileSystem} {path : Path}
    (made : files.makeDirectory path = .ok after) :
    files.locate path true = .ok (files.place path) ∧ files.entry? (files.place path) = none ∧
      after = files.put (files.place path) .directory := by
  obtain ⟨location, located, made⟩ := bind_eq_ok_iff.mp made
  obtain rfl := locate_eq_ok located
  split at made
  next => cases made
  next nothing =>
    obtain ⟨_, _, made⟩ := bind_eq_ok_iff.mp made
    cases made
    exact ⟨located, nothing, rfl⟩

/-- Making a directory changes no file. -/
theorem makeDirectory_adds {files after : FileSystem} {path : Path}
    (made : files.makeDirectory path = .ok after) : AddsDirectories files after := by
  obtain ⟨-, nothing, rfl⟩ := makeDirectory_eq_ok made
  have notRoot : files.place path ≠ [] := by
    apply files.ne_nil_of_entry?_ne
    simp [nothing]
  constructor
  · constructor
    · rfl
    · intro location directory
      rw [entry?_put notRoot]
      split
      · rfl
      · exact directory
  · rfl
  · intro location
    rw [fileAt?, fileAt?, entry?_put notRoot]
    by_cases same : location = files.place path
    · rw [if_pos same, same, nothing]
    · rw [if_neg same]

/-- A directory that has been made is found. -/
theorem isDirectory_of_makeDirectory {files after : FileSystem} {path : Path}
    (made : files.makeDirectory path = .ok after) : after.isDirectory path := by
  have added := makeDirectory_adds made
  obtain ⟨located, nothing, rfl⟩ := makeDirectory_eq_ok made
  obtain ⟨start, before, last, skipped, parent, named, slashes, notBlank, notAbove, short, followed,
    required, child⟩ := exists_of_locate_eq_ok located
  have notRoot : files.place path ≠ [] := by
    apply files.ne_nil_of_entry?_ne
    simp [nothing]
  have stands : FileSystem.entry? (files.put (files.place path) .directory) (files.place path) =
      some .directory := by
    rw [entry?_put notRoot, if_pos rfl]
  have descends : Location.descend parent last = files.place path := by
    rw [Location.descend, notBlank, if_neg notAbove, child]
    rfl
  apply isDirectory_iff.mpr
  refine ⟨files.place path, find_eq_ok_iff.mpr
    ⟨start, before ++ [last] ++ skipped, (added.namesOf_eq path).trans named, ?_, stands⟩⟩
  rw [List.append_assoc, follow_append_eq_ok_iff]
  refine ⟨parent, added.follow_eq_ok followed, follow_cons_eq_ok_iff.mpr ⟨?_, ?_, ?_⟩⟩
  · exact requireDirectory_eq_ok_iff.mpr
      (added.directory_stays parent (requireDirectory_eq_ok_iff.mp required))
  · exact .inr (.inr short)
  · rw [descends]
    exact follow_of_blank (isBlank_of_eq_empty slashes) (requireDirectory_eq_ok_iff.mpr stands)

/-- Where something stands already, making a directory does not fail for want of the
directory above it. -/
theorem makeDirectory_ne_notFound {files : FileSystem} {path : Path} {location : Location}
    {entry : Entry} (found : files.find path = .ok (location, entry)) :
    files.makeDirectory path ≠ .error .notFound := by
  intro failed
  obtain ⟨start, names, named, followed, stands⟩ := find_eq_ok_iff.mp found
  rcases bind_eq_error_iff.mp failed with failed | ⟨other, located, failed⟩
  · rcases bind_eq_error_iff.mp failed with failed | ⟨⟨_, _⟩, same, failed⟩
    · rw [named] at failed
      cases failed
    · rw [named] at same
      cases same
      dsimp only at failed
      split at failed
      next => cases failed
      next last before ending =>
        obtain ⟨skipped, names, -, -⟩ := names_eq_of_dropWhile ending
        rw [names, List.append_assoc, follow_append_eq_ok_iff] at followed
        obtain ⟨parent, above, followed⟩ := followed
        have required := (follow_cons_eq_ok_iff.mp followed).1
        rw [above] at failed
        rcases bind_eq_error_iff.mp failed with failed | ⟨_, same, failed⟩
        · cases failed
        · cases same
          rcases bind_eq_error_iff.mp failed with failed | ⟨_, _, failed⟩
          · rw [required] at failed
            cases failed
          · split at failed
            next => cases failed
            next =>
              split at failed
              next => cases failed
              next =>
                split at failed
                next => cases failed
                next => cases failed
  · obtain rfl := locate_eq_ok located
    obtain ⟨rfl, _⟩ := find_eq_ok found
    rw [stands] at failed
    cases failed

/-- Creating a file leaves it empty. -/
theorem create_eq_ok {files after : FileSystem} {path : Path}
    (created : files.create path = .ok after) :
    Changes (· = files.place path) files after ∧ after.fileAt? (files.place path) = some [] := by
  obtain ⟨location, located, created⟩ := bind_eq_ok_iff.mp created
  obtain rfl := locate_eq_ok located
  split at created
  next => cases created
  next noDirectory =>
    obtain ⟨_, _, created⟩ := bind_eq_ok_iff.mp created
    cases created
    exact ⟨changes_put_file [] noDirectory, fileAt?_put_file [] noDirectory⟩

/-- What is read of a path is what stands at its place. -/
theorem read_eq_ok {files : FileSystem} {path : Path} {content : Bytes}
    (read : files.read path = .ok content) : files.fileAt? (files.place path) = some content := by
  obtain ⟨⟨location, entry⟩, found, read⟩ := bind_eq_ok_iff.mp read
  obtain ⟨rfl, stands⟩ := find_eq_ok found
  cases entry with
  | directory => cases read
  | file other =>
      obtain ⟨_, _, read⟩ := bind_eq_ok_iff.mp read
      cases read
      exact fileAt?_eq_some_iff.mpr stands

theorem findFile_eq_ok {files : FileSystem} {path : Path} {access : Access} {location : Location}
    {content : Bytes} (found : files.findFile path access = .ok (location, content)) :
    location = files.place path ∧ files.entry? (files.place path) = some (.file content) := by
  obtain ⟨other, located, found⟩ := bind_eq_ok_iff.mp found
  obtain rfl := locate_eq_ok located
  split at found
  next => cases found
  next => cases found
  next stands =>
    obtain ⟨_, _, found⟩ := bind_eq_ok_iff.mp found
    cases found
    exact ⟨rfl, stands⟩

/-- Appending needs a file, which then has the data at its end. -/
theorem append_eq_ok {files after : FileSystem} {path : Path} {data : Bytes}
    (appended : files.append path data = .ok after) :
    ∃ content, files.fileAt? (files.place path) = some content ∧
      Changes (· = files.place path) files after ∧
        after.fileAt? (files.place path) = some (content ++ data) := by
  obtain ⟨⟨location, content⟩, found, appended⟩ := bind_eq_ok_iff.mp appended
  obtain ⟨rfl, stands⟩ := findFile_eq_ok found
  cases appended
  have noDirectory : files.entry? (files.place path) ≠ some .directory := by simp [stands]
  exact ⟨content, fileAt?_eq_some_iff.mpr stands, changes_put_file _ noDirectory,
    fileAt?_put_file _ noDirectory⟩

theorem flush_eq_ok {files after : FileSystem} {path : Path}
    (flushed : files.flush path = .ok after) : after = files := by
  obtain ⟨_, _, flushed⟩ := bind_eq_ok_iff.mp flushed
  exact (Except.ok.inj flushed).symm

theorem sync_eq_ok {files after : FileSystem} {path : Path}
    (synced : files.sync path = .ok after) : after = files := by
  obtain ⟨_, _, synced⟩ := bind_eq_ok_iff.mp synced
  exact (Except.ok.inj synced).symm

theorem fileAt?_erase {files : FileSystem} {location : Location} (notRoot : location ≠ []) :
    fileAt? { files with entries := files.entries.erase location } location = none := by
  rw [fileAt?, entry?_erase, if_pos ⟨rfl, notRoot⟩]

/-- A file that is removed is no longer there. -/
theorem remove_eq_ok {files after : FileSystem} {path : Path}
    (removed : files.remove path = .ok after) :
    Changes (· = files.place path) files after ∧ after.fileAt? (files.place path) = none := by
  obtain ⟨⟨location, content⟩, found, removed⟩ := bind_eq_ok_iff.mp removed
  obtain ⟨rfl, stands⟩ := findFile_eq_ok found
  cases removed
  have notRoot : files.place path ≠ [] := files.ne_nil_of_entry?_ne (by simp [stands])
  exact ⟨changes_erase stands, fileAt?_erase notRoot⟩

/-- Renaming changes what is at the two places, and the file is what it was. -/
theorem rename_eq_ok {files after : FileSystem} {source target : Path}
    (renamed : files.rename source target = .ok after) :
    Changes (fun location => location = files.place source ∨ location = files.place target)
        files after ∧
      ∃ content, files.fileAt? (files.place source) = some content ∧
        after.fileAt? (files.place target) = some content ∧
        (files.place source ≠ files.place target → after.fileAt? (files.place source) = none) := by
  obtain ⟨⟨location, content⟩, found, renamed⟩ := bind_eq_ok_iff.mp renamed
  obtain ⟨rfl, stands⟩ := findFile_eq_ok found
  obtain ⟨new, located, renamed⟩ := bind_eq_ok_iff.mp renamed
  obtain rfl := locate_eq_ok located
  have there := fileAt?_eq_some_iff.mpr stands
  split at renamed
  next => cases renamed
  next noDirectory =>
    obtain ⟨_, _, renamed⟩ := bind_eq_ok_iff.mp renamed
    split at renamed
    next same =>
      cases renamed
      exact ⟨.refl _ files, content, there, same ▸ there, fun differ => absurd same.symm differ⟩
    next differ =>
      cases renamed
      have erased := changes_erase stands
      have notRoot : files.place source ≠ [] := files.ne_nil_of_entry?_ne (by simp [stands])
      have stillNone : entry? { files with entries := files.entries.erase (files.place source) }
          (files.place target) ≠ some .directory := by
        rw [entry?_erase, if_neg fun same => differ same.1]
        exact noDirectory
      have put := changes_put_file content stillNone
      refine ⟨(erased.mono fun _ here => .inl here).trans (put.mono fun _ here => .inr here),
        content, there, fileAt?_put_file content stillNone, ?_⟩
      intro apart
      exact (put.fileAt?_eq (files.place source) apart).trans (fileAt?_erase notRoot)

end FileSystem

end SceneForge
