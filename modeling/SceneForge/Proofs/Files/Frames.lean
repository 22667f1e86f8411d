import SceneForge.Proofs.Files.AtomicWriting

/-!
# Frames of programs

What a program does is decided by what stands on the way of the paths that it names: among
file systems that differ elsewhere it gives the same value and makes the same changes, and
it changes nothing but what stands at the places of these paths.
-/

namespace SceneForge

/-- The locations that names lead through from one on, the first and the last included. -/
def Location.trail (start : Location) : (names : List Bytes) → List Location
  | [] => [start]
  | name :: rest => start :: trail (start.descend name) rest

namespace Location

theorem start_mem_trail (start : Location) (names : List Bytes) : start ∈ start.trail names := by
  cases names with
  | nil => exact List.mem_cons_self
  | cons name rest => exact List.mem_cons_self

theorem foldl_mem_trail (start : Location) (names : List Bytes) :
    names.foldl descend start ∈ start.trail names := by
  induction names generalizing start with
  | nil => exact List.mem_cons_self
  | cons name rest ih => exact List.mem_cons_of_mem start (ih (start.descend name))

theorem mem_trail_append {location start : Location} {front : List Bytes} (rest : List Bytes)
    (member : location ∈ start.trail front) : location ∈ start.trail (front ++ rest) := by
  induction front generalizing start with
  | nil =>
      obtain rfl := List.mem_singleton.mp member
      exact start_mem_trail location rest
  | cons name front ih =>
      rcases List.mem_cons.mp member with rfl | later
      · exact List.mem_cons_self
      · exact List.mem_cons_of_mem start (ih later)

end Location

namespace FileSystem

/-- The locations that a path leads through. -/
def trail (files : FileSystem) (path : Path) : List Location :=
  Location.trail (if path.isAbsolute then [] else files.workingDirectory)
    (Path.splitNames path.bytes)

theorem place_mem_trail (files : FileSystem) (path : Path) :
    files.place path ∈ files.trail path :=
  Location.foldl_mem_trail _ _

/-- File systems of one process that differ at some locations at most. -/
structure Agrees (apart : Location → Prop) (files other : FileSystem) : Prop where
  workingDirectory_eq : other.workingDirectory = files.workingDirectory
  process_eq : other.process = files.process
  refuses_eq : other.refuses = files.refuses
  /-- The root is always there, whatever is listed for it. -/
  root_eq : other.entries.get? [] = files.entries.get? []
  entry?_eq : ∀ location, ¬apart location → other.entry? location = files.entry? location

variable {apart wider : Location → Prop} {files other third : FileSystem}

namespace Agrees

theorem refl (apart : Location → Prop) (files : FileSystem) : Agrees apart files files :=
  ⟨rfl, rfl, rfl, rfl, fun _ _ => rfl⟩

theorem symm (agrees : Agrees apart files other) : Agrees apart other files where
  workingDirectory_eq := agrees.workingDirectory_eq.symm
  process_eq := agrees.process_eq.symm
  refuses_eq := agrees.refuses_eq.symm
  root_eq := agrees.root_eq.symm
  entry?_eq location outside := (agrees.entry?_eq location outside).symm

theorem trans (first : Agrees apart files other) (second : Agrees apart other third) :
    Agrees apart files third where
  workingDirectory_eq := second.workingDirectory_eq.trans first.workingDirectory_eq
  process_eq := second.process_eq.trans first.process_eq
  refuses_eq := second.refuses_eq.trans first.refuses_eq
  root_eq := second.root_eq.trans first.root_eq
  entry?_eq location outside :=
    (second.entry?_eq location outside).trans (first.entry?_eq location outside)

theorem mono (agrees : Agrees apart files other) (narrow : ∀ location, apart location → wider location) :
    Agrees wider files other where
  workingDirectory_eq := agrees.workingDirectory_eq
  process_eq := agrees.process_eq
  refuses_eq := agrees.refuses_eq
  root_eq := agrees.root_eq
  entry?_eq location outside := agrees.entry?_eq location fun inside => outside (narrow location inside)

theorem place_eq (agrees : Agrees apart files other) (path : Path) :
    other.place path = files.place path := by
  rw [place, place, agrees.workingDirectory_eq]

theorem trail_eq (agrees : Agrees apart files other) (path : Path) :
    other.trail path = files.trail path := by
  rw [trail, trail, agrees.workingDirectory_eq]

/-- File systems that differ nowhere are the same. -/
theorem eq_of_nowhere (agrees : Agrees apart files other) (nowhere : ∀ location, ¬apart location) :
    other = files := by
  have entries : other.entries = files.entries := by
    apply SortedMap.ext_get?
    intro location
    cases location with
    | nil => exact agrees.root_eq
    | cons name names => exact agrees.entry?_eq (name :: names) (nowhere _)
  obtain ⟨_, _, _, _⟩ := files
  obtain ⟨_, _, _, _⟩ := other
  obtain ⟨rfl, rfl, rfl, -, -⟩ := agrees
  cases entries
  rfl

theorem requireDirectory_eq (agrees : Agrees apart files other) {location : Location}
    (outside : ¬apart location) :
    other.requireDirectory location = files.requireDirectory location := by
  rw [requireDirectory, requireDirectory, agrees.entry?_eq location outside]

theorem follow_eq (agrees : Agrees apart files other) {start : Location} {names : List Bytes}
    (clear : ∀ location ∈ start.trail names, ¬apart location) :
    other.follow start names = files.follow start names := by
  induction names generalizing start with
  | nil => rfl
  | cons name rest ih =>
      have later (location : Location) (member : location ∈ (start.descend name).trail rest) :
          ¬apart location :=
        clear location (List.mem_cons_of_mem start member)
      have followed := @ih (start.descend name) later
      rw [follow, follow, agrees.requireDirectory_eq (clear start List.mem_cons_self)]
      rw [Location.descend] at followed
      split_ifs at followed ⊢ <;> simp_all

theorem namesOf_eq (agrees : Agrees apart files other) (path : Path) :
    other.namesOf path = files.namesOf path := by
  rw [namesOf, namesOf, agrees.workingDirectory_eq]

theorem find_eq (agrees : Agrees apart files other) {path : Path}
    (clear : ∀ location ∈ files.trail path, ¬apart location) : other.find path = files.find path := by
  rw [find, find, agrees.namesOf_eq]
  refine bind_congr_of_ok fun ⟨start, names⟩ named => ?_
  obtain ⟨rfl, rfl⟩ := namesOf_eq_ok named
  dsimp only
  rw [agrees.follow_eq clear]
  refine bind_congr_of_ok fun location followed => ?_
  have inside : location ∈ files.trail path := by
    rw [follow_eq_ok followed]
    exact Location.foldl_mem_trail _ _
  rw [agrees.entry?_eq location (clear location inside)]

theorem locate_eq (agrees : Agrees apart files other) {path : Path} {directory : Bool}
    (clear : ∀ location ∈ files.trail path, ¬apart location) :
    other.locate path directory = files.locate path directory := by
  rw [locate, locate, agrees.namesOf_eq]
  refine bind_congr_of_ok fun ⟨start, names⟩ named => ?_
  obtain ⟨rfl, rfl⟩ := namesOf_eq_ok named
  dsimp only
  split
  next => rfl
  next last before ending =>
    obtain ⟨skipped, whole, -, -⟩ := names_eq_of_dropWhile ending
    let start : Location := if path.isAbsolute then [] else files.workingDirectory
    have above (location : Location) (member : location ∈ start.trail before.reverse) :
        ¬apart location := by
      apply clear
      rw [trail, whole, List.append_assoc]
      exact Location.mem_trail_append _ member
    rw [agrees.follow_eq above]
    refine bind_congr_of_ok fun parent followed => ?_
    have inside : parent ∈ start.trail before.reverse := by
      rw [follow_eq_ok followed]
      exact Location.foldl_mem_trail _ _
    rw [agrees.requireDirectory_eq (above parent inside)]

theorem allow_eq (agrees : Agrees apart files other) (access : Access) (location : Location) :
    other.allow access location = files.allow access location := by
  rw [allow, allow, agrees.refuses_eq]

theorem put (agrees : Agrees apart files other) {location : Location} (notRoot : location ≠ [])
    (entry : Entry) : Agrees apart (files.put location entry) (other.put location entry) where
  workingDirectory_eq := agrees.workingDirectory_eq
  process_eq := agrees.process_eq
  refuses_eq := agrees.refuses_eq
  root_eq := by
    simp only [FileSystem.put, SortedMap.get?_insert, if_neg notRoot.symm]
    exact agrees.root_eq
  entry?_eq other outside := by
    rw [entry?_put notRoot, entry?_put notRoot, agrees.entry?_eq other outside]

theorem erase (agrees : Agrees apart files other) {location : Location} (notRoot : location ≠ []) :
    Agrees apart { files with entries := files.entries.erase location }
      { other with entries := other.entries.erase location } where
  workingDirectory_eq := agrees.workingDirectory_eq
  process_eq := agrees.process_eq
  refuses_eq := agrees.refuses_eq
  root_eq := by
    simp only [SortedMap.get?_erase, if_neg notRoot.symm]
    exact agrees.root_eq
  entry?_eq other outside := by
    rw [entry?_erase, entry?_erase, agrees.entry?_eq other outside]

end Agrees

theorem agrees_put {location : Location} (notRoot : location ≠ []) (entry : Entry) :
    Agrees (· = location) files (files.put location entry) where
  workingDirectory_eq := rfl
  process_eq := rfl
  refuses_eq := rfl
  root_eq := by simp only [put, SortedMap.get?_insert, if_neg notRoot.symm]
  entry?_eq other outside := by rw [entry?_put notRoot, if_neg outside]

theorem agrees_erase {location : Location} (notRoot : location ≠ []) :
    Agrees (· = location) files { files with entries := files.entries.erase location } where
  workingDirectory_eq := rfl
  process_eq := rfl
  refuses_eq := rfl
  root_eq := by simp only [SortedMap.get?_erase, if_neg notRoot.symm]
  entry?_eq other outside := by rw [entry?_erase, if_neg fun same => outside same.1]

/-- Two changes fail alike, or leave file systems that differ at some locations at most. -/
inductive Alike (apart : Location → Prop) :
    Except FileError FileSystem → Except FileError FileSystem → Prop where
  | error (error : FileError) : Alike apart (.error error) (.error error)
  | ok {after otherAfter : FileSystem} (agrees : Agrees apart after otherAfter) :
      Alike apart (.ok after) (.ok otherAfter)

theorem Alike.bind {α : Type} {first : Except FileError α} {next otherNext : α → Except FileError FileSystem}
    (alike : ∀ value, first = .ok value → Alike apart (next value) (otherNext value)) :
    Alike apart (first >>= next) (first >>= otherNext) := by
  cases first with
  | error error => exact .error error
  | ok value => exact alike value rfl

theorem Alike.changed (agrees : Agrees apart files other) {change otherChange : Except FileError FileSystem}
    (alike : Alike apart change otherChange) :
    (other.changed otherChange).1 = (files.changed change).1 ∧
      Agrees apart (files.changed change).2 (other.changed otherChange).2 := by
  cases alike with
  | error error => exact ⟨rfl, agrees⟩
  | ok after => exact ⟨rfl, after⟩

/-- A path that is about to be changed does not name the root. -/
theorem place_ne_nil_of_locate {path : Path} {directory : Bool} {location : Location}
    (located : files.locate path directory = .ok location) : location ≠ [] := by
  obtain ⟨_, _, _, _, _, -, -, -, -, -, -, -, rfl⟩ := exists_of_locate_eq_ok located
  exact List.append_ne_nil_of_right_ne_nil _ (List.cons_ne_nil _ _)

theorem place_ne_nil_of_findFile {path : Path} {access : Access} {location : Location} {content : Bytes}
    (found : files.findFile path access = .ok (location, content)) : location ≠ [] := by
  obtain ⟨rfl, stands⟩ := findFile_eq_ok found
  exact files.ne_nil_of_entry?_ne (by simp [stands])

section Requests

variable {path : Path} (agrees : Agrees apart files other)
  (clear : ∀ location ∈ files.trail path, ¬apart location)
include agrees clear

theorem Agrees.read_eq : other.read path = files.read path := by
  rw [FileSystem.read, FileSystem.read, agrees.find_eq clear]
  refine bind_congr_of_ok fun ⟨location, entry⟩ found => ?_
  cases entry with
  | directory => rfl
  | file content =>
      dsimp only
      rw [agrees.allow_eq]

theorem Agrees.pathExists_eq : other.pathExists path = files.pathExists path := by
  rw [pathExists, pathExists, agrees.find_eq clear]

theorem Agrees.isDirectory_eq : other.isDirectory path = files.isDirectory path := by
  rw [FileSystem.isDirectory, FileSystem.isDirectory, agrees.find_eq clear]

theorem Agrees.entry?_place_eq : other.entry? (files.place path) = files.entry? (files.place path) :=
  agrees.entry?_eq _ (clear _ (files.place_mem_trail path))

theorem Agrees.makeDirectory : Alike apart (files.makeDirectory path) (other.makeDirectory path) := by
  rw [FileSystem.makeDirectory, FileSystem.makeDirectory, agrees.locate_eq clear]
  refine .bind fun location located => ?_
  obtain rfl := locate_eq_ok located
  rw [agrees.entry?_place_eq clear, agrees.allow_eq]
  cases files.entry? (files.place path) with
  | some entry => exact .error _
  | none => exact .bind fun _ _ => .ok (agrees.put (place_ne_nil_of_locate located) _)

theorem Agrees.create : Alike apart (files.create path) (other.create path) := by
  rw [FileSystem.create, FileSystem.create, agrees.locate_eq clear]
  refine .bind fun location located => ?_
  obtain rfl := locate_eq_ok located
  rw [agrees.entry?_place_eq clear, agrees.allow_eq]
  split
  · exact .error _
  · exact .bind fun _ _ => .ok (agrees.put (place_ne_nil_of_locate located) _)

theorem Agrees.findFile_eq (access : Access) :
    other.findFile path access = files.findFile path access := by
  rw [findFile, findFile, agrees.locate_eq clear]
  refine bind_congr_of_ok fun location located => ?_
  obtain rfl := locate_eq_ok located
  rw [agrees.entry?_place_eq clear]
  split
  · rfl
  · rfl
  · rw [agrees.allow_eq]

theorem Agrees.append (data : Bytes) : Alike apart (files.append path data) (other.append path data) := by
  rw [FileSystem.append, FileSystem.append, agrees.findFile_eq clear]
  exact .bind fun ⟨location, content⟩ found => .ok (agrees.put (place_ne_nil_of_findFile found) _)

theorem Agrees.flush : Alike apart (files.flush path) (other.flush path) := by
  rw [FileSystem.flush, FileSystem.flush, agrees.findFile_eq clear]
  exact .bind fun _ _ => .ok agrees

theorem Agrees.sync : Alike apart (files.sync path) (other.sync path) := by
  rw [FileSystem.sync, FileSystem.sync, agrees.findFile_eq clear]
  exact .bind fun _ _ => .ok agrees

theorem Agrees.remove : Alike apart (files.remove path) (other.remove path) := by
  rw [FileSystem.remove, FileSystem.remove, agrees.findFile_eq clear]
  exact .bind fun ⟨location, content⟩ found => .ok (agrees.erase (place_ne_nil_of_findFile found))

theorem Agrees.rename {target : Path} (targetClear : ∀ location ∈ files.trail target, ¬apart location) :
    Alike apart (files.rename path target) (other.rename path target) := by
  rw [FileSystem.rename, FileSystem.rename, agrees.findFile_eq clear, agrees.locate_eq targetClear]
  refine .bind fun ⟨old, content⟩ found => .bind fun new located => ?_
  obtain rfl := locate_eq_ok located
  rw [agrees.entry?_place_eq targetClear, agrees.allow_eq]
  split
  · exact .error _
  · refine .bind fun _ _ => ?_
    split
    · exact .ok agrees
    · exact .ok ((agrees.erase (place_ne_nil_of_findFile found)).put (place_ne_nil_of_locate located) _)

end Requests

end FileSystem

/-- The paths that a request names. -/
def FileRequest.paths {β : Type} : FileRequest β → List Path
  | process => []
  | read path | pathExists path | isDirectory path | makeDirectory path | create path
  | append path _ | flush path | sync path | remove path => [path]
  | rename source target => [source, target]

/-- The answers that a request may get from the file system of a process. -/
def FileRequest.Answers {β : Type} (process : String) : FileRequest β → β → Prop
  | .process, answer => answer = process
  | _, _ => True

namespace FileRequest

open FileSystem

variable {β : Type} {apart : Location → Prop} {files other : FileSystem}

theorem answers (request : FileRequest β) (files : FileSystem) :
    request.Answers files.process (request.run files).1 := by
  cases request with
  | process => rfl
  | _ => trivial

/-- A request has the same answer and the same effect wherever nothing differs on the way of
its paths. -/
theorem agrees (request : FileRequest β) (agrees : Agrees apart files other)
    (clear : ∀ path ∈ request.paths, ∀ location ∈ files.trail path, ¬apart location) :
    (request.run other).1 = (request.run files).1 ∧
      Agrees apart (request.run files).2 (request.run other).2 := by
  have first {path : Path} (named : path ∈ request.paths) := clear path named
  cases request with
  | process => exact ⟨agrees.process_eq, agrees⟩
  | read path => exact ⟨agrees.read_eq (first List.mem_cons_self), agrees⟩
  | pathExists path => exact ⟨agrees.pathExists_eq (first List.mem_cons_self), agrees⟩
  | isDirectory path => exact ⟨agrees.isDirectory_eq (first List.mem_cons_self), agrees⟩
  | makeDirectory path => exact (agrees.makeDirectory (first List.mem_cons_self)).changed agrees
  | create path => exact (agrees.create (first List.mem_cons_self)).changed agrees
  | append path data => exact (agrees.append (first List.mem_cons_self) data).changed agrees
  | flush path => exact (agrees.flush (first List.mem_cons_self)).changed agrees
  | sync path => exact (agrees.sync (first List.mem_cons_self)).changed agrees
  | remove path => exact (agrees.remove (first List.mem_cons_self)).changed agrees
  | rename source target =>
      have second := first (List.mem_cons_of_mem source List.mem_cons_self)
      exact (agrees.rename (first List.mem_cons_self) second).changed agrees

/-- A change that is made affects some locations at most. -/
theorem keeps_changed {change : Except FileError FileSystem}
    (keeps : ∀ after, change = .ok after → Agrees apart files after) :
    Agrees apart files (files.changed change).2 := by
  cases change with
  | error error => exact .refl apart files
  | ok after => exact keeps after rfl

/-- A request changes nothing but what stands at the places of its paths. -/
theorem keeps (request : FileRequest β) (files : FileSystem) :
    Agrees (fun location => ∃ path ∈ request.paths, location = files.place path) files
      (request.run files).2 := by
  cases request with
  | process | read _ | pathExists _ | isDirectory _ => exact .refl _ files
  | makeDirectory path =>
      refine keeps_changed fun after made => ?_
      obtain ⟨located, -, rfl⟩ := makeDirectory_eq_ok made
      exact (agrees_put (place_ne_nil_of_locate located) _).mono fun _ same =>
        ⟨path, List.mem_cons_self, same⟩
  | create path =>
      refine keeps_changed fun after created => ?_
      obtain ⟨location, located, created⟩ := bind_eq_ok_iff.mp created
      split at created
      next => cases created
      next =>
        obtain ⟨_, -, created⟩ := bind_eq_ok_iff.mp created
        cases created
        obtain rfl := locate_eq_ok located
        exact (agrees_put (place_ne_nil_of_locate located) _).mono fun _ same =>
          ⟨path, List.mem_cons_self, same⟩
  | append path data =>
      refine keeps_changed fun after appended => ?_
      obtain ⟨⟨location, content⟩, found, appended⟩ := bind_eq_ok_iff.mp appended
      cases appended
      obtain ⟨rfl, -⟩ := findFile_eq_ok found
      exact (agrees_put (place_ne_nil_of_findFile found) _).mono fun _ same =>
        ⟨path, List.mem_cons_self, same⟩
  | flush path =>
      refine keeps_changed fun after flushed => ?_
      obtain rfl := flush_eq_ok flushed
      exact .refl _ _
  | sync path =>
      refine keeps_changed fun after synced => ?_
      obtain rfl := sync_eq_ok synced
      exact .refl _ _
  | remove path =>
      refine keeps_changed fun after removed => ?_
      obtain ⟨⟨location, content⟩, found, removed⟩ := bind_eq_ok_iff.mp removed
      cases removed
      obtain ⟨rfl, -⟩ := findFile_eq_ok found
      exact (agrees_erase (place_ne_nil_of_findFile found)).mono fun _ same =>
        ⟨path, List.mem_cons_self, same⟩
  | rename source target =>
      refine keeps_changed fun after renamed => ?_
      obtain ⟨⟨location, content⟩, found, renamed⟩ := bind_eq_ok_iff.mp renamed
      obtain ⟨new, located, renamed⟩ := bind_eq_ok_iff.mp renamed
      split at renamed
      next => cases renamed
      next =>
        obtain ⟨_, -, renamed⟩ := bind_eq_ok_iff.mp renamed
        split at renamed
        next =>
          cases renamed
          exact .refl _ files
        next =>
          cases renamed
          have erased := (agrees_erase (place_ne_nil_of_findFile found) : Agrees _ files _)
          have moved : Agrees (· = new) { files with entries := files.entries.erase location } _ :=
            agrees_put (place_ne_nil_of_locate located) (.file content)
          obtain ⟨rfl, -⟩ := findFile_eq_ok found
          obtain rfl := locate_eq_ok located
          exact (erased.mono fun _ same => ⟨source, List.mem_cons_self, same⟩).trans
            (moved.mono fun _ same =>
              ⟨target, List.mem_cons_of_mem source List.mem_cons_self, same⟩)

end FileRequest

namespace Program

open FileSystem

variable {α β ε : Type} {process : String} {allowed wider : Path → Prop}

/-- A program that a process runs names no other paths than those allowed. -/
def Within (process : String) (allowed : Path → Prop) : Program α → Prop
  | done _ => True
  | request ask next => (∀ path ∈ ask.paths, allowed path) ∧
      ∀ answer, ask.Answers process answer → (next answer).Within process allowed

namespace Within

theorem pure (value : α) : (pure value : Program α).Within process allowed := trivial

theorem ask {request : FileRequest α} (names : ∀ path ∈ request.paths, allowed path) :
    (Program.ask request).Within process allowed :=
  ⟨names, fun _ _ => trivial⟩

theorem bind {program : Program α} {next : α → Program β} (first : program.Within process allowed)
    (rest : ∀ value, (next value).Within process allowed) :
    (program >>= next).Within process allowed := by
  induction program with
  | done value => exact rest value
  | request ask others ih => exact ⟨first.1, fun answer answers => ih answer (first.2 answer answers)⟩

/-- What a process answers to the question for its name is known. -/
theorem bind_process {next : String → Program β} (rest : (next process).Within process allowed) :
    (Program.ask .process >>= next).Within process allowed := by
  refine ⟨fun _ member => (List.not_mem_nil member).elim, fun answer answers => ?_⟩
  obtain rfl : answer = process := answers
  exact rest

theorem bind_of_failing {program : ExceptT ε Program α} {next : α → ExceptT ε Program β}
    (first : program.run.Within process allowed)
    (rest : ∀ value, (next value).run.Within process allowed) :
    (program >>= next).run.Within process allowed := by
  rw [ExceptT.run_bind]
  refine first.bind fun answer => ?_
  cases answer with
  | error error => exact pure _
  | ok value => exact rest value

theorem mono {program : Program α} (within : program.Within process allowed)
    (widens : ∀ path, allowed path → wider path) : program.Within process wider := by
  induction program with
  | done value => trivial
  | request ask others ih =>
      exact ⟨fun path named => widens path (within.1 path named),
        fun answer answers => ih answer (within.2 answer answers)⟩

variable {apart : Location → Prop} {files other : FileSystem}

/-- A program gives the same value and makes the same changes wherever nothing differs on the
way of the paths that it names. -/
theorem agrees {program : Program α} (within : program.Within files.process allowed)
    (agrees : Agrees apart files other)
    (clear : ∀ path, allowed path → ∀ location ∈ files.trail path, ¬apart location) :
    (program.run other).1 = (program.run files).1 ∧
      Agrees apart (program.run files).2 (program.run other).2 := by
  induction program generalizing files other with
  | done value => exact ⟨rfl, agrees⟩
  | request ask next ih =>
      obtain ⟨same, after⟩ := ask.agrees agrees fun path named => clear path (within.1 path named)
      have kept := ask.keeps files
      have runs (files : FileSystem) : (request ask next).run files =
        (next (ask.run files).1).run (ask.run files).2 := rfl
      rw [runs, runs, same]
      apply ih _ _ after
      · intro path permitted
        rw [kept.trail_eq]
        exact clear path permitted
      · rw [kept.process_eq]
        exact within.2 _ (ask.answers files)

/-- While a program runs, nothing changes but what stands at the places of the paths that it
names. -/
theorem keeps_throughout {program : Program α} (within : program.Within files.process allowed) :
    program.Throughout files
      (Agrees (fun location => ∃ path, allowed path ∧ location = files.place path) files) := by
  induction program generalizing files with
  | done value => exact throughout_pure.mpr (.refl _ files)
  | request ask next ih =>
      have first := ask.keeps files
      have rest := @ih (ask.run files).1 (ask.run files).2
        (first.process_eq ▸ within.2 _ (ask.answers files))
      refine ⟨List.forall_mem_cons.mpr ⟨.refl _ files, fun state later => ?_⟩⟩
      refine (first.mono ?_).trans ((rest.holds state later).mono ?_)
      · rintro _ ⟨path, named, rfl⟩
        exact ⟨path, within.1 path named, rfl⟩
      · rintro _ ⟨path, permitted, rfl⟩
        exact ⟨path, permitted, first.place_eq path⟩

/-- A program changes nothing but what stands at the places of the paths that it names. -/
theorem keeps {program : Program α} (within : program.Within files.process allowed) :
    Agrees (fun location => ∃ path, allowed path ∧ location = files.place path) files
      (program.run files).2 :=
  within.keeps_throughout.run

end Within

/-- No program changes what is refused. -/
theorem refuses_run (program : Program α) (files : FileSystem) :
    (program.run files).2.refuses = files.refuses := by
  induction program generalizing files with
  | done value => rfl
  | request ask next ih => exact (ih _ (ask.run files).2).trans (ask.keeps files).refuses_eq

end Program

end SceneForge
