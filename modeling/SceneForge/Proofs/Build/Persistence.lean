import Mathlib.Logic.Relation
import SceneForge.Proofs.Build.Cache
import SceneForge.Proofs.Build.Database

/-!
# Records in memory and in the file

As long as nobody else writes it, the database file of a cache holds the records that are
in memory, whether writing it succeeds or fails. This begins with the opening, if that
found what is at the place which the path names: a path whose directories are missing leads
nowhere, although a file may be where it would lead if they were made.
-/

namespace SceneForge

open Program

/-- Whether a path leads to a file that can be read, or no file is where it would lead. -/
def FileSystem.Openable (files : FileSystem) (path : Path) : Prop :=
  ∀ error, files.read path = .error error →
    error = .notFound ∧ files.fileAt? (files.place path) = none

/-- A file that can be read can be opened. -/
theorem FileSystem.openable_of_isOk {files : FileSystem} {path : Path}
    (found : (files.read path).isOk) : files.Openable path := by
  obtain ⟨content, read⟩ := exists_of_isOk found
  intro error failed
  cases read.symm.trans failed

namespace Database

/-- Whether a 64-bit machine can count the bytes of records. -/
def Storable (records : BuildRecords) : Prop :=
  (encode ⟨currentVersion, records⟩).length < 2 ^ 64

/-- The records that a cache takes over from a database file, or from a missing one. -/
def recordsOf? : (content : Option Bytes) → Option BuildRecords
  | none => some SortedMap.empty
  | some bytes => (decode? bytes).map fun database =>
      if database.version = currentVersion then database.records else SortedMap.empty

theorem recordsOf?_encode {records : BuildRecords} (storable : Storable records) :
    recordsOf? (some (encode ⟨currentVersion, records⟩)) = some records := by
  rw [recordsOf?, decode?_encode_of_lt storable]
  rfl

end Database

namespace Cache

/-- Whether the database file of a cache, if it has one, holds the records in memory. -/
def Mirrors (cache : Cache) (files : FileSystem) : Prop :=
  ∀ path, cache.path = some path →
    Database.recordsOf? (files.fileAt? (files.place path)) = some cache.records

/-- Whether the database file of a cache is what it was. -/
def KeepsFile (cache : Cache) (files after : FileSystem) : Prop :=
  ∀ path, cache.path = some path →
    after.place path = files.place path ∧
      after.fileAt? (files.place path) = files.fileAt? (files.place path)

/-- What may happen to a cache and to the files: a record is replaced or removed, or could
not be; the database is opened again; or files change, but not that of the database. -/
inductive Step (allowed : ArtifactKey → Prop) : Cache × FileSystem → Cache × FileSystem → Prop where
  | store {cache next : Cache} {files after : FileSystem} {key : ArtifactKey}
      {inputs : List RecordedInput} {answer : Except CacheError Unit} :
      allowed key → '/' ∉ files.process.toList →
        Database.Storable (cache.records.insert key inputs) →
          (cache.store key inputs).run files = ((answer, next), after) →
            Step allowed (cache, files) (next, after)
  | invalidate {cache next : Cache} {files after : FileSystem} {key : ArtifactKey}
      {answer : Except CacheError Unit} :
      allowed key → '/' ∉ files.process.toList → Database.Storable (cache.records.erase key) →
        (cache.invalidate key).run files = ((answer, next), after) →
          Step allowed (cache, files) (next, after)
  | reopen {cache next : Cache} {files after : FileSystem} {path : Path} :
      cache.path = some path → files.Openable path →
        (load path).run files = (.ok next, after) → Step allowed (cache, files) (next, after)
  | edit {cache : Cache} {files after : FileSystem} :
      cache.KeepsFile files after → Step allowed (cache, files) (cache, after)

/-- Any number of such steps. -/
abbrev Runs (allowed : ArtifactKey → Prop) : Cache × FileSystem → Cache × FileSystem → Prop :=
  Relation.ReflTransGen (Step allowed)

variable {cache next : Cache} {files after : FileSystem} {path : Path} {records : BuildRecords}
  {allowed : ArtifactKey → Prop}

theorem Mirrors.of_keepsFile (mirrors : cache.Mirrors files) (keeps : cache.KeepsFile files after) :
    cache.Mirrors after := by
  intro path hasPath
  obtain ⟨place, file⟩ := keeps path hasPath
  rw [place, file]
  exact mirrors path hasPath

/-- What opening a database gives is decided by its file. -/
theorem run_load (openable : files.Openable path) :
    (load path).run files =
      (match Database.recordsOf? (files.fileAt? (files.place path)) with
        | some records => .ok ⟨some path, records⟩
        | none => .error (.corrupt path), files) := by
  rw [load, run_bind, run_ask, FileRequest.run]
  cases found : files.read path with
  | error error =>
      obtain ⟨rfl, nothing⟩ := openable error found
      rw [nothing]
      rfl
  | ok content =>
      rw [FileSystem.read_eq_ok found, Database.recordsOf?]
      dsimp only
      cases Database.decode? content with
      | none => rfl
      | some database =>
          dsimp only [Option.map_some]
          split <;> rfl

/-- Opening the database again gives the cache as it is. -/
theorem Mirrors.run_load (mirrors : cache.Mirrors files) (hasPath : cache.path = some path)
    (openable : files.Openable path) : (load path).run files = (.ok cache, files) := by
  rw [Cache.run_load openable, mirrors path hasPath, ← hasPath]

/-- A cache that has been opened holds what the file holds. -/
theorem mirrors_of_load (loaded : (load path).run files = (.ok cache, after))
    (openable : files.Openable path) : after = files ∧ cache.Mirrors files := by
  rw [run_load openable] at loaded
  cases holds : Database.recordsOf? (files.fileAt? (files.place path)) with
  | none =>
      rw [holds] at loaded
      cases loaded
  | some records =>
      rw [holds] at loaded
      cases loaded
      refine ⟨rfl, fun other hasPath => ?_⟩
      obtain rfl := Option.some.inj hasPath
      exact holds

theorem path_eq_of_load (loaded : (load path).run files = (.ok cache, after)) :
    cache.path = some path :=
  (load_eq_ok (congrArg Prod.fst loaded)).1

/-- How replacing records ends: they are in memory and in the file, or neither changes. -/
structure Updates (cache : Cache) (records : BuildRecords) (files : FileSystem)
    (answer : Except CacheError Unit) (next : Cache) (after : FileSystem) : Prop where
  replaced : answer = .ok () → next = { cache with records }
  mirrors : answer = .ok () → Database.Storable records → next.Mirrors after
  kept : answer ≠ .ok () → next = cache ∧ cache.KeepsFile files after

theorem Updates.path_eq {answer : Except CacheError Unit}
    (updates : cache.Updates records files answer next after) : next.path = cache.path := by
  by_cases done : answer = .ok ()
  · rw [updates.replaced done]
  · rw [(updates.kept done).1]

theorem Updates.step {answer : Except CacheError Unit}
    (updates : cache.Updates records files answer next after) (mirrors : cache.Mirrors files)
    (storable : Database.Storable records) : next.Mirrors after := by
  by_cases done : answer = .ok ()
  · exact updates.mirrors done storable
  · obtain ⟨rfl, keeps⟩ := updates.kept done
    exact mirrors.of_keepsFile keeps

theorem Updates.inputs?_eq {answer : Except CacheError Unit}
    (updates : cache.Updates records files answer next after) {key : ArtifactKey}
    (same : records.get? key = cache.inputs? key) : next.inputs? key = cache.inputs? key := by
  by_cases done : answer = .ok ()
  · rw [updates.replaced done]
    exact same
  · rw [(updates.kept done).1]

/-- Records that have been saved are in the database file. -/
theorem mirrors_of_saves (saves : cache.Saves records files after)
    (storable : Database.Storable records) : Mirrors { cache with records } after := by
  intro path hasPath
  dsimp only at hasPath
  rw [Saves, hasPath] at saves
  rw [saves.place_eq, saves.written rfl]
  exact Database.recordsOf?_encode storable

theorem updates_of_update (process : '/' ∉ files.process.toList) {answer : Except CacheError Unit}
    (ran : (cache.update records).run files = ((answer, next), after)) :
    cache.Updates records files answer next after := by
  have ends := (leaves_update cache records files).holds
  rw [ran] at ends
  rcases ends with ⟨same, saves⟩ | ⟨path, refusal, hasPath, same, writes⟩
  · cases same
    exact ⟨fun _ => rfl, fun _ => mirrors_of_saves saves, fun failed => absurd rfl failed⟩
  · cases same
    refine ⟨nofun, nofun, fun _ => ⟨rfl, fun other isPath => ?_⟩⟩
    obtain rfl := Option.some.inj (hasPath.symm.trans isPath)
    exact ⟨writes.place_eq path, writes.kept nofun (path.place_temporary_ne process files).symm⟩

theorem updates_of_store (process : '/' ∉ files.process.toList) {key : ArtifactKey}
    {inputs : List RecordedInput} {answer : Except CacheError Unit}
    (ran : (cache.store key inputs).run files = ((answer, next), after)) :
    cache.Updates (cache.records.insert key inputs) files answer next after :=
  updates_of_update process ran

/-- Without a database file a record is stored in memory only. -/
theorem run_store_inMemory (key : ArtifactKey) (inputs : List RecordedInput) (files : FileSystem) :
    (Cache.inMemory.store key inputs).run files =
      ((.ok (), ⟨none, SortedMap.empty.insert key inputs⟩), files) :=
  rfl

/-- Removing a record is replacing the records, unless there is none to be removed. -/
theorem updates_of_invalidate (process : '/' ∉ files.process.toList) {key : ArtifactKey}
    {answer : Except CacheError Unit}
    (ran : (cache.invalidate key).run files = ((answer, next), after)) :
    cache.Updates (cache.records.erase key) files answer next after ∨
      (cache.inputs? key = none ∧ answer = .ok () ∧ next = cache ∧ after = files) := by
  rw [invalidate] at ran
  split at ran
  next => exact .inl (updates_of_update process ran)
  next absent =>
    cases ran
    exact .inr ⟨by simpa [SortedMap.contains, inputs?] using absent, rfl, rfl, rfl⟩

/-- What a step does to the records. -/
theorem Step.mirrors {before behind : Cache × FileSystem} (step : Step allowed before behind)
    (mirrors : before.1.Mirrors before.2) : behind.1.Mirrors behind.2 := by
  cases step with
  | store _ process storable ran => exact (updates_of_store process ran).step mirrors storable
  | invalidate _ process storable ran =>
      rcases updates_of_invalidate process ran with updates | ⟨-, -, rfl, rfl⟩
      · exact updates.step mirrors storable
      · exact mirrors
  | reopen _ openable loaded =>
      obtain ⟨rfl, mirrors⟩ := mirrors_of_load loaded openable
      exact mirrors
  | edit keeps => exact mirrors.of_keepsFile keeps

theorem Step.path_eq {before behind : Cache × FileSystem} (step : Step allowed before behind) :
    behind.1.path = before.1.path := by
  cases step with
  | store _ process storable ran => exact (updates_of_store process ran).path_eq
  | invalidate _ process storable ran =>
      rcases updates_of_invalidate process ran with updates | ⟨-, -, rfl, rfl⟩
      · exact updates.path_eq
      · rfl
  | reopen hasPath _ loaded => exact (path_eq_of_load loaded).trans hasPath.symm
  | edit => rfl

/-- A step leaves the records alone that it is not allowed to change. -/
theorem Step.inputs?_eq {before behind : Cache × FileSystem} (step : Step allowed before behind)
    (mirrors : before.1.Mirrors before.2) {key : ArtifactKey} (forbidden : ¬allowed key) :
    behind.1.inputs? key = before.1.inputs? key := by
  have other {touched : ArtifactKey} (isAllowed : allowed touched) : key ≠ touched :=
    fun same => forbidden (same ▸ isAllowed)
  cases step with
  | store isAllowed process storable ran =>
      exact (updates_of_store process ran).inputs?_eq (SortedMap.get?_insert_of_ne _ _ (other isAllowed))
  | invalidate isAllowed process storable ran =>
      rcases updates_of_invalidate process ran with updates | ⟨-, -, rfl, rfl⟩
      · exact updates.inputs?_eq (by rw [SortedMap.get?_erase, if_neg (other isAllowed)]; rfl)
      · rfl
  | reopen hasPath openable loaded =>
      rw [mirrors.run_load hasPath openable] at loaded
      cases loaded
      rfl
  | edit => rfl

theorem Runs.mirrors {before behind : Cache × FileSystem} (runs : Runs allowed before behind)
    (mirrors : before.1.Mirrors before.2) : behind.1.Mirrors behind.2 := by
  induction runs with
  | refl => exact mirrors
  | tail _ step ih => exact step.mirrors ih

theorem Runs.path_eq {before behind : Cache × FileSystem} (runs : Runs allowed before behind) :
    behind.1.path = before.1.path := by
  induction runs with
  | refl => rfl
  | tail _ step ih => exact step.path_eq.trans ih

theorem Runs.inputs?_eq {before behind : Cache × FileSystem} (runs : Runs allowed before behind)
    (mirrors : before.1.Mirrors before.2) {key : ArtifactKey} (forbidden : ¬allowed key) :
    behind.1.inputs? key = before.1.inputs? key := by
  induction runs with
  | refl => rfl
  | tail earlier step ih =>
      exact (step.inputs?_eq (Runs.mirrors earlier mirrors) forbidden).trans ih

/-- After any run from the opening of a database on, in which nobody else writes its file,
opening it again gives the cache as it is, provided that the first opening found what is
there, or that a record has been stored since. A record that could not be stored or removed
is in memory and in the file what it was, and one that could is the only one that changes.
All databases that fit a machine are read back as they were written. -/
theorem persistent {opened current : Cache} {now : FileSystem}
    (loaded : (load path).run files = (.ok opened, after))
    (runs : Runs (fun _ => True) (opened, after) (current, now))
    (process : '/' ∉ now.process.toList) :
    (files.Openable path → now.Openable path → (load path).run now = (.ok current, now)) ∧
    (∀ key inputs answer next stored, (current.store key inputs).run now = ((answer, next), stored) →
      (answer = .ok () →
        (∀ other, next.inputs? other = if other = key then some inputs else current.inputs? other) ∧
        (Database.Storable (current.records.insert key inputs) → ∀ later final,
          Runs (fun _ => True) (next, stored) (later, final) → final.Openable path →
            (load path).run final = (.ok later, final))) ∧
      (answer ≠ .ok () → next = current ∧ stored.place path = now.place path ∧
        stored.fileAt? (now.place path) = now.fileAt? (now.place path))) ∧
    (∀ key answer next removed, (current.invalidate key).run now = ((answer, next), removed) →
      (answer = .ok () →
        ∀ other, next.inputs? other = if other = key then none else current.inputs? other) ∧
      (answer ≠ .ok () → next = current ∧ removed.place path = now.place path ∧
        removed.fileAt? (now.place path) = now.fileAt? (now.place path))) ∧
    ∀ database : Database, database.encode.length < 2 ^ 64 →
      Database.decode? database.encode = some database := by
  have hasPath : current.path = some path := runs.path_eq.trans (path_eq_of_load loaded)
  refine ⟨?_, ?_, ?_, fun database => Database.decode?_encode_of_lt⟩
  · intro openable stillOpenable
    obtain ⟨rfl, mirrors⟩ := mirrors_of_load loaded openable
    exact (runs.mirrors mirrors).run_load hasPath stillOpenable
  · intro key inputs answer next stored ran
    have updates := updates_of_store process ran
    refine ⟨fun done => ⟨fun other => ?_, ?_⟩, fun failed => ?_⟩
    · rw [updates.replaced done]
      exact SortedMap.get?_insert _ _ _ _
    -- Once it has been written, the file holds what is in memory, whatever it held before.
    · intro storable later final others openable
      have mirrors := Runs.mirrors others (updates.mirrors done storable)
      exact mirrors.run_load (others.path_eq.trans (updates.path_eq.trans hasPath)) openable
    · obtain ⟨same, keeps⟩ := updates.kept failed
      exact ⟨same, keeps path hasPath⟩
  · intro key answer next removed ran
    rcases updates_of_invalidate process ran with updates | ⟨absent, rfl, rfl, rfl⟩
    · refine ⟨fun done other => ?_, fun failed => ?_⟩
      · rw [updates.replaced done]
        exact SortedMap.get?_erase _ _ _
      · obtain ⟨same, keeps⟩ := updates.kept failed
        exact ⟨same, keeps path hasPath⟩
    · refine ⟨fun _ other => ?_, fun failed => absurd rfl failed⟩
      split
      next same => rw [same, absent]
      next => rfl

/-- What is refused does not matter to the file of a database. -/
theorem keepsFile_refuses (cache : Cache) (files : FileSystem) (refuses : Access → Location → Bool) :
    cache.KeepsFile files { files with refuses } :=
  fun _ _ => ⟨rfl, rfl⟩

/-- A record is stored in a new database; another one is refused while the disk is full, and the
first is removed when it no longer is. Opening the database gives what is in memory all along. -/
theorem persistent_refused :
    let path : Path := .ofText "cache.bin"
    let inputs : List RecordedInput := [⟨"Vulkan", "a.json", .ofContent [1], 1⟩]
    let opened : Cache := ⟨some path, SortedMap.empty⟩
    let stored := (opened.store ⟨"a.scene"⟩ inputs).run (FileSystem.empty "1")
    let full : FileSystem := { stored.2 with refuses := fun access _ => access = .append }
    let refused := (stored.1.2.store ⟨"b.scene"⟩ inputs).run full
    let emptied : FileSystem := { refused.2 with refuses := fun _ _ => false }
    let removed := (refused.1.2.invalidate ⟨"a.scene"⟩).run emptied
    stored.1.1 = .ok () ∧ stored.1.2.inputs? ⟨"a.scene"⟩ = some inputs ∧
      refused.1.1 = .error (.io path) ∧ refused.1.2 = stored.1.2 ∧
      (load path).run refused.2 = (.ok refused.1.2, refused.2) ∧
      removed.1.1 = .ok () ∧ removed.1.2.inputs? ⟨"a.scene"⟩ = none ∧
      (load path).run removed.2 = (.ok removed.1.2, removed.2) := by
  intro path inputs opened stored full refused emptied removed
  have loaded : (load path).run (FileSystem.empty "1") = (.ok opened, FileSystem.empty "1") := by rfl
  have new : (FileSystem.empty "1").Openable path := by
    intro error missing
    have nothing : (FileSystem.empty "1").read path = .error .notFound := by rfl
    cases nothing.symm.trans missing
    exact ⟨rfl, by rfl⟩
  have storable : Database.Storable (opened.records.insert ⟨"a.scene"⟩ inputs) := by
    unfold Database.Storable
    decide +kernel
  have storableToo : Database.Storable (stored.1.2.records.insert ⟨"b.scene"⟩ inputs) := by
    unfold Database.Storable
    decide +kernel
  have storableLess : Database.Storable (refused.1.2.records.erase ⟨"a.scene"⟩) := by
    unfold Database.Storable
    decide +kernel
  let always : ArtifactKey → Prop := fun _ => True
  have parts (result : (Except CacheError Unit × Cache) × FileSystem) :
      result = ((result.1.1, result.1.2), result.2) := rfl
  have toStored : Runs always (opened, FileSystem.empty "1") (stored.1.2, stored.2) :=
    .single (.store trivial (by decide) storable (parts stored))
  have toFull : Runs always (opened, FileSystem.empty "1") (stored.1.2, full) :=
    .tail toStored (.edit (keepsFile_refuses _ stored.2 _))
  have toRefused : Runs always (opened, FileSystem.empty "1") (refused.1.2, refused.2) :=
    .tail toFull (.store trivial (by decide +kernel) storableToo (parts refused))
  have toEmptied : Runs always (opened, FileSystem.empty "1") (refused.1.2, emptied) :=
    .tail toRefused (.edit (keepsFile_refuses _ refused.2 _))
  have toRemoved : Runs always (opened, FileSystem.empty "1") (removed.1.2, removed.2) :=
    .tail toEmptied (.invalidate trivial (by decide +kernel) storableLess (parts removed))
  have stores : stored.1.1 = .ok () := by decide +kernel
  have fails : refused.1.1 = .error (.io path) := by decide +kernel
  have removes : removed.1.1 = .ok () := by decide +kernel
  obtain ⟨-, onStore, -⟩ := persistent loaded .refl (by decide)
  obtain ⟨-, onRefusal, -⟩ := persistent loaded toFull (by decide +kernel)
  obtain ⟨-, -, onRemoval, -⟩ := persistent loaded toEmptied (by decide +kernel)
  refine ⟨stores, ?_, fails, ?_, ?_, removes, ?_, ?_⟩
  · exact (((onStore _ _ _ _ _ (parts stored)).1 stores).1 ⟨"a.scene"⟩).trans (if_pos rfl)
  · exact ((onRefusal _ _ _ _ _ (parts refused)).2 (by rw [fails]; nofun)).1
  · exact (persistent loaded toRefused (by decide +kernel)).1 new
      (FileSystem.openable_of_isOk (by decide +kernel))
  · exact ((onRemoval _ _ _ _ (parts removed)).1 removes ⟨"a.scene"⟩).trans (if_pos rfl)
  · exact (persistent loaded toRemoved (by decide +kernel)).1 new
      (FileSystem.openable_of_isOk (by decide +kernel))

/-- A database in a file, and a disk that is full. -/
def fullDisk : FileSystem :=
  let records : BuildRecords := SortedMap.empty.insert ⟨"a.scene"⟩ []
  let content := Database.encode ⟨Database.currentVersion, records⟩
  let location : Location := [Text.utf8 "cache.bin"]
  ⟨SortedMap.empty.insert location (.file content), [], "1", fun access _ => access = .append⟩

/-- A path to this file through a directory that is not there. -/
def detour : Path := .ofText "x/../cache.bin"

/-- Storing a record makes the directory, and then fails. By this the database is found that
was not found before, and that is not in memory. -/
theorem persistent_detour :
    let opened : Cache := ⟨some detour, SortedMap.empty⟩
    let stored := (opened.store ⟨"b.scene"⟩ []).run fullDisk
    (load detour).run fullDisk = (.ok opened, fullDisk) ∧
      stored.1 = (.error (.io detour), opened) ∧ stored.2.Openable detour ∧
      ∃ reopened, (load detour).run stored.2 = (.ok reopened, stored.2) ∧
        reopened.records ≠ opened.records := by
  intro opened stored
  have openable : stored.2.Openable detour := FileSystem.openable_of_isOk (by decide +kernel)
  have counted : (Database.recordsOf? (stored.2.fileAt? (stored.2.place detour))).map SortedMap.size =
      some 1 := by decide +kernel
  obtain ⟨records, holds, one⟩ := Option.map_eq_some_iff.mp counted
  refine ⟨by rfl, by rfl, openable, ⟨some detour, records⟩, by rw [run_load openable, holds], ?_⟩
  rintro rfl
  cases one

end Cache

end SceneForge
