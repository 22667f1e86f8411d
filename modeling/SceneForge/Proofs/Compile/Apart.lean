import SceneForge.Proofs.Compile.Dependence
import SceneForge.Proofs.Compile.Outputs
import SceneForge.Proofs.Compile.Stepping

/-!
# Files that are apart

A batch writes artifacts and the database, next to their temporary files, and makes the
directories that these need. Where none of this is on the way of a source, of the catalog,
or of another of the files that are written, phases of different inputs do not get in each
other's way: what a phase does depends on what it reads, on its own artifact, and on the
record of this.
-/

namespace SceneForge

open FileSystem Program

namespace FileSystem

variable {start files after : FileSystem} {path : Path} {location : Location}

/-- The places of a file and of its temporary file are on its way, and so is whatever writing it
may change. -/
theorem place_mem_way (files : FileSystem) (path : Path) : files.place path ∈ files.way path :=
  List.mem_flatMap.mpr ⟨path, List.mem_cons_self, files.place_mem_trail path⟩

theorem place_temporary_mem_way (files : FileSystem) (path : Path) :
    files.place (path.temporary files.process) ∈ files.way path :=
  List.mem_flatMap.mpr
    ⟨_, List.mem_cons_of_mem path List.mem_cons_self, files.place_mem_trail _⟩

theorem mem_way_of_mayChange (changes : files.MayChange path location) : location ∈ files.way path := by
  rcases changes with same | same | ⟨onWay, -⟩
  · rw [same]
    exact files.place_mem_way path
  · rw [same]
    exact files.place_temporary_mem_way path
  · exact onWay

instance (files : FileSystem) (path : Path) (location : Location) :
    Decidable (files.MayChange path location) :=
  inferInstanceAs (Decidable (_ ∨ _ ∨ (_ ∧ _)))

variable {apart : Location → Prop}

theorem Agrees.way_eq (agrees : Agrees apart start files) (path : Path) :
    files.way path = start.way path := by
  rw [way, way, agrees.process_eq]
  exact List.flatMap_congr fun path _ => agrees.trail_eq path

theorem Agrees.wayAbove_eq (agrees : Agrees apart start files) (path : Path) :
    files.wayAbove path = start.wayAbove path :=
  List.flatMap_congr fun path _ => agrees.trail_eq path

end FileSystem

namespace Compiler

/-- The files that a batch writes. -/
def targets (compiler : Compiler) (inputs : List Path) (cache : Cache) : List Path :=
  inputs.map compiler.outputPath ++ cache.path.toList

/-- Whether a batch may change what stands at a location. -/
def Touches (compiler : Compiler) (inputs : List Path) (cache : Cache) (files : FileSystem)
    (location : Location) : Prop :=
  ∃ target ∈ compiler.targets inputs cache, files.MayChange target location

instance (compiler : Compiler) (inputs : List Path) (cache : Cache) (files : FileSystem)
    (location : Location) : Decidable (compiler.Touches inputs cache files location) :=
  inferInstanceAs (Decidable (∃ target ∈ compiler.targets inputs cache, _))

/-- The file systems that there can be after files of a batch have been written, whichever and
whatever they are. -/
inductive Reaches (compiler : Compiler) (inputs : List Path) (cache : Cache) (start : FileSystem) :
    FileSystem → Prop where
  | start : Reaches compiler inputs cache start start
  | write {target : Path} {data : Bytes} {answer : Except FileError Unit} {files after : FileSystem} :
      Reaches compiler inputs cache start files → target ∈ compiler.targets inputs cache →
        (writeAtomically target data).run files = (answer, after) →
          Reaches compiler inputs cache start after

/-- Whether the files of a batch are apart. Sources and the catalog read the same whatever is
written. The database is no artifact, and no file that is written, and no temporary file, is on
the way of another. No directory is made in the place of an artifact. -/
structure Apart (compiler : Compiler) (inputs : List Path) (cache : Cache) (files : FileSystem) :
    Prop where
  reads : ∀ after, compiler.Reaches inputs cache files after →
    ∀ path ∈ inputs ++ compiler.catalog.dependencies, after.read path = files.read path
  database : ∀ input ∈ inputs, cache.path ≠ some (compiler.outputPath input)
  written : ∀ target ∈ compiler.targets inputs cache, ∀ other ∈ compiler.targets inputs cache,
    target ≠ other → ∀ location ∈ files.way target,
      location ≠ files.place other ∧ location ≠ files.place (other.temporary files.process)
  above : ∀ input ∈ inputs,
    files.place (compiler.outputPath input) ∉ files.wayAbove (compiler.outputPath input)

/-- Whether what stands in the place of an artifact is found by its path. A path through a
directory that is still to be made, and back, leads to the artifacts of earlier batches only
once an input has been compiled. -/
def Found (compiler : Compiler) (inputs : List Path) (files : FileSystem) : Prop :=
  ∀ input ∈ inputs, ∀ entry, files.entry? (files.place (compiler.outputPath input)) = some entry →
    files.pathExists (compiler.outputPath input)

/-- What remains of files apart, whatever has been written since. -/
structure Sane (compiler : Compiler) (inputs : List Path) (cache : Cache) (start files : FileSystem) :
    Prop where
  reached : compiler.Reaches inputs cache start files
  found : ∀ input ∈ inputs, ∀ entry,
    files.entry? (start.place (compiler.outputPath input)) = some entry →
      files.pathExists (compiler.outputPath input)

variable {compiler : Compiler} {inputs : List Path} {cache : Cache}
  {start files other after : FileSystem} {input path target : Path} {location : Location}

theorem outputPath_mem_targets (listed : input ∈ inputs) (compiler : Compiler) (cache : Cache) :
    compiler.outputPath input ∈ compiler.targets inputs cache :=
  List.mem_append_left _ (List.mem_map_of_mem listed)

theorem database_mem_targets {database : Path} (hasDatabase : cache.path = some database)
    (compiler : Compiler) (inputs : List Path) : database ∈ compiler.targets inputs cache := by
  refine List.mem_append_right _ ?_
  rw [hasDatabase]
  exact List.mem_cons_self

theorem Found.sane (found : compiler.Found inputs start) (cache : Cache) :
    compiler.Sane inputs cache start start where
  reached := .start
  found := found

/-- Nothing stands in the place of an artifact, or it is found. -/
theorem found_of_clear (clear : ∀ input ∈ inputs,
    start.entry? (start.place (compiler.outputPath input)) = none ∨
      start.pathExists (compiler.outputPath input)) : compiler.Found inputs start := by
  intro input listed entry stands
  rcases clear input listed with nothing | there
  · cases nothing.symm.trans stands
  · exact there

/-- Writing one file leaves another, and its temporary file, alone. -/
theorem Apart.not_mayChange (apart : compiler.Apart inputs cache start)
    (agrees : Agrees (compiler.Touches inputs cache start) start files)
    {target second : Path} (listed : target ∈ compiler.targets inputs cache)
    (secondListed : second ∈ compiler.targets inputs cache) (differs : target ≠ second) :
    ¬files.MayChange target (start.place second) ∧
      ¬files.MayChange target (start.place (second.temporary start.process)) := by
  have clear := apart.written target listed second secondListed differs
  constructor
  · intro changes
    have onWay := mem_way_of_mayChange changes
    rw [agrees.way_eq] at onWay
    exact (clear _ onWay).1 rfl
  · intro changes
    have onWay := mem_way_of_mayChange changes
    rw [agrees.way_eq] at onWay
    exact (clear _ onWay).2 rfl

/-- Whatever changes in writing a file may have changed from the beginning. -/
theorem touches_of_mayChange (agrees : Agrees (compiler.Touches inputs cache start) start files)
    (listed : target ∈ compiler.targets inputs cache) (changes : files.MayChange target location) :
    compiler.Touches inputs cache start location := by
  by_contra untouched
  refine untouched ⟨target, listed, ?_⟩
  rcases changes with same | same | ⟨onWay, nothing⟩
  · refine .inl ?_
    rw [same, agrees.place_eq]
  · refine .inr (.inl ?_)
    rw [same, agrees.place_eq, agrees.process_eq]
  · refine .inr (.inr ⟨?_, ?_⟩)
    · rw [← agrees.way_eq]
      exact onWay
    · rw [← agrees.entry?_eq location untouched]
      exact nothing

/-- Writing files of a batch changes nothing but what a batch may change. -/
theorem Reaches.agrees (reaches : compiler.Reaches inputs cache start files) :
    Agrees (compiler.Touches inputs cache start) start files := by
  induction reaches with
  | start => exact .refl _ start
  | @write target data answer files after _ listed written ih =>
      have changes := agrees_writeAtomically target data files
      rw [written] at changes
      exact ih.trans (changes.mono fun location => touches_of_mayChange ih listed)

theorem Reaches.extended (reaches : compiler.Reaches inputs cache start files) :
    Extends start files := by
  induction reaches with
  | start => exact .refl start
  | @write target data answer files after _ listed written ih =>
      have writes := (leaves_writeAtomically target data files).holds.toExtends
      rw [written] at writes
      exact ih.trans writes

/-- Sources and the catalog read the same if nothing on the way to them is changed. -/
theorem Reaches.read_eq (reaches : compiler.Reaches inputs cache start files)
    (clear : ∀ location ∈ start.trail path, ¬compiler.Touches inputs cache start location) :
    files.read path = start.read path :=
  reaches.agrees.read_eq clear

/-- Files are apart if nothing on the way to a source or to the catalog is changed, and nothing on
the way of a file that is written by writing another. -/
theorem apart_of_clear
    (reads : ∀ path ∈ inputs ++ compiler.catalog.dependencies, ∀ location ∈ start.trail path,
      ¬compiler.Touches inputs cache start location)
    (database : ∀ input ∈ inputs, cache.path ≠ some (compiler.outputPath input))
    (written : ∀ target ∈ compiler.targets inputs cache, ∀ other ∈ compiler.targets inputs cache,
      target ≠ other → ∀ location ∈ start.way target,
        location ≠ start.place other ∧ location ≠ start.place (other.temporary start.process))
    (above : ∀ input ∈ inputs,
      start.place (compiler.outputPath input) ∉ start.wayAbove (compiler.outputPath input)) :
    compiler.Apart inputs cache start where
  reads _ reaches path listed := reaches.read_eq (reads path listed)
  database
  written
  above

namespace Sane

theorem agrees (sane : compiler.Sane inputs cache start files) :
    Agrees (compiler.Touches inputs cache start) start files :=
  sane.reached.agrees

theorem extended (sane : compiler.Sane inputs cache start files) : Extends start files :=
  sane.reached.extended

/-- Writing an artifact or the database keeps this up. -/
theorem write (sane : compiler.Sane inputs cache start files)
    (apart : compiler.Apart inputs cache start) (listed : target ∈ compiler.targets inputs cache)
    {data : Bytes} {answer : Except FileError Unit}
    (written : (writeAtomically target data).run files = (answer, after)) :
    compiler.Sane inputs cache start after := by
  have writes := (leaves_writeAtomically target data files).holds
  have changes := agrees_writeAtomically target data files
  rw [written] at writes changes
  refine ⟨sane.reached.write listed written, ?_⟩
  intro input inputListed entry stands
  have stayed (same : after.entry? (start.place (compiler.outputPath input)) =
      files.entry? (start.place (compiler.outputPath input))) :
      after.pathExists (compiler.outputPath input) := by
    have found := sane.found input inputListed entry (same.symm.trans stands)
    rw [← sane.extended.place_eq] at stands
    exact writes.toExtends.pathExists found stands
  by_cases own : target = compiler.outputPath input
  · subst own
    have notTemporary := compiler.place_temporary_outputPath_ne input files
    cases answer with
    | ok value => exact pathExists_of_writeAtomically written notTemporary
    | error refusal =>
        apply stayed
        rw [← sane.extended.place_eq]
        have failed : ((writeAtomically (compiler.outputPath input) data).run files).1 ≠ .ok () := by
          rw [written]
          simp
        have above : files.place (compiler.outputPath input) ∉
            files.wayAbove (compiler.outputPath input) := by
          rw [sane.agrees.place_eq, sane.agrees.wayAbove_eq]
          exact apart.above input inputListed
        have kept := entry?_of_failure failed above notTemporary
        rwa [written] at kept
  · apply stayed
    exact changes.entry?_eq _
      (apart.not_mayChange sane.agrees listed (outputPath_mem_targets inputListed _ _) own).1

/-- What sources and the catalog read as does not change. -/
theorem read_eq (sane : compiler.Sane inputs cache start files)
    (apart : compiler.Apart inputs cache start)
    (listed : path ∈ inputs ++ compiler.catalog.dependencies) : files.read path = start.read path :=
  apart.reads files sane.reached path listed

/-- Whether an artifact is found depends on what stands in its place. -/
theorem pathExists_eq (sane : compiler.Sane inputs cache start files)
    (otherSane : compiler.Sane inputs cache start other) (listed : input ∈ inputs)
    (same : other.entry? (start.place (compiler.outputPath input)) =
      files.entry? (start.place (compiler.outputPath input))) :
    other.pathExists (compiler.outputPath input) = files.pathExists (compiler.outputPath input) := by
  rw [Bool.eq_iff_iff]
  constructor
  · intro found
    obtain ⟨entry, stands⟩ := entry?_of_pathExists found
    rw [otherSane.agrees.place_eq] at stands
    exact sane.found input listed entry (same.symm.trans stands)
  · intro found
    obtain ⟨entry, stands⟩ := entry?_of_pathExists found
    rw [sane.agrees.place_eq] at stands
    exact otherSane.found input listed entry (same.trans stands)

/-- Writing one file leaves another, and its temporary file, alone. -/
theorem entry?_of_write (sane : compiler.Sane inputs cache start files)
    (apart : compiler.Apart inputs cache start) (listed : target ∈ compiler.targets inputs cache)
    {second : Path} (secondListed : second ∈ compiler.targets inputs cache) (differs : target ≠ second)
    {data : Bytes} {answer : Except FileError Unit}
    (written : (writeAtomically target data).run files = (answer, after)) :
    after.entry? (start.place second) = files.entry? (start.place second) ∧
      after.entry? (start.place (second.temporary start.process)) =
        files.entry? (start.place (second.temporary start.process)) := by
  have changes := agrees_writeAtomically target data files
  rw [written] at changes
  have clear := apart.not_mayChange sane.agrees listed secondListed differs
  exact ⟨changes.entry?_eq _ clear.1, changes.entry?_eq _ clear.2⟩

section Record

variable {decision : BuildDecision} {source artifact : Bytes} {now : Cache}
  {recorded : Except CompileError Outcome × Cache}

/-- Recording an artifact keeps this up. -/
theorem record (sane : compiler.Sane inputs cache start files)
    (apart : compiler.Apart inputs cache start) (samePath : now.path = cache.path)
    (ran : (compiler.record input decision source artifact now).run files = (recorded, after)) :
    compiler.Sane inputs cache start after := by
  rcases run_record ran with ⟨-, rfl⟩ | ⟨database, data, answer, hasDatabase, written⟩
  · exact sane
  · exact sane.write apart (database_mem_targets (samePath.symm.trans hasDatabase) _ _) written

/-- Recording an artifact leaves all artifacts alone, and their temporary files. -/
theorem entry?_of_record (sane : compiler.Sane inputs cache start files)
    (apart : compiler.Apart inputs cache start) (samePath : now.path = cache.path)
    (ran : (compiler.record input decision source artifact now).run files = (recorded, after))
    {second : Path} (listed : second ∈ inputs) :
    after.entry? (start.place (compiler.outputPath second)) =
        files.entry? (start.place (compiler.outputPath second)) ∧
      after.entry? (start.place ((compiler.outputPath second).temporary start.process)) =
        files.entry? (start.place ((compiler.outputPath second).temporary start.process)) := by
  rcases run_record ran with ⟨-, rfl⟩ | ⟨database, data, answer, hasDatabase, written⟩
  · exact ⟨rfl, rfl⟩
  · have hasDatabase := samePath.symm.trans hasDatabase
    refine sane.entry?_of_write apart (database_mem_targets hasDatabase _ _)
      (outputPath_mem_targets listed _ _) (fun same => apart.database second listed ?_) written
    rw [hasDatabase, same]

end Record

/-- Compiling an input keeps this up, and leaves the artifacts and the records of others alone. -/
theorem compile (sane : compiler.Sane inputs cache start files)
    (apart : compiler.Apart inputs cache start) (listed : input ∈ inputs) {before now : Cache}
    (samePath : before.path = cache.path) {result : Except CompileError Outcome}
    (ran : (compiler.compile input before).run files = ((result, now), after)) :
    compiler.Sane inputs cache start after ∧ now.path = cache.path ∧
      ∀ other ∈ inputs, (compiler.request other).key ≠ (compiler.request input).key →
        after.entry? (start.place (compiler.outputPath other)) =
            files.entry? (start.place (compiler.outputPath other)) ∧
          now.inputs? (compiler.request other).key = before.inputs? (compiler.request other).key := by
  have isTarget := outputPath_mem_targets listed compiler cache
  have differs {other : Path} (keys : (compiler.request other).key ≠ (compiler.request input).key) :
      compiler.outputPath input ≠ compiler.outputPath other :=
    fun same => keys (key_eq_of_outputPath same.symm)
  rcases compile_cases ran with ⟨rfl, rfl⟩ | ⟨artifact, answer, rfl, written⟩ |
    ⟨decision, source, artifact, between, written, recorded⟩
  · exact ⟨sane, samePath, fun _ _ _ => ⟨rfl, rfl⟩⟩
  · refine ⟨sane.write apart isTarget written, samePath, fun other otherListed keys => ⟨?_, rfl⟩⟩
    exact (sane.entry?_of_write apart isTarget (outputPath_mem_targets otherListed _ _)
      (differs keys) written).1
  · have wrote := sane.write apart isTarget written
    obtain ⟨path, records⟩ := cache_of_record recorded
    refine ⟨wrote.record apart samePath recorded, path.trans samePath,
      fun other otherListed keys => ⟨?_, records _ keys⟩⟩
    exact (wrote.entry?_of_record apart samePath recorded otherListed).1.trans
      (sane.entry?_of_write apart isTarget (outputPath_mem_targets otherListed _ _)
        (differs keys) written).1

end Sane

/-- Throughout a batch its files stay apart. -/
theorem Apart.sane_of_follow (apart : compiler.Apart inputs cache start)
    (found : compiler.Found inputs start) (workers : Nat) (schedule : List Nat) :
    (Batch.follow compiler workers schedule (.start inputs cache)).Leaves start fun batch files =>
      compiler.Sane inputs cache start files ∧ batch.cache.path = cache.path ∧
        batch.tasks.map Prod.fst = inputs := by
  have anywhere : Batch.Throughout compiler workers schedule (.start inputs cache) start
      fun _ => True := fun _ => trivial
  refine Batch.leaves_follow (fun {batch files index next after} _ _ stepped holds => ?_) anywhere
    ⟨found.sane cache, rfl, Batch.inputs_start inputs cache⟩
  obtain ⟨sane, path, names⟩ := holds
  have named := stepped.inputs_eq.trans names
  have listed {input : Path} {progress : Progress}
      (task : batch.tasks[index]? = some (input, progress)) : input ∈ inputs := by
    rw [← names]
    exact List.mem_map_of_mem (List.mem_of_getElem? task)
  have writes {input : Path} {progress : Progress} {artifact : Bytes}
      {answer : Except (Except CompileError Outcome) Unit}
      (task : batch.tasks[index]? = some (input, progress))
      (written : (compiler.write input artifact).run.run files = (answer, after)) :
      compiler.Sane inputs cache start after := by
    have isTarget := outputPath_mem_targets (listed task) compiler cache
    rcases write_cases written with ⟨-, written⟩ | ⟨refusal, -, written⟩
    · exact sane.write apart isTarget written
    · exact sane.write apart isTarget written
  cases stepped with
  | waited => exact ⟨sane, path, named⟩
  | took | locked | judged | endedJudging | built | endedBuilding | released =>
      exact ⟨sane, path, named⟩
  | written task written => exact ⟨writes task written, path, named⟩
  | endedWriting task written => exact ⟨writes task written, path, named⟩
  | recorded task recorded =>
      exact ⟨sane.record apart path recorded, (cache_of_record recorded).1.trans path, named⟩

/-- Where all files are apart, sources and the catalog read the same throughout a batch. -/
theorem Apart.throughout (apart : compiler.Apart inputs cache start)
    (found : compiler.Found inputs start) (workers : Nat) (schedule : List Nat) :
    Batch.Throughout compiler workers schedule (.start inputs cache) start fun files =>
      ∀ path ∈ inputs ++ compiler.catalog.dependencies, files.read path = start.read path :=
  fun count _ listed =>
    (apart.sane_of_follow found workers (schedule.take count)).holds.1.read_eq apart listed

end Compiler

end SceneForge
