import SceneForge.Proofs.Compile.Apart

/-!
# Files ahead of records

An artifact is written before its inputs are recorded, and other inputs may be recorded in
between. So the files of a batch are ahead of those in which its inputs are compiled one by
one, by the artifacts that are still to be recorded. Each of these may as well be written
when it is recorded, since nothing that happens in between depends on it.
-/

namespace SceneForge

open FileSystem Program

namespace FileSystem

/-- The places of files that are pending, and of their temporary files. -/
def Hides (start : FileSystem) (pending : Path → Bytes → Prop) (location : Location) : Prop :=
  ∃ output artifact, pending output artifact ∧
    (location = start.place output ∨ location = start.place (output.temporary start.process))

/-- Files are those of another file system, in which pending files have been written that could
be written there. -/
structure Covers (start : FileSystem) (pending : Path → Bytes → Prop) (ready files : FileSystem) :
    Prop where
  /-- All are seen by one process. -/
  akin : Agrees (fun _ => True) start ready
  agrees : Agrees (start.Hides pending) ready files
  replaceable : ∀ output artifact, pending output artifact →
    ready.Replaceable (output.temporary start.process) output
  standing : ∀ output artifact, pending output artifact →
    files.entry? (start.place output) = some (.file artifact) ∧
      files.entry? (start.place (output.temporary start.process)) = none

variable {start ready files left after : FileSystem} {pending : Path → Bytes → Prop}

namespace Covers

theorem of_none (akin : Agrees (fun _ => True) start files)
    (nothing : ∀ output artifact, ¬pending output artifact) : Covers start pending files files where
  akin
  agrees := .refl _ files
  replaceable output artifact isPending := absurd isPending (nothing output artifact)
  standing output artifact isPending := absurd isPending (nothing output artifact)

theorem eq_of_none (covers : Covers start pending ready files)
    (nothing : ∀ output artifact, ¬pending output artifact) : files = ready := by
  refine covers.agrees.eq_of_nowhere ?_
  rintro location ⟨output, artifact, isPending, -⟩
  exact nothing output artifact isPending

/-- No pending file is written in the place of a directory. -/
theorem extended (covers : Covers start pending ready files) : Extends ready files where
  workingDirectory_eq := covers.agrees.workingDirectory_eq
  directory_stays location directory := by
    rw [covers.agrees.entry?_eq, directory]
    rintro ⟨output, artifact, isPending, rfl | rfl⟩
    · have free := (covers.replaceable output artifact isPending).free
      rw [covers.akin.place_eq] at free
      exact free directory
    · have free := (covers.replaceable output artifact isPending).temporary_free
      rw [covers.akin.place_eq] at free
      exact free directory

/-- Both file systems change, but not in the places of pending files. -/
theorem move (covers : Covers start pending ready files)
    (agrees : Agrees (start.Hides pending) left after) (extended : Extends ready left)
    (refuses : left.refuses = ready.refuses) (akin : Agrees (fun _ => True) start left)
    (kept : ∀ location, start.Hides pending location → left.entry? location = ready.entry? location)
    (keptHere : ∀ location, start.Hides pending location →
      after.entry? location = files.entry? location) :
    Covers start pending left after where
  akin
  agrees
  replaceable output artifact isPending := by
    apply (covers.replaceable output artifact isPending).stays extended refuses
    · rw [covers.akin.place_eq]
      exact kept _ ⟨output, artifact, isPending, .inr rfl⟩
    · rw [covers.akin.place_eq]
      exact kept _ ⟨output, artifact, isPending, .inl rfl⟩
  standing output artifact isPending := by
    rw [keptHere _ ⟨output, artifact, isPending, .inl rfl⟩,
      keptHere _ ⟨output, artifact, isPending, .inr rfl⟩]
    exact covers.standing output artifact isPending

end Covers

end FileSystem

namespace Compiler

variable {compiler : Compiler} {inputs : List Path} {cache now : Cache}
  {start serial files after : FileSystem} {input target : Path} {pending rest : Path → Bytes → Prop}
  {artifact : Bytes}

/-- All artifacts go to one directory. -/
theorem parent?_outputPath (compiler : Compiler) (first second : Path) :
    (compiler.outputPath first).parent? = (compiler.outputPath second).parent? := by
  obtain ⟨parent, parents⟩ := compiler.config.outputDirectory.exists_parent_join
  exact (parents (plain_artifactName first)).trans (parents (plain_artifactName second)).symm

theorem makeReady_outputPath (compiler : Compiler) (first second : Path) :
    makeReady (compiler.outputPath first) = makeReady (compiler.outputPath second) := by
  rw [makeReady, makeReady, compiler.parent?_outputPath first second]

/-- The files of a batch are those that there are when its inputs are compiled one by one, once
the output directory is ready for pending artifacts and these have been written. -/
structure Ahead (compiler : Compiler) (inputs : List Path) (cache : Cache) (start : FileSystem)
    (pending : Path → Bytes → Prop) (serial files : FileSystem) : Prop where
  sane : compiler.Sane inputs cache start files
  serial_sane : compiler.Sane inputs cache start serial
  listed : ∀ output artifact, pending output artifact → ∃ input ∈ inputs, compiler.outputPath input = output
  covered : ∃ ready, Covers start pending ready files ∧
    ((∀ output artifact, ¬pending output artifact) → ready = serial) ∧
    ∀ output artifact, pending output artifact → (makeReady output).run serial = (.ok (), ready)

/-- Where nothing is pending, what a batch writes is clear of what is pending. -/
theorem Apart.not_hides (apart : compiler.Apart inputs cache start)
    (listed : ∀ output artifact, pending output artifact →
      ∃ input ∈ inputs, compiler.outputPath input = output)
    (isTarget : target ∈ compiler.targets inputs cache) (free : ∀ artifact, ¬pending target artifact)
    {location : Location} (onWay : location ∈ start.way target) : ¬start.Hides pending location := by
  rintro ⟨output, artifact, isPending, places⟩
  obtain ⟨other, otherListed, rfl⟩ := listed output artifact isPending
  have clear := apart.written target isTarget _ (outputPath_mem_targets otherListed _ _)
    (fun same => free artifact (same ▸ isPending)) location onWay
  exact places.elim clear.1 clear.2

namespace Ahead

/-- Where nothing is pending, files are as far as records. -/
theorem eq_of_none (ahead : compiler.Ahead inputs cache start pending serial files)
    (nothing : ∀ output artifact, ¬pending output artifact) : files = serial := by
  obtain ⟨ready, covers, even, -⟩ := ahead.covered
  rw [covers.eq_of_none nothing, even nothing]

theorem of_covers (sane : compiler.Sane inputs cache start files)
    (serial_sane : compiler.Sane inputs cache start serial)
    (listed : ∀ output artifact, pending output artifact →
      ∃ input ∈ inputs, compiler.outputPath input = output)
    (covers : Covers start pending serial files)
    (ready : ∀ output artifact, pending output artifact → serial.Ready output) :
    compiler.Ahead inputs cache start pending serial files where
  sane
  serial_sane
  listed
  covered := ⟨serial, covers, fun _ => rfl,
    fun output artifact isPending => run_makeReady_of_ready (ready output artifact isPending)⟩

theorem of_none (sane : compiler.Sane inputs cache start files)
    (nothing : ∀ output artifact, ¬pending output artifact) :
    compiler.Ahead inputs cache start pending files files :=
  .of_covers sane sane (fun output artifact isPending => absurd isPending (nothing output artifact))
    (.of_none (sane.agrees.mono fun _ _ => trivial) nothing)
    (fun output artifact isPending => absurd isPending (nothing output artifact))

/-- Where an artifact is pending, the directory for all of them is there. -/
theorem exists_ready (ahead : compiler.Ahead inputs cache start pending serial files)
    {output : Path} (isPending : pending output artifact) :
    ∃ ready, Covers start pending ready files ∧ ∀ input,
      (makeReady (compiler.outputPath input)).run serial = (.ok (), ready) ∧
        ready.Ready (compiler.outputPath input) ∧ files.Ready (compiler.outputPath input) := by
  obtain ⟨ready, covers, -, made⟩ := ahead.covered
  obtain ⟨other, -, rfl⟩ := ahead.listed output artifact isPending
  refine ⟨ready, covers, fun input => ?_⟩
  have makes := made _ _ isPending
  rw [compiler.makeReady_outputPath other input] at makes
  have isReady := (leaves_makeReady (compiler.outputPath input) serial).holds.2.1
  rw [makes] at isReady
  exact ⟨makes, isReady rfl, covers.extended.ready (isReady rfl)⟩

/-- What stands in the place of an artifact that is not pending is not ahead. -/
theorem entry?_eq (ahead : compiler.Ahead inputs cache start pending serial files)
    (apart : compiler.Apart inputs cache start) (listed : input ∈ inputs)
    (free : ∀ artifact, ¬pending (compiler.outputPath input) artifact) :
    files.entry? (start.place (compiler.outputPath input)) =
      serial.entry? (start.place (compiler.outputPath input)) := by
  by_cases anything : ∃ output artifact, pending output artifact
  · obtain ⟨output, artifact, isPending⟩ := anything
    obtain ⟨ready, covers, readies⟩ := ahead.exists_ready isPending
    have clear := apart.not_hides ahead.listed (outputPath_mem_targets listed _ _) free
      (start.place_mem_way _)
    refine (covers.agrees.entry?_eq _ clear).trans ?_
    have made : Agrees _ serial ((makeReady (compiler.outputPath input)).run serial).2 :=
      (within_makeReady _).keeps
    rw [(readies input).1] at made
    refine made.entry?_eq _ ?_
    rintro ⟨directory, member, same⟩
    apply apart.above input listed
    rw [same, ahead.serial_sane.agrees.place_eq]
    exact List.mem_flatMap.mpr ⟨directory, member, start.place_mem_trail directory⟩
  · rw [ahead.eq_of_none fun output artifact isPending => anything ⟨output, artifact, isPending⟩]

section Replacing

variable {ready left : FileSystem} {answer answerHere : Except FileError Unit}
  (clear : ∀ location ∈ start.way (compiler.outputPath input), ¬start.Hides pending location)

theorem replaceOrClean_eq_ok_iff (compiler : Compiler) (input : Path) (artifact : Bytes)
    (files : FileSystem) :
    ((replaceOrClean (compiler.outputPath input) artifact).run files).1 = .ok () ↔
      files.Replaceable ((compiler.outputPath input).temporary files.process) (compiler.outputPath input) :=
  (leaves_replaceOrClean_iff (compiler.place_temporary_outputPath_ne input files)).holds.1

/-- An artifact that has been replaced stands in its place, and its temporary file is gone. -/
theorem entry?_of_replaced (akin : Agrees (fun _ => True) start files)
    (replaced : (replaceOrClean (compiler.outputPath input) artifact).run files = (.ok (), after))
    (location : Location) :
    after.entry? location =
      if location = start.place (compiler.outputPath input) then some (.file artifact)
      else if location = start.place ((compiler.outputPath input).temporary start.process) then none
      else files.entry? location := by
  have does := (@leaves_replaceOrClean_iff files _ artifact
    (compiler.place_temporary_outputPath_ne input files)).holds
  rw [replaced] at does
  have can := does.1.mp rfl
  have stands := entry?_replaced artifact (ne_nil_of_entry?_ne can.free)
    (ne_nil_of_entry?_ne can.temporary_free) location
  rwa [← does.2 rfl, akin.place_eq, akin.place_eq, akin.process_eq] at stands

/-- Replacing an artifact changes it and its temporary file at most. -/
theorem agrees_replaceOrClean (akin : Agrees (fun _ => True) start files)
    (replaced : (replaceOrClean (compiler.outputPath input) artifact).run files = (answer, after)) :
    Agrees (start.Hides fun output _ => output = compiler.outputPath input) files after := by
  have keeps : Agrees _ files ((replaceOrClean (compiler.outputPath input) artifact).run files).2 :=
    (within_replaceOrClean (compiler.outputPath input) artifact).keeps
  rw [replaced] at keeps
  refine keeps.mono ?_
  rintro location ⟨path, named, rfl⟩
  rw [akin.process_eq] at named
  rw [akin.place_eq]
  rcases List.mem_cons.mp named with rfl | temporary
  · exact ⟨_, [], rfl, .inl rfl⟩
  · exact ⟨_, [], rfl, .inr (congrArg start.place (List.mem_singleton.mp temporary))⟩

include clear

/-- Replacing an artifact that is not pending leaves those alone that are. -/
theorem entry?_of_replaceOrClean (akin : Agrees (fun _ => True) start files)
    (replaced : (replaceOrClean (compiler.outputPath input) artifact).run files = (answer, after))
    {location : Location} (hidden : start.Hides pending location) :
    after.entry? location = files.entry? location := by
  refine (agrees_replaceOrClean akin replaced).entry?_eq location ?_
  rintro ⟨output, other, own, place | place⟩
  · rw [place, own] at hidden
    exact clear _ (start.place_mem_way _) hidden
  · rw [place, own] at hidden
    exact clear _ (start.place_temporary_mem_way _) hidden

/-- Replacing an artifact that is not pending has the same effect however far files are ahead. -/
theorem covers_replaceOrClean (covers : Covers start pending ready files)
    (replaced : (replaceOrClean (compiler.outputPath input) artifact).run ready = (answer, left))
    (replacedHere : (replaceOrClean (compiler.outputPath input) artifact).run files =
      (answerHere, after)) :
    answer = answerHere ∧ Extends ready left ∧ Covers start pending left after := by
  have clearOfBoth (path : Path) (named : path ∈ [compiler.outputPath input,
        (compiler.outputPath input).temporary ready.process])
      (location : Location) (onTrail : location ∈ ready.trail path) : ¬start.Hides pending location := by
    rw [covers.akin.process_eq] at named
    rw [covers.akin.trail_eq] at onTrail
    exact clear location (List.mem_flatMap.mpr ⟨path, List.mem_append_left _ named, onTrail⟩)
  have same := (within_replaceOrClean (compiler.outputPath input) artifact).agrees covers.agrees clearOfBoth
  have extended := (leaves_replaceOrClean (compiler.outputPath input) artifact ready).holds.changes.toExtends
  have keeps := agrees_replaceOrClean covers.akin replaced
  have akin : Agrees (fun _ => True) start files :=
    covers.akin.trans (covers.agrees.mono fun _ _ => trivial)
  rw [replaced, replacedHere] at same
  rw [replaced] at extended
  refine ⟨same.1.symm, extended, covers.move same.2 extended keeps.refuses_eq ?_ ?_ ?_⟩
  · exact covers.akin.trans (keeps.mono fun _ _ => trivial)
  · exact fun location hidden => entry?_of_replaceOrClean clear covers.akin replaced hidden
  · exact fun location hidden => entry?_of_replaceOrClean clear akin replacedHere hidden

end Replacing

/-- An artifact that cannot be written cannot be written in the serial run either. -/
theorem fails (ahead : compiler.Ahead inputs cache start pending serial files)
    (apart : compiler.Apart inputs cache start) (listed : input ∈ inputs)
    (free : ∀ artifact, ¬pending (compiler.outputPath input) artifact) {refusal : FileError}
    (written : (writeAtomically (compiler.outputPath input) artifact).run files =
      (.error refusal, after)) :
    ∃ left, (writeAtomically (compiler.outputPath input) artifact).run serial =
        (.error refusal, left) ∧ compiler.Ahead inputs cache start pending left after := by
  have isTarget := outputPath_mem_targets listed compiler cache
  by_cases anything : ∃ output artifact, pending output artifact
  · obtain ⟨output, other, isPending⟩ := anything
    obtain ⟨ready, covers, readies⟩ := ahead.exists_ready isPending
    obtain ⟨made, -, isReady⟩ := readies input
    have here := run_writeAtomically_of_makeReady (run_makeReady_of_ready isReady) artifact
    rcases replaced : (replaceOrClean (compiler.outputPath input) artifact).run ready with ⟨answer, left⟩
    obtain ⟨rfl, extended, stillCovers⟩ := covers_replaceOrClean
      (fun location => apart.not_hides ahead.listed isTarget free) covers replaced (here.symm.trans written)
    have serially := (run_writeAtomically_of_makeReady made artifact).trans replaced
    refine ⟨left, serially, of_covers (ahead.sane.write apart isTarget written)
      (ahead.serial_sane.write apart isTarget serially) ahead.listed stillCovers ?_⟩
    intro output artifact isPending
    obtain ⟨other, -, rfl⟩ := ahead.listed output artifact isPending
    exact extended.ready (readies other).2.1
  · have nothing (output : Path) (artifact : Bytes) : ¬pending output artifact :=
      fun isPending => anything ⟨output, artifact, isPending⟩
    have even := ahead.eq_of_none nothing
    subst even
    exact ⟨after, written, .of_none (ahead.sane.write apart isTarget written) nothing⟩

/-- For an artifact that is written the output directory is made, unless this has been done for
another that is pending. -/
theorem exists_makeReady (ahead : compiler.Ahead inputs cache start pending serial files)
    (written : (writeAtomically (compiler.outputPath input) artifact).run files = (.ok (), after)) :
    ∃ ready between, (makeReady (compiler.outputPath input)).run serial = (.ok (), ready) ∧
      (makeReady (compiler.outputPath input)).run files = (.ok (), between) ∧
        Covers start pending ready between := by
  by_cases anything : ∃ output artifact, pending output artifact
  · obtain ⟨output, other, isPending⟩ := anything
    obtain ⟨ready, covers, readies⟩ := ahead.exists_ready isPending
    obtain ⟨made, -, isReady⟩ := readies input
    exact ⟨ready, files, made, run_makeReady_of_ready isReady, covers⟩
  · have nothing (output : Path) (artifact : Bytes) : ¬pending output artifact :=
      fun isPending => anything ⟨output, artifact, isPending⟩
    have even := ahead.eq_of_none nothing
    subst even
    have keeps : Agrees _ files ((makeReady (compiler.outputPath input)).run files).2 :=
      (within_makeReady _).keeps
    rcases made : (makeReady (compiler.outputPath input)).run files with ⟨answer, ready⟩
    rw [made] at keeps
    cases answer with
    | error error =>
        rw [writeAtomically_eq, run_bind, made] at written
        cases written
    | ok value =>
        have akin : Agrees (fun _ => True) start ready :=
          (ahead.sane.agrees.mono fun _ _ => trivial).trans (keeps.mono fun _ _ => trivial)
        exact ⟨ready, ready, rfl, rfl, .of_none akin nothing⟩

/-- An artifact that has been written is pending. -/
theorem writes (ahead : compiler.Ahead inputs cache start pending serial files)
    (apart : compiler.Apart inputs cache start) (listed : input ∈ inputs)
    (free : ∀ artifact, ¬pending (compiler.outputPath input) artifact)
    (written : (writeAtomically (compiler.outputPath input) artifact).run files = (.ok (), after))
    (more : ∀ output other, rest output other ↔
      pending output other ∨ (output = compiler.outputPath input ∧ other = artifact)) :
    compiler.Ahead inputs cache start rest serial after := by
  obtain ⟨ready, between, made, madeHere, covers⟩ := ahead.exists_makeReady written
  have isTarget := outputPath_mem_targets listed compiler cache
  have clear (location : Location) (onWay : location ∈ start.way (compiler.outputPath input)) :
      ¬start.Hides pending location :=
    apart.not_hides ahead.listed isTarget free onWay
  have isRest : rest (compiler.outputPath input) artifact := (more _ _).mpr (.inr ⟨rfl, rfl⟩)
  have akin : Agrees (fun _ => True) start between :=
    covers.akin.trans (covers.agrees.mono fun _ _ => trivial)
  have here := (run_writeAtomically_of_makeReady madeHere artifact).symm.trans written
  rcases replaced : (replaceOrClean (compiler.outputPath input) artifact).run ready with ⟨answer, left⟩
  obtain ⟨rfl, -, -⟩ := covers_replaceOrClean clear covers replaced here
  have stands := entry?_of_replaced akin here
  have old {output : Path} {other : Bytes} (isPending : pending output other) :
      output ≠ compiler.outputPath input :=
    fun same => free other (same ▸ isPending)
  refine ⟨ahead.sane.write apart isTarget written, ahead.serial_sane, ?_, ready,
    ⟨covers.akin, ?_, ?_, ?_⟩, fun nothing => absurd isRest (nothing _ _), ?_⟩
  · intro output other isRest
    rcases (more _ _).mp isRest with isPending | ⟨rfl, -⟩
    · exact ahead.listed output other isPending
    · exact ⟨input, listed, rfl⟩
  -- The files differ in the places of what is pending now.
  · refine (covers.agrees.mono ?_).trans ((agrees_replaceOrClean akin here).mono ?_)
    · rintro location ⟨output, other, isPending, places⟩
      exact ⟨output, other, (more _ _).mpr (.inl isPending), places⟩
    · rintro location ⟨output, -, rfl, places⟩
      exact ⟨_, artifact, isRest, places⟩
  -- What is pending can be written in the serial run as well.
  · intro output other isRest
    rcases (more _ _).mp isRest with isPending | ⟨rfl, -⟩
    · exact covers.replaceable output other isPending
    · rw [← covers.akin.process_eq]
      exact (replaceOrClean_eq_ok_iff compiler input artifact ready).mp (congrArg Prod.fst replaced)
  -- What is pending stands in its place here.
  · intro output other isRest
    rcases (more _ _).mp isRest with isPending | ⟨rfl, rfl⟩
    · rw [entry?_of_replaceOrClean clear akin here ⟨output, other, isPending, .inl rfl⟩,
        entry?_of_replaceOrClean clear akin here ⟨output, other, isPending, .inr rfl⟩]
      exact covers.standing output other isPending
    · rw [stands, stands, if_pos rfl, if_neg (compiler.place_temporary_outputPath_ne input start),
        if_pos rfl]
      exact ⟨rfl, rfl⟩
  · intro output other isRest
    rcases (more _ _).mp isRest with isPending | ⟨rfl, -⟩
    · obtain ⟨earlier, -, rfl⟩ := ahead.listed output other isPending
      rw [compiler.makeReady_outputPath earlier input]
      exact made
    · exact made

section Recording

variable {between : FileSystem} (apart : compiler.Apart inputs cache start)
  (pendingListed : ∀ output other, pending output other →
    ∃ input ∈ inputs, compiler.outputPath input = output)
include apart pendingListed

/-- A pending artifact can be written, and is then pending no more. -/
theorem covers_replaced {ready : FileSystem} (covers : Covers start pending ready files)
    (listed : input ∈ inputs) (isPending : pending (compiler.outputPath input) artifact)
    (fewer : ∀ output other, rest output other ↔
      pending output other ∧ output ≠ compiler.outputPath input)
    (replaced : (replaceOrClean (compiler.outputPath input) artifact).run ready = (.ok (), between)) :
    Covers start rest between files := by
  have isTarget := outputPath_mem_targets listed compiler cache
  have changes := agrees_replaceOrClean covers.akin replaced
  have extended := (leaves_replaceOrClean (compiler.outputPath input) artifact ready).holds.changes.toExtends
  rw [replaced] at extended
  obtain ⟨file, temporary⟩ := covers.standing _ _ isPending
  -- The places of other artifacts are not those of this one.
  have others {output : Path} {other : Bytes} (isRest : rest output other) {location : Location}
      (places : location = start.place output ∨
        location = start.place (output.temporary start.process)) :
      ¬start.Hides (fun output _ => output = compiler.outputPath input) location := by
    obtain ⟨another, differs⟩ := (fewer _ _).mp isRest
    obtain ⟨owner, ownerListed, rfl⟩ := pendingListed output other another
    have clear := apart.written _ isTarget _ (outputPath_mem_targets ownerListed _ _) (Ne.symm differs)
    have onWay : location ∉ start.way (compiler.outputPath input) := fun onWay =>
      places.elim (clear location onWay).1 (clear location onWay).2
    rintro ⟨output, other, own, place | place⟩
    · rw [place, own] at onWay
      exact onWay (start.place_mem_way _)
    · rw [place, own] at onWay
      exact onWay (start.place_temporary_mem_way _)
  refine ⟨covers.akin.trans (changes.mono fun _ _ => trivial), ?_, ?_, ?_⟩
  · have akin : Agrees (fun _ => True) between files :=
      (changes.symm.mono fun _ _ => trivial).trans (covers.agrees.mono fun _ _ => trivial)
    refine ⟨akin.workingDirectory_eq, akin.process_eq, akin.refuses_eq, akin.root_eq, ?_⟩
    intro location uncovered
    rw [entry?_of_replaced covers.akin replaced]
    split
    next own => rw [own, file]
    next notOwn =>
      split
      next own => rw [own, temporary]
      next notTemporary =>
        refine covers.agrees.entry?_eq location ?_
        rintro ⟨output, other, hidden, places⟩
        refine uncovered ⟨output, other, (fewer _ _).mpr ⟨hidden, fun own => ?_⟩, places⟩
        rw [own] at places
        exact places.elim notOwn notTemporary
  · intro output other isRest
    apply (covers.replaceable output other ((fewer _ _).mp isRest).1).stays extended changes.refuses_eq
    · rw [covers.akin.place_eq]
      exact changes.entry?_eq _ (others isRest (.inr rfl))
    · rw [covers.akin.place_eq]
      exact changes.entry?_eq _ (others isRest (.inl rfl))
  · exact fun output other isRest => covers.standing output other ((fewer _ _).mp isRest).1

/-- Recording an artifact leaves alone what is pending. -/
theorem entry?_of_hides {decision : BuildDecision} {source : Bytes}
    {recorded : Except CompileError Outcome × Cache} (sane : compiler.Sane inputs cache start files)
    (samePath : now.path = cache.path)
    (ran : (compiler.record input decision source artifact now).run files = (recorded, after))
    {location : Location} (hidden : start.Hides pending location) :
    after.entry? location = files.entry? location := by
  obtain ⟨output, other, isPending, places⟩ := hidden
  obtain ⟨owner, listed, rfl⟩ := pendingListed output other isPending
  have kept := sane.entry?_of_record apart samePath ran listed
  rcases places with place | place
  · rw [place]
    exact kept.1
  · rw [place]
    exact kept.2

/-- Recording an artifact has the same effect however far files are ahead. -/
theorem covers_record {decision : BuildDecision} {source : Bytes}
    {recorded : Except CompileError Outcome × Cache} (covers : Covers start pending serial files)
    (sane : compiler.Sane inputs cache start files)
    (serial_sane : compiler.Sane inputs cache start serial) (samePath : now.path = cache.path)
    (ran : (compiler.record input decision source artifact now).run files = (recorded, after)) :
    ∃ last, (compiler.record input decision source artifact now).run serial = (recorded, last) ∧
      Extends serial last ∧ Covers start pending last after := by
  have clear (path : Path)
      (named : ∃ database, now.path = some database ∧ path ∈ database.writing serial.process)
      (location : Location) (onTrail : location ∈ serial.trail path) :
      ¬start.Hides pending location := by
    obtain ⟨database, hasDatabase, named⟩ := named
    have hasDatabase := samePath.symm.trans hasDatabase
    rw [covers.akin.process_eq] at named
    rw [covers.akin.trail_eq] at onTrail
    refine apart.not_hides pendingListed (database_mem_targets hasDatabase _ _) ?_
      (List.mem_flatMap.mpr ⟨path, named, onTrail⟩)
    intro artifact isPending
    obtain ⟨other, listed, same⟩ := pendingListed database artifact isPending
    exact apart.database other listed (hasDatabase.trans (congrArg some same.symm))
  have within : (compiler.record input decision source artifact now).Within serial.process _ :=
    within_record decision source artifact
  have same := within.agrees covers.agrees clear
  have keeps : Agrees _ serial ((compiler.record input decision source artifact now).run serial).2 :=
    within.keeps
  rcases serially : (compiler.record input decision source artifact now).run serial with ⟨value, last⟩
  rw [serially, ran] at same
  rw [serially] at keeps
  obtain rfl : recorded = value := same.1
  have extended : Extends serial last := by
    rcases run_record serially with ⟨-, rfl⟩ | ⟨database, data, answer, -, written⟩
    · exact .refl _
    · have writes := (leaves_writeAtomically database data serial).holds.toExtends
      rwa [written] at writes
  refine ⟨last, rfl, extended, covers.move same.2 extended keeps.refuses_eq
    (covers.akin.trans (keeps.mono fun _ _ => trivial)) ?_ ?_⟩
  · exact fun location => entry?_of_hides apart pendingListed serial_sane samePath serially
  · exact fun location => entry?_of_hides apart pendingListed sane samePath ran

end Recording

/-- A pending artifact may as well be written right before its inputs are recorded. -/
theorem records (ahead : compiler.Ahead inputs cache start pending serial files)
    (apart : compiler.Apart inputs cache start) (listed : input ∈ inputs)
    (isPending : pending (compiler.outputPath input) artifact)
    (fewer : ∀ output other, rest output other ↔
      pending output other ∧ output ≠ compiler.outputPath input)
    (samePath : now.path = cache.path) {decision : BuildDecision} {source : Bytes}
    {recorded : Except CompileError Outcome × Cache}
    (ran : (compiler.record input decision source artifact now).run files = (recorded, after)) :
    ∃ between last, (writeAtomically (compiler.outputPath input) artifact).run serial =
        (.ok (), between) ∧
      (compiler.record input decision source artifact now).run between = (recorded, last) ∧
        compiler.Ahead inputs cache start rest last after := by
  obtain ⟨ready, covers, readies⟩ := ahead.exists_ready isPending
  have can := covers.replaceable _ _ isPending
  rw [← covers.akin.process_eq, ← replaceOrClean_eq_ok_iff compiler input artifact] at can
  have extended := (leaves_replaceOrClean (compiler.outputPath input) artifact ready).holds.changes.toExtends
  rcases replaced : (replaceOrClean (compiler.outputPath input) artifact).run ready with ⟨answer, between⟩
  rw [replaced] at can extended
  obtain rfl : answer = .ok () := can
  have serially := (run_writeAtomically_of_makeReady (readies input).1 artifact).trans replaced
  have between_sane := ahead.serial_sane.write apart (outputPath_mem_targets listed _ _) serially
  have restListed (output : Path) (other : Bytes) (isRest : rest output other) :=
    ahead.listed output other ((fewer _ _).mp isRest).1
  have coversRest := covers_replaced apart ahead.listed covers listed isPending fewer replaced
  obtain ⟨last, recordedToo, more, coversLast⟩ :=
    covers_record apart restListed coversRest ahead.sane between_sane samePath ran
  refine ⟨between, last, serially, recordedToo, of_covers (ahead.sane.record apart samePath ran)
    (between_sane.record apart samePath recordedToo) restListed coversLast ?_⟩
  intro output other isRest
  obtain ⟨owner, -, rfl⟩ := restListed output other isRest
  exact more.ready (extended.ready (readies owner).2.1)

end Ahead

end Compiler

end SceneForge
