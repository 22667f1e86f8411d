import SceneForge.Proofs.Compile.Ahead

/-!
# One by one

A batch comes to what compiling its inputs one by one comes to, in the order in which they
have their turns: an input that fails early has its turn when it does, and one that is
written when it is recorded. Until its turn a task holds the lock of its artifact, so that
no other task changes what it has found.
-/

namespace SceneForge

open FileSystem Program

namespace Progress

/-- The result, whether or not the lock is released. -/
def ended? : Progress → Option (Except CompileError Outcome)
  | settled result | finished result => some result
  | waiting | taken | locked | judged _ | built .. | written .. => none

/-- The artifact that has been written and is still to be recorded. -/
def written? : Progress → Option Bytes
  | written _ _ artifact => some artifact
  | waiting | taken | locked | judged _ | built .. | settled _ | finished _ => none

theorem isHolding_of_written? {progress : Progress} {artifact : Bytes}
    (written : progress.written? = some artifact) : progress.isHolding := by
  cases progress <;> first | rfl | cases written

end Progress

namespace Batch

/-- The artifacts of a batch that have been written, but not recorded yet. -/
def Pending (compiler : Compiler) (batch : Batch) (output : Path) (artifact : Bytes) : Prop :=
  ∃ (index : Nat) (input : Path) (progress : Progress), batch.tasks[index]? = some (input, progress) ∧
    progress.written? = some artifact ∧ compiler.outputPath input = output

/-- The inputs that have had their turns, with their results. -/
def ended (batch : Batch) : List (Path × Except CompileError Outcome) :=
  batch.tasks.filterMap fun task => task.2.ended?.map (Prod.mk task.1)

/-- Whether no two tasks hold the same artifact. -/
structure Exclusive (compiler : Compiler) (batch : Batch) : Prop where
  eq_of_key : ∀ {first second : Nat} {input other : Path} {progress otherProgress : Progress},
    batch.tasks[first]? = some (input, progress) →
      batch.tasks[second]? = some (other, otherProgress) → progress.isHolding →
        otherProgress.isHolding → (compiler.request input).key = (compiler.request other).key →
          first = second

variable {compiler : Compiler} {batch : Batch} {index other : Nat} {input output : Path}
  {progress next : Progress} {artifact : Bytes}

theorem task_moved_of_ne (differs : other ≠ index) (batch : Batch) (input : Path) (next : Progress) :
    (batch.moved index input next).tasks[other]? = batch.tasks[other]? :=
  List.getElem?_set_ne differs.symm

/-- A task of a batch in which one has come further is this one, or has not changed. -/
theorem task_of_moved {task : Path × Progress} (stood : batch.tasks[index]? = some (input, progress))
    (stands : (batch.moved index input next).tasks[other]? = some task) :
    (other = index ∧ task = (input, next)) ∨ (other ≠ index ∧ batch.tasks[other]? = some task) := by
  by_cases same : other = index
  · rw [same, task_moved stood] at stands
    exact .inl ⟨same, (Option.some.inj stands).symm⟩
  · rw [task_moved_of_ne same] at stands
    exact .inr ⟨same, stands⟩

/-- A lock that is held, or free, is held by one task. -/
theorem Exclusive.move (exclusive : batch.Exclusive compiler)
    (task : batch.tasks[index]? = some (input, progress))
    (may : next.isHolding → progress.isHolding ∨ batch.mayLock compiler input) :
    (batch.moved index input next).Exclusive compiler := by
  -- No other task holds what the one that comes further may hold.
  have alone {other : Nat} {path : Path} {held : Progress} (differs : other ≠ index)
      (stands : batch.tasks[other]? = some (path, held)) (holds : held.isHolding)
      (nextHolds : next.isHolding) : (compiler.request path).key ≠ (compiler.request input).key := by
    intro same
    rcases may nextHolds with holding | free
    · exact differs (exclusive.eq_of_key stands task holds holding same)
    · rw [mayLock, Bool.not_eq_true', List.any_eq_false] at free
      have free := free _ (List.mem_of_getElem? stands)
      simp [holds, same] at free
  constructor
  intro first second path other held otherHeld stands otherStands holds otherHolds same
  rcases task_of_moved task stands with ⟨rfl, own⟩ | ⟨differs, stood⟩
  · cases own
    rcases task_of_moved task otherStands with ⟨rfl, -⟩ | ⟨otherDiffers, otherStood⟩
    · rfl
    · exact absurd same.symm (alone otherDiffers otherStood otherHolds holds)
  · rcases task_of_moved task otherStands with ⟨rfl, own⟩ | ⟨-, otherStood⟩
    · cases own
      exact absurd same (alone differs stood holds otherHolds)
    · exact exclusive.eq_of_key stood otherStood holds otherHolds same

/-- What a task holds without having written it is not pending. -/
theorem Exclusive.not_pending (exclusive : batch.Exclusive compiler)
    (task : batch.tasks[index]? = some (input, progress)) (holding : progress.isHolding)
    (unwritten : progress.written? = none) (artifact : Bytes) :
    ¬batch.Pending compiler (compiler.outputPath input) artifact := by
  rintro ⟨other, path, held, stands, written, same⟩
  obtain rfl := exclusive.eq_of_key stands task (Progress.isHolding_of_written? written) holding
    (Compiler.key_eq_of_outputPath same)
  cases task.symm.trans stands
  cases unwritten.symm.trans written

/-- What is pending once a task has come further. -/
theorem pending_moved_iff (task : batch.tasks[index]? = some (input, progress)) :
    (batch.moved index input next).Pending compiler output artifact ↔
      (next.written? = some artifact ∧ compiler.outputPath input = output) ∨
        ∃ other ≠ index, ∃ path held, batch.tasks[other]? = some (path, held) ∧
          held.written? = some artifact ∧ compiler.outputPath path = output := by
  constructor
  · rintro ⟨other, path, held, stands, written, same⟩
    rcases task_of_moved task stands with ⟨-, own⟩ | ⟨differs, stood⟩
    · cases own
      exact .inl ⟨written, same⟩
    · exact .inr ⟨other, differs, path, held, stood, written, same⟩
  · rintro (⟨written, same⟩ | ⟨other, differs, path, held, stood, written, same⟩)
    · exact ⟨index, input, next, task_moved task input next, written, same⟩
    · exact ⟨other, path, held, (task_moved_of_ne differs batch input next).trans stood, written, same⟩

/-- Where a task has not written, what is pending is so because of others. -/
theorem pending_iff_of_unwritten (task : batch.tasks[index]? = some (input, progress))
    (unwritten : progress.written? = none) :
    batch.Pending compiler output artifact ↔
      ∃ other ≠ index, ∃ path held, batch.tasks[other]? = some (path, held) ∧
        held.written? = some artifact ∧ compiler.outputPath path = output := by
  constructor
  · rintro ⟨other, path, held, stands, written, same⟩
    refine ⟨other, ?_, path, held, stands, written, same⟩
    rintro rfl
    cases task.symm.trans stands
    cases unwritten.symm.trans written
  · rintro ⟨other, -, path, held, stands, written, same⟩
    exact ⟨other, path, held, stands, written, same⟩

/-- Nothing becomes pending, or ceases to be, by a step that writes and records nothing. -/
theorem pending_moved_eq (task : batch.tasks[index]? = some (input, progress))
    (unwritten : progress.written? = none) (nothing : next.written? = none) :
    (batch.moved index input next).Pending compiler = batch.Pending compiler := by
  funext output artifact
  rw [eq_iff_iff, pending_moved_iff task, pending_iff_of_unwritten task unwritten, nothing]
  simp

/-- Writing an artifact makes it pending. -/
theorem pending_moved_of_written (task : batch.tasks[index]? = some (input, progress))
    (unwritten : progress.written? = none) (written : next.written? = some artifact)
    (output : Path) (other : Bytes) :
    (batch.moved index input next).Pending compiler output other ↔
      batch.Pending compiler output other ∨
        (output = compiler.outputPath input ∧ other = artifact) := by
  rw [pending_moved_iff task, pending_iff_of_unwritten task unwritten, written, or_comm,
    Option.some.injEq, and_comm, @eq_comm _ artifact, @eq_comm _ (compiler.outputPath input)]

/-- An artifact whose task comes further is pending no more. -/
theorem pending_moved_of_recorded (exclusive : batch.Exclusive compiler)
    (task : batch.tasks[index]? = some (input, progress)) (written : progress.written? = some artifact)
    (nothing : next.written? = none) (output : Path) (other : Bytes) :
    (batch.moved index input next).Pending compiler output other ↔
      batch.Pending compiler output other ∧ output ≠ compiler.outputPath input := by
  rw [pending_moved_iff task, nothing]
  constructor
  · rintro (⟨wrong, -⟩ | ⟨place, differs, path, held, stands, otherWritten, rfl⟩)
    · cases wrong
    · refine ⟨⟨place, path, held, stands, otherWritten, rfl⟩, fun same => differs ?_⟩
      exact exclusive.eq_of_key stands task (Progress.isHolding_of_written? otherWritten)
        (Progress.isHolding_of_written? written) (Compiler.key_eq_of_outputPath same)
  · rintro ⟨⟨place, path, held, stands, otherWritten, rfl⟩, differs⟩
    refine .inr ⟨place, ?_, path, held, stands, otherWritten, rfl⟩
    rintro rfl
    cases task.symm.trans stands
    exact differs rfl

/-- Replacing an element by one with the same image changes no image. -/
theorem filterMap_set_of_eq {α β : Type} {image : α → Option β} {list : List α} {value next : α}
    (stands : list[index]? = some value) (same : image next = image value) :
    (list.set index next).filterMap image = list.filterMap image := by
  induction list generalizing index with
  | nil => rfl
  | cons head tail ih =>
      cases index with
      | zero =>
          cases stands
          rw [List.set_cons_zero, List.filterMap_cons, List.filterMap_cons, same]
      | succ index =>
          rw [List.set_cons_succ, List.filterMap_cons, List.filterMap_cons, ih stands]

/-- Replacing an element without an image by one that has one adds this image. -/
theorem filterMap_set_perm {α β : Type} {image : α → Option β} {list : List α} {value next : α}
    {added : β} (stands : list[index]? = some value) (without : image value = none)
    (has : image next = some added) :
    ((list.set index next).filterMap image).Perm (added :: list.filterMap image) := by
  induction list generalizing index with
  | nil => cases stands
  | cons head tail ih =>
      cases index with
      | zero =>
          cases stands
          rw [List.set_cons_zero, List.filterMap_cons_some has, List.filterMap_cons_none without]
      | succ index =>
          rw [List.set_cons_succ]
          cases headHas : image head with
          | none =>
              rw [List.filterMap_cons_none headHas, List.filterMap_cons_none headHas]
              exact ih stands
          | some earlier =>
              rw [List.filterMap_cons_some headHas, List.filterMap_cons_some headHas]
              exact ((ih stands).cons earlier).trans (.swap added earlier _)

theorem ended_start (inputs : List Path) (cache : Cache) : (start inputs cache).ended = [] := by
  rw [ended, List.filterMap_eq_nil_iff]
  intro task member
  obtain ⟨input, -, rfl⟩ := List.mem_map.mp member
  rfl

/-- Once all are finished, all have had their turns. -/
theorem ended_of_results? {inputs : List Path} {results : List (Except CompileError Outcome)}
    (names : batch.tasks.map Prod.fst = inputs) (finished : batch.results? = some results) :
    results.length = inputs.length ∧ batch.ended = inputs.zip results := by
  have progress := results?_eq_some_iff.mp finished
  rw [ended]
  induction tasks : batch.tasks generalizing batch inputs results with
  | nil =>
      rw [tasks] at names progress
      cases names
      cases results with
      | nil => exact ⟨rfl, rfl⟩
      | cons => cases progress
  | cons task rest ih =>
      rw [tasks] at names progress
      cases results with
      | nil => cases progress
      | cons result others =>
          obtain ⟨first, others'⟩ := List.cons.inj progress
          cases names
          have restFinished : ({ batch with tasks := rest } : Batch).results? = some others :=
            results?_eq_some_iff.mpr others'
          obtain ⟨lengths, zipped⟩ := ih rfl restFinished others' rfl
          constructor
          · rw [List.length_cons, lengths]
            rfl
          · rw [List.filterMap_cons, first, zipped]
            rfl

end Batch

namespace Compiler

variable {compiler : Compiler} {inputs : List Path} {cache now : Cache}
  {start serial last files after : FileSystem} {input other : Path} {progress next : Progress}
  {result : Except CompileError Outcome} {batch : Batch} {index workers : Nat}

/-- Compiling one more input. -/
theorem run_compileAll_append {front : List Path} {results : List (Except CompileError Outcome)}
    {between : Cache} {left : FileSystem}
    (ran : (compiler.compileAll front cache).run files = ((results, between), left))
    (compiled : (compiler.compile input between).run left = ((result, now), after)) :
    (compiler.compileAll (front ++ [input]) cache).run files = ((results ++ [result], now), after) := by
  induction front generalizing cache files results with
  | nil =>
      cases ran
      rw [List.nil_append, compileAll, run_bind, compiled]
      rfl
  | cons first rest ih =>
      rcases compiledFirst : (compiler.compile first cache).run files with ⟨⟨firstResult, nextCache⟩, next⟩
      rcases ranRest : (compiler.compileAll rest nextCache).run next with ⟨⟨others, final⟩, final'⟩
      have runs {tail : List Path} {results : List (Except CompileError Outcome)} {last : Cache}
          {left : FileSystem} (ran : (compiler.compileAll tail nextCache).run next = ((results, last), left)) :
          (compiler.compileAll (first :: tail) cache).run files = ((firstResult :: results, last), left) := by
        rw [compileAll, run_bind, compiledFirst]
        dsimp only
        rw [run_bind, ran]
        rfl
      rw [runs ranRest] at ran
      cases ran
      exact runs (ih ranRest)

/-- What the gate says of an artifact that is not pending does not depend on how far files are
ahead. -/
theorem Ahead.judge_eq {pending : Path → Bytes → Prop}
    (ahead : compiler.Ahead inputs cache start pending serial files)
    (apart : compiler.Apart inputs cache start) (listed : input ∈ inputs)
    (free : ∀ artifact, ¬pending (compiler.outputPath input) artifact) (now : Cache) :
    ((compiler.judge input now).run.run serial).1 = ((compiler.judge input now).run.run files).1 := by
  refine (answersAs_judge (fun path member => ?_) ?_ rfl).eq
  · have named : path ∈ inputs ++ compiler.catalog.dependencies := by
      rcases List.mem_cons.mp member with rfl | dependency
      · exact List.mem_append_left _ listed
      · exact List.mem_append_right _ dependency
    rw [ahead.serial_sane.read_eq apart named, ahead.sane.read_eq apart named]
  · exact ahead.sane.pathExists_eq ahead.serial_sane listed (ahead.entry?_eq apart listed free).symm

/-- What a task has found is what is found in compiling its input in its turn. -/
inductive Foresees (compiler : Compiler) (now : Cache) (serial : FileSystem) (input : Path) :
    Progress → Prop where
  | waiting : Foresees compiler now serial input .waiting
  | taken : Foresees compiler now serial input .taken
  | locked : Foresees compiler now serial input .locked
  | judged {decision : BuildDecision} :
      ((compiler.judge input now).run.run serial).1 = .ok decision →
        Foresees compiler now serial input (.judged decision)
  | built {decision : BuildDecision} {source artifact : Bytes} :
      ((compiler.judge input now).run.run serial).1 = .ok decision →
        ((compiler.buildInput input).run.run serial).1 = .ok (source, artifact) →
          Foresees compiler now serial input (.built decision source artifact)
  | written {decision : BuildDecision} {source artifact : Bytes} :
      ((compiler.judge input now).run.run serial).1 = .ok decision →
        ((compiler.buildInput input).run.run serial).1 = .ok (source, artifact) →
          Foresees compiler now serial input (.written decision source artifact)
  | settled (result : Except CompileError Outcome) :
      Foresees compiler now serial input (.settled result)
  | finished (result : Except CompileError Outcome) :
      Foresees compiler now serial input (.finished result)

/-- What a task foresees stays so while the gate judges the same and sources read the same. -/
theorem Foresees.stays {later : Cache} (foresees : compiler.Foresees now serial input progress)
    (judges : progress.isHolding → ((compiler.judge input later).run.run last).1 =
      ((compiler.judge input now).run.run serial).1)
    (reads : last.read input = serial.read input) : compiler.Foresees later last input progress := by
  have builds : ((compiler.buildInput input).run.run last).1 =
      ((compiler.buildInput input).run.run serial).1 :=
    (answersAs_buildInput reads).eq
  cases foresees with
  | waiting => exact .waiting
  | taken => exact .taken
  | locked => exact .locked
  | judged found => exact .judged ((judges rfl).trans found)
  | built found compiled => exact .built ((judges rfl).trans found) (builds.trans compiled)
  | written found compiled => exact .written ((judges rfl).trans found) (builds.trans compiled)
  | settled result => exact .settled result
  | finished result => exact .finished result

/-- A batch has come as far as compiling inputs one by one, in their turns. -/
structure Serial (compiler : Compiler) (inputs : List Path) (cache : Cache) (start : FileSystem)
    (turns : List (Path × Except CompileError Outcome)) (serial : FileSystem) (batch : Batch)
    (files : FileSystem) : Prop where
  names : batch.tasks.map Prod.fst = inputs
  path_eq : batch.cache.path = cache.path
  exclusive : batch.Exclusive compiler
  turns_perm : turns.Perm batch.ended
  ran : (compiler.compileAll (turns.map Prod.fst) cache).run start =
    ((turns.map Prod.snd, batch.cache), serial)
  ahead : compiler.Ahead inputs cache start (batch.Pending compiler) serial files
  foresees : ∀ (index : Nat) (input : Path) (progress : Progress),
    batch.tasks[index]? = some (input, progress) → compiler.Foresees batch.cache serial input progress

namespace Serial

variable {turns : List (Path × Except CompileError Outcome)}

theorem listed (holds : compiler.Serial inputs cache start turns serial batch files)
    (task : batch.tasks[index]? = some (input, progress)) : input ∈ inputs := by
  rw [← holds.names]
  exact List.mem_map_of_mem (List.mem_of_getElem? task)

/-- A task goes on without having had its turn. -/
theorem go_on (holds : compiler.Serial inputs cache start turns serial batch files)
    (task : batch.tasks[index]? = some (input, progress)) (same : next.ended? = progress.ended?)
    (may : next.isHolding → progress.isHolding ∨ batch.mayLock compiler input)
    (ahead : compiler.Ahead inputs cache start ((batch.moved index input next).Pending compiler) serial
      after)
    (foresees : compiler.Foresees batch.cache serial input next) :
    compiler.Serial inputs cache start turns serial (batch.moved index input next) after where
  names := (Batch.inputs_moved task next).trans holds.names
  path_eq := holds.path_eq
  exclusive := holds.exclusive.move task may
  turns_perm := by
    have images : (batch.moved index input next).ended = batch.ended :=
      Batch.filterMap_set_of_eq task (by rw [same])
    rw [images]
    exact holds.turns_perm
  ran := holds.ran
  ahead
  foresees place path held stands := by
    rcases Batch.task_of_moved task stands with ⟨-, own⟩ | ⟨-, stood⟩
    · cases own
      exact foresees
    · exact holds.foresees place path held stood

/-- A task has its turn: it ends with what compiling its input comes to now. -/
theorem end_turn (holds : compiler.Serial inputs cache start turns serial batch files)
    (apart : compiler.Apart inputs cache start)
    (task : batch.tasks[index]? = some (input, progress)) (holding : progress.isHolding)
    (unended : progress.ended? = none)
    (compiled : (compiler.compile input batch.cache).run serial = ((result, now), last))
    (ahead : compiler.Ahead inputs cache start
      ((batch.moved index input (.settled result)).Pending compiler) last after) :
    compiler.Serial inputs cache start (turns ++ [(input, result)]) last
      { batch.moved index input (.settled result) with cache := now } after := by
  obtain ⟨last_sane, path, apartFrom⟩ :=
    holds.ahead.serial_sane.compile apart (holds.listed task) holds.path_eq compiled
  have exclusive : (batch.moved index input (.settled result)).Exclusive compiler :=
    holds.exclusive.move task fun _ => .inl holding
  refine ⟨(Batch.inputs_moved task _).trans holds.names, path, ⟨exclusive.eq_of_key⟩, ?_, ?_, ahead, ?_⟩
  · have ended : (batch.moved index input (.settled result)).ended.Perm
        ((input, result) :: batch.ended) :=
      Batch.filterMap_set_perm task (Option.map_eq_none_iff.mpr unended) rfl
    exact (List.perm_append_singleton _ _).trans ((holds.turns_perm.cons _).trans ended.symm)
  · rw [List.map_append, List.map_append]
    exact run_compileAll_append holds.ran compiled
  · intro place other held stands
    rcases Batch.task_of_moved task stands with ⟨-, own⟩ | ⟨differs, stood⟩
    · cases own
      exact .settled result
    · have otherListed := holds.listed stood
      have reads {path : Path} (member : path ∈ inputs ++ compiler.catalog.dependencies) :
          last.read path = serial.read path := by
        rw [last_sane.read_eq apart member, holds.ahead.serial_sane.read_eq apart member]
      refine (holds.foresees place other held stood).stays (fun held => ?_)
        (reads (List.mem_append_left _ otherListed))
      -- The lock keeps the artifact and its record from being changed by others.
      have keys : (compiler.request other).key ≠ (compiler.request input).key :=
        fun same => differs (holds.exclusive.eq_of_key stood task held holding same)
      obtain ⟨entry, record⟩ := apartFrom other otherListed keys
      refine (answersAs_judge (fun path member => reads ?_) ?_ record).eq
      · rcases List.mem_cons.mp member with rfl | dependency
        · exact List.mem_append_left _ otherListed
        · exact List.mem_append_right _ dependency
      · exact holds.ahead.serial_sane.pathExists_eq last_sane otherListed entry

theorem buildInput_eq (holds : compiler.Serial inputs cache start turns serial batch files)
    (apart : compiler.Apart inputs cache start)
    (task : batch.tasks[index]? = some (input, progress)) :
    ((compiler.buildInput input).run.run serial).1 = ((compiler.buildInput input).run.run files).1 := by
  have listed := List.mem_append_left compiler.catalog.dependencies (holds.listed task)
  refine (answersAs_buildInput ?_).eq
  rw [holds.ahead.serial_sane.read_eq apart listed, holds.ahead.sane.read_eq apart listed]

/-- Every step preserves this, for some of the inputs that have their turn. -/
theorem step (holds : compiler.Serial inputs cache start turns serial batch files)
    (apart : compiler.Apart inputs cache start) {nextBatch : Batch}
    (stepped : Batch.Stepped compiler workers batch index files nextBatch after) :
    ∃ turns serial, compiler.Serial inputs cache start turns serial nextBatch after := by
  -- A step that writes and records nothing leaves files as far ahead as they are.
  have still {input : Path} {progress next : Progress}
      (task : batch.tasks[index]? = some (input, progress)) (unwritten : progress.written? = none)
      (nothing : next.written? = none) :
      compiler.Ahead inputs cache start ((batch.moved index input next).Pending compiler) serial files := by
    rw [Batch.pending_moved_eq task unwritten nothing]
    exact holds.ahead
  cases stepped with
  | waited => exact ⟨turns, serial, holds⟩
  | took task =>
      exact ⟨turns, serial, holds.go_on task rfl nofun (still task rfl rfl) .taken⟩
  | locked task free =>
      exact ⟨turns, serial, holds.go_on task rfl (fun _ => .inr free) (still task rfl rfl) .locked⟩
  | judged task judged =>
      have same := holds.ahead.judge_eq apart (holds.listed task)
        (holds.exclusive.not_pending task rfl rfl) batch.cache
      exact ⟨turns, serial, holds.go_on task rfl (fun _ => .inl rfl) (still task rfl rfl)
        (.judged (same.trans judged))⟩
  | endedJudging task judged =>
      have same := holds.ahead.judge_eq apart (holds.listed task)
        (holds.exclusive.not_pending task rfl rfl) batch.cache
      exact ⟨_, serial, holds.end_turn apart task rfl rfl
        (run_compile_of_judge (same.trans judged)) (still task rfl rfl)⟩
  | built task built =>
      cases holds.foresees _ _ _ task with
      | judged found =>
          exact ⟨turns, serial, holds.go_on task rfl (fun _ => .inl rfl) (still task rfl rfl)
            (.built found ((holds.buildInput_eq apart task).trans built))⟩
  | endedBuilding task built =>
      cases holds.foresees _ _ _ task with
      | judged found =>
          exact ⟨_, serial, holds.end_turn apart task rfl rfl
            (run_compile_of_build found ((holds.buildInput_eq apart task).trans built))
            (still task rfl rfl)⟩
  | @written input decision source artifact after task written =>
      rcases write_cases written with ⟨-, written⟩ | ⟨refusal, wrong, -⟩
      · cases holds.foresees _ _ _ task with
        | built found compiled =>
            -- In the serial run it is written only in its turn, right before it is recorded.
            have more := @Batch.pending_moved_of_written compiler batch index input
              (.built decision source artifact) (.written decision source artifact) artifact task rfl rfl
            exact ⟨turns, serial, holds.go_on task rfl (fun _ => .inl rfl)
              (holds.ahead.writes apart (holds.listed task) (holds.exclusive.not_pending task rfl rfl)
                written more) (.written found compiled)⟩
      · cases wrong
  | @endedWriting input decision source artifact result after task written =>
      rcases write_cases written with ⟨wrong, -⟩ | ⟨refusal, ended, written⟩
      · cases wrong
      · cases holds.foresees _ _ _ task with
        | built found compiled =>
            obtain ⟨left, serially, ahead⟩ := holds.ahead.fails apart (holds.listed task)
              (holds.exclusive.not_pending task rfl rfl) written
            have writes : (compiler.write input artifact).run.run serial = (.error result, left) :=
              ended ▸ run_write_of_error serially
            refine ⟨_, left, holds.end_turn apart task rfl rfl
              (run_compile_of_write found compiled writes) ?_⟩
            rw [Batch.pending_moved_eq task rfl rfl]
            exact ahead
  | @recorded input decision source artifact result now after task recorded =>
      cases holds.foresees _ _ _ task with
      | written found compiled =>
          -- Its turn has come: the serial run writes and records it at once.
          have fewer := @Batch.pending_moved_of_recorded compiler batch index input
            (.written decision source artifact) (.settled result) artifact holds.exclusive task rfl rfl
          obtain ⟨between, last, serially, recordedToo, ahead⟩ := holds.ahead.records apart
            (holds.listed task) ⟨index, input, _, task, rfl, rfl⟩ fewer holds.path_eq recorded
          exact ⟨_, last, holds.end_turn apart task rfl rfl
            ((run_compile_of_written found compiled (run_write_of_ok serially)).trans recordedToo) ahead⟩
  | released task =>
      exact ⟨turns, serial, holds.go_on task rfl nofun (still task rfl rfl) (.finished _)⟩

/-- It holds in the beginning, when no input has had its turn. -/
theorem start_of_found (found : compiler.Found inputs start) (cache : Cache) :
    compiler.Serial inputs cache start [] start (.start inputs cache) start := by
  have waits {index : Nat} {input : Path} {progress : Progress}
      (task : (Batch.start inputs cache).tasks[index]? = some (input, progress)) : progress = .waiting := by
    obtain ⟨path, -, same⟩ := List.mem_map.mp (List.mem_of_getElem? task)
    exact (congrArg Prod.snd same).symm
  refine ⟨Batch.inputs_start inputs cache, rfl, ⟨?_⟩, ?_, rfl, ?_, ?_⟩
  · intro first second input other progress otherProgress task _ holding
    rw [waits task] at holding
    cases holding
  · rw [Batch.ended_start]
  · refine .of_none (found.sane cache) ?_
    rintro output artifact ⟨index, input, progress, task, written, -⟩
    rw [waits task] at written
    cases written
  · intro index input progress task
    rw [waits task]
    exact .waiting

/-- Whatever the schedule, a batch has come as far as compiling some inputs one by one. -/
theorem of_follow (apart : compiler.Apart inputs cache start) (found : compiler.Found inputs start)
    (workers : Nat) (schedule : List Nat) :
    (Batch.follow compiler workers schedule (.start inputs cache)).Leaves start fun batch files =>
      ∃ turns serial, compiler.Serial inputs cache start turns serial batch files := by
  have anywhere : Batch.Throughout compiler workers schedule (.start inputs cache) start
      fun _ => True := fun _ => trivial
  refine Batch.leaves_follow (fun _ _ stepped holds => ?_) anywhere ⟨[], start, start_of_found found cache⟩
  obtain ⟨turns, serial, holds⟩ := holds
  exact holds.step apart stepped

/-- Once a batch is done, it has come to what compiling its inputs one by one comes to. -/
theorem of_results? (holds : compiler.Serial inputs cache start turns serial batch files)
    {results : List (Except CompileError Outcome)} (finished : batch.results? = some results) :
    turns.Perm (inputs.zip results) ∧
      (compiler.compileAll (turns.map Prod.fst) cache).run start =
        ((turns.map Prod.snd, batch.cache), files) := by
  have nothing (output : Path) (artifact : Bytes) : ¬batch.Pending compiler output artifact := by
    rintro ⟨index, input, progress, task, written, -⟩
    have ended := congrArg (·[index]?) (Batch.results?_eq_some_iff.mp finished)
    simp only [List.getElem?_map, task, Option.map_some] at ended
    obtain ⟨result, -, same⟩ := Option.map_eq_some_iff.mp ended.symm
    rw [← same] at written
    cases written
  rw [holds.ahead.eq_of_none nothing, ← (Batch.ended_of_results? holds.names finished).2]
  exact ⟨holds.turns_perm, holds.ran⟩

end Serial

end Compiler

end SceneForge
