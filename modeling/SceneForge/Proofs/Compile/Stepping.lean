import SceneForge.Compile.Schedule
import SceneForge.Proofs.Compile.Phases

/-!
# Steps of a batch

What one step of a batch can do, of which everything that holds of its schedules follows:
a task waits, goes on with what a phase of compiling came to, or ends with its result.
-/

namespace SceneForge

open Program

namespace Compiler

variable {compiler : Compiler} {input : Path} {cache : Cache} {files after : FileSystem}
  {decision : BuildDecision} {source artifact : Bytes} {result : Except CompileError Outcome}

theorem run_judge {answer : Except (Except CompileError Outcome) BuildDecision}
    (judged : ((compiler.judge input cache).run.run files).1 = answer) :
    (compiler.judge input cache).run.run files = (answer, files) :=
  Prod.ext judged (leaves_judge compiler input cache files).holds.1

theorem run_buildInput {answer : Except (Except CompileError Outcome) (Bytes × Bytes)}
    (built : ((compiler.buildInput input).run.run files).1 = answer) :
    (compiler.buildInput input).run.run files = (answer, files) :=
  Prod.ext built (leaves_buildInput compiler input files).holds.1

/-- The artifact is written as a file is, with an error of its own. -/
theorem run_write (compiler : Compiler) (input : Path) (artifact : Bytes) (files : FileSystem) :
    (compiler.write input artifact).run.run files =
      (((writeAtomically (compiler.outputPath input) artifact).run files).1.mapError
        fun _ => .error (.outputWrite (compiler.outputPath input)),
      ((writeAtomically (compiler.outputPath input) artifact).run files).2) := by
  have writes : (compiler.write input artifact).run.Leaves files fun answer after =>
      answer = ((writeAtomically (compiler.outputPath input) artifact).run files).1.mapError
        (fun _ => .error (.outputWrite (compiler.outputPath input))) ∧
      after = ((writeAtomically (compiler.outputPath input) artifact).run files).2 := by
    rw [write]
    apply leaves_bind_of_failing.mpr
    apply leaves_lift.mpr
    apply (leaves_run _ files).mono
    intro answer after ran
    rw [ran]
    cases answer with
    | error refusal =>
        exact leaves_pure.mpr ⟨rfl, rfl⟩
    | ok value => exact leaves_pure.mpr ⟨rfl, rfl⟩
  obtain ⟨answered, left⟩ := writes.holds
  rw [← answered, ← left]

theorem run_write_of_ok
    (written : (writeAtomically (compiler.outputPath input) artifact).run files = (.ok (), after)) :
    (compiler.write input artifact).run.run files = (.ok (), after) := by
  rw [run_write, written]
  rfl

theorem run_write_of_error {refusal : FileError}
    (written : (writeAtomically (compiler.outputPath input) artifact).run files =
      (.error refusal, after)) :
    (compiler.write input artifact).run.run files =
      (.error (.error (.outputWrite (compiler.outputPath input))), after) := by
  rw [run_write, written]
  rfl

theorem write_cases {answer : Except (Except CompileError Outcome) Unit}
    (written : (compiler.write input artifact).run.run files = (answer, after)) :
    (answer = .ok () ∧
        (writeAtomically (compiler.outputPath input) artifact).run files = (.ok (), after)) ∨
      ∃ refusal, answer = .error (.error (.outputWrite (compiler.outputPath input))) ∧
        (writeAtomically (compiler.outputPath input) artifact).run files = (.error refusal, after) := by
  rw [run_write] at written
  rcases ran : (writeAtomically (compiler.outputPath input) artifact).run files with ⟨outcome, left⟩
  rw [ran] at written
  cases outcome with
  | ok value =>
      cases written
      exact .inl ⟨rfl, rfl⟩
  | error refusal =>
      cases written
      exact .inr ⟨refusal, rfl, rfl⟩

/-! What compiling comes to, by how far it gets. -/

theorem run_compile_of_judge (judged : ((compiler.judge input cache).run.run files).1 = .error result) :
    (compiler.compile input cache).run files = ((result, cache), files) := by
  rw [compile_eq, phases, ExceptT.run_bind, run_bind, run_bind, run_judge judged]
  rfl

theorem run_compile_of_build (judged : ((compiler.judge input cache).run.run files).1 = .ok decision)
    (built : ((compiler.buildInput input).run.run files).1 = .error result) :
    (compiler.compile input cache).run files = ((result, cache), files) := by
  rw [compile_eq, phases, ExceptT.run_bind, run_bind, run_bind, run_judge judged]
  dsimp only
  rw [ExceptT.run_bind, run_bind, run_buildInput built]
  rfl

theorem run_compile_of_write (judged : ((compiler.judge input cache).run.run files).1 = .ok decision)
    (built : ((compiler.buildInput input).run.run files).1 = .ok (source, artifact))
    (written : (compiler.write input artifact).run.run files = (.error result, after)) :
    (compiler.compile input cache).run files = ((result, cache), after) := by
  rw [compile_eq, phases, ExceptT.run_bind, run_bind, run_bind, run_judge judged]
  dsimp only
  rw [ExceptT.run_bind, run_bind, run_buildInput built]
  dsimp only
  rw [ExceptT.run_bind, run_bind, written]
  rfl

theorem run_compile_of_written (judged : ((compiler.judge input cache).run.run files).1 = .ok decision)
    (built : ((compiler.buildInput input).run.run files).1 = .ok (source, artifact))
    (written : (compiler.write input artifact).run.run files = (.ok (), after)) :
    (compiler.compile input cache).run files =
      (compiler.record input decision source artifact cache).run after := by
  rw [compile_eq, phases, ExceptT.run_bind, run_bind, run_bind, run_judge judged]
  dsimp only
  rw [ExceptT.run_bind, run_bind, run_buildInput built]
  dsimp only
  rw [ExceptT.run_bind, run_bind, written]
  rfl

/-- Without a database, what can be built and written is compiled, unless it is up to date. -/
theorem compile_of_inMemory (inMemory : cache.path = none)
    (judged : ((compiler.judge input cache).run.run files).1 = .ok decision)
    (built : compiler.Builds input files source artifact)
    (written : (writeAtomically (compiler.outputPath input) artifact).run files = (.ok (), after)) :
    (compiler.compile input cache).run files =
      ((.ok (.compiled (compiler.outputPath input) artifact.length),
        { cache with records := compiler.recordsAfter input cache decision source }), after) := by
  rw [run_compile_of_written judged built.leaves.holds.1 (run_write_of_ok written)]
  exact record_of_inMemory inMemory after

/-- Compiling changes no file, or writes an artifact and stops, or also records it. -/
theorem compile_cases {now : Cache}
    (ran : (compiler.compile input cache).run files = ((result, now), after)) :
    (now = cache ∧ after = files) ∨
      (∃ artifact answer, now = cache ∧
        (writeAtomically (compiler.outputPath input) artifact).run files = (answer, after)) ∨
      ∃ decision source artifact between,
        (writeAtomically (compiler.outputPath input) artifact).run files = (.ok (), between) ∧
          (compiler.record input decision source artifact cache).run between = ((result, now), after) := by
  cases judged : ((compiler.judge input cache).run.run files).1 with
  | error ended =>
      rw [run_compile_of_judge judged] at ran
      cases ran
      exact .inl ⟨rfl, rfl⟩
  | ok decision =>
      cases built : ((compiler.buildInput input).run.run files).1 with
      | error ended =>
          rw [run_compile_of_build judged built] at ran
          cases ran
          exact .inl ⟨rfl, rfl⟩
      | ok value =>
          obtain ⟨source, artifact⟩ := value
          have writes := run_write compiler input artifact files
          rcases written : (writeAtomically (compiler.outputPath input) artifact).run files with
            ⟨answer, between⟩
          rw [written] at writes
          cases answer with
          | error refusal =>
              rw [run_compile_of_write judged built writes] at ran
              cases ran
              exact .inr (.inl ⟨artifact, _, rfl, written⟩)
          | ok value =>
              rw [run_compile_of_written judged built writes] at ran
              exact .inr (.inr ⟨decision, source, artifact, between, written, ran⟩)

end Compiler

namespace Batch

/-- A batch in which one task has come further. -/
def moved (batch : Batch) (index : Nat) (input : Path) (progress : Progress) : Batch :=
  { batch with tasks := batch.tasks.set index (input, progress) }

/-- Whether a task may go on: it may be taken, its artifact may be locked, or it is. -/
inductive MayGoOn (compiler : Compiler) (workers : Nat) (batch : Batch) (index : Nat) : Prop where
  | taken {input : Path} :
      batch.tasks[index]? = some (input, .waiting) → batch.mayTake workers index →
        MayGoOn compiler workers batch index
  | locked {input : Path} :
      batch.tasks[index]? = some (input, .taken) → batch.mayLock compiler input →
        MayGoOn compiler workers batch index
  | advanced {input : Path} {progress : Progress} :
      batch.tasks[index]? = some (input, progress) → progress.isHolding →
        MayGoOn compiler workers batch index

/-- What a step of a task can come to, and the files that it leaves. -/
inductive Stepped (compiler : Compiler) (workers : Nat) (batch : Batch) (index : Nat)
    (files : FileSystem) : Batch → FileSystem → Prop where
  | waited :
      ¬MayGoOn compiler workers batch index → Stepped compiler workers batch index files batch files
  | took {input : Path} :
      batch.tasks[index]? = some (input, .waiting) → batch.mayTake workers index →
        Stepped compiler workers batch index files (batch.moved index input .taken) files
  | locked {input : Path} :
      batch.tasks[index]? = some (input, .taken) → batch.mayLock compiler input →
        Stepped compiler workers batch index files (batch.moved index input .locked) files
  | judged {input : Path} {decision : BuildDecision} :
      batch.tasks[index]? = some (input, .locked) →
        ((compiler.judge input batch.cache).run.run files).1 = .ok decision →
          Stepped compiler workers batch index files (batch.moved index input (.judged decision)) files
  | endedJudging {input : Path} {result : Except CompileError Outcome} :
      batch.tasks[index]? = some (input, .locked) →
        ((compiler.judge input batch.cache).run.run files).1 = .error result →
          Stepped compiler workers batch index files (batch.moved index input (.settled result)) files
  | built {input : Path} {decision : BuildDecision} {source artifact : Bytes} :
      batch.tasks[index]? = some (input, .judged decision) →
        ((compiler.buildInput input).run.run files).1 = .ok (source, artifact) →
          Stepped compiler workers batch index files
            (batch.moved index input (.built decision source artifact)) files
  | endedBuilding {input : Path} {decision : BuildDecision} {result : Except CompileError Outcome} :
      batch.tasks[index]? = some (input, .judged decision) →
        ((compiler.buildInput input).run.run files).1 = .error result →
          Stepped compiler workers batch index files (batch.moved index input (.settled result)) files
  | written {input : Path} {decision : BuildDecision} {source artifact : Bytes} {after : FileSystem} :
      batch.tasks[index]? = some (input, .built decision source artifact) →
        (compiler.write input artifact).run.run files = (.ok (), after) →
          Stepped compiler workers batch index files
            (batch.moved index input (.written decision source artifact)) after
  | endedWriting {input : Path} {decision : BuildDecision} {source artifact : Bytes}
      {result : Except CompileError Outcome} {after : FileSystem} :
      batch.tasks[index]? = some (input, .built decision source artifact) →
        (compiler.write input artifact).run.run files = (.error result, after) →
          Stepped compiler workers batch index files (batch.moved index input (.settled result)) after
  | recorded {input : Path} {decision : BuildDecision} {source artifact : Bytes}
      {result : Except CompileError Outcome} {cache : Cache} {after : FileSystem} :
      batch.tasks[index]? = some (input, .written decision source artifact) →
        (compiler.record input decision source artifact batch.cache).run files =
            ((result, cache), after) →
          Stepped compiler workers batch index files
            { batch.moved index input (.settled result) with cache } after
  | released {input : Path} {result : Except CompileError Outcome} :
      batch.tasks[index]? = some (input, .settled result) →
        Stepped compiler workers batch index files (batch.moved index input (.finished result)) files

variable {compiler : Compiler} {workers index : Nat} {batch : Batch} {files : FileSystem}

theorem task_moved {task : Path × Progress} (stood : batch.tasks[index]? = some task) (input : Path)
    (progress : Progress) : (batch.moved index input progress).tasks[index]? = some (input, progress) := by
  obtain ⟨inside, -⟩ := List.getElem?_eq_some_iff.mp stood
  exact List.getElem?_set_self inside

theorem set_eq_self {tasks : List (Path × Progress)} {task : Path × Progress}
    (stands : tasks[index]? = some task) : tasks.set index task = tasks := by
  obtain ⟨inside, rfl⟩ := List.getElem?_eq_some_iff.mp stands
  exact List.set_getElem_self inside

theorem mayGoOn_iff_of_waiting {input : Path} (task : batch.tasks[index]? = some (input, .waiting)) :
    MayGoOn compiler workers batch index ↔ batch.mayTake workers index := by
  refine ⟨fun goesOn => ?_, .taken task⟩
  cases goesOn with
  | taken _ free => exact free
  | locked other => cases task.symm.trans other
  | advanced other holding =>
      cases task.symm.trans other
      cases holding

theorem mayGoOn_iff_of_taken {input : Path} (task : batch.tasks[index]? = some (input, .taken)) :
    MayGoOn compiler workers batch index ↔ batch.mayLock compiler input := by
  refine ⟨fun goesOn => ?_, .locked task⟩
  cases goesOn with
  | taken other => cases task.symm.trans other
  | locked other free =>
      cases task.symm.trans other
      exact free
  | advanced other holding =>
      cases task.symm.trans other
      cases holding

theorem not_mayGoOn_of_finished {input : Path} {result : Except CompileError Outcome}
    (task : batch.tasks[index]? = some (input, .finished result)) :
    ¬MayGoOn compiler workers batch index := by
  intro goesOn
  cases goesOn with
  | taken other | locked other => cases task.symm.trans other
  | advanced other holding =>
      cases task.symm.trans other
      cases holding

theorem not_mayGoOn_of_none (none : batch.tasks[index]? = none) :
    ¬MayGoOn compiler workers batch index := by
  intro goesOn
  cases goesOn with
  | taken other | locked other | advanced other => cases none.symm.trans other

/-- A task that holds its artifact goes on with what its next phase comes to. -/
theorem leaves_advance {input : Path} {progress : Progress}
    (task : batch.tasks[index]? = some (input, progress)) (holding : progress.isHolding) :
    (advance compiler input batch.cache progress).Leaves files fun (next, cache) after =>
      Stepped compiler workers batch index files ⟨batch.tasks.set index (input, next), cache⟩ after := by
  cases progress with
  | waiting | taken | finished => cases holding
  | locked =>
      -- Judging and building leave the files as they are.
      have judges : (compiler.judge input batch.cache).run.Leaves files fun answer after =>
          after = files ∧ ((compiler.judge input batch.cache).run.run files).1 = answer :=
        ⟨(compiler.leaves_judge input batch.cache files).holds.1, rfl⟩
      apply leaves_bind.mpr
      apply judges.mono
      rintro answer _ ⟨rfl, judged⟩
      apply leaves_pure.mpr
      cases answer with
      | ok decision => exact .judged task judged
      | error result => exact .endedJudging task judged
  | judged decision =>
      have builds : (compiler.buildInput input).run.Leaves files fun answer after =>
          after = files ∧ ((compiler.buildInput input).run.run files).1 = answer :=
        ⟨(compiler.leaves_buildInput input files).holds.1, rfl⟩
      apply leaves_bind.mpr
      apply builds.mono
      rintro answer _ ⟨rfl, built⟩
      apply leaves_pure.mpr
      cases answer with
      | ok value => exact .built task built
      | error result => exact .endedBuilding task built
  | built decision source artifact =>
      apply leaves_bind.mpr
      apply (leaves_run _ files).mono
      intro answer after written
      apply leaves_pure.mpr
      cases answer with
      | ok value => exact .written task written
      | error result => exact .endedWriting task written
  | written decision source artifact =>
      apply leaves_bind.mpr
      apply (leaves_run _ files).mono
      intro recorded after run
      exact leaves_pure.mpr (.recorded task run)
  | settled result => exact leaves_pure.mpr (.released task)

/-- Every step is one of these. -/
theorem leaves_step (compiler : Compiler) (workers : Nat) (batch : Batch) (index : Nat)
    (files : FileSystem) :
    (batch.step compiler workers index).Leaves files
      (Stepped compiler workers batch index files) := by
  rw [step]
  have waits (stands : ¬MayGoOn compiler workers batch index) :
      (pure batch : Program Batch).Leaves files (Stepped compiler workers batch index files) :=
    leaves_pure.mpr (.waited stands)
  cases task : batch.tasks[index]? with
  | none => exact waits (not_mayGoOn_of_none task)
  | some task' =>
      obtain ⟨input, progress⟩ := task'
      cases progress with
      | waiting =>
          dsimp only
          split
          next free => exact leaves_pure.mpr (.took task free)
          next busy => exact waits fun goesOn => busy ((mayGoOn_iff_of_waiting task).mp goesOn)
      | taken =>
          dsimp only
          split
          next free => exact leaves_pure.mpr (.locked task free)
          next busy => exact waits fun goesOn => busy ((mayGoOn_iff_of_taken task).mp goesOn)
      | finished result =>
          -- The task is put back where it was.
          change (pure ⟨batch.tasks.set index (input, .finished result), batch.cache⟩ :
            Program Batch).Leaves files _
          rw [set_eq_self task]
          exact waits (not_mayGoOn_of_finished task)
      | locked | judged | built | written | settled =>
          apply leaves_bind.mpr
          apply (leaves_advance task rfl).mono
          intro moved after stepped
          exact leaves_pure.mpr stepped

/-- A task that comes further keeps its input. -/
theorem inputs_moved {input : Path} {progress : Progress}
    (task : batch.tasks[index]? = some (input, progress)) (next : Progress) :
    (batch.moved index input next).tasks.map Prod.fst = batch.tasks.map Prod.fst := by
  have stands : (batch.tasks.map Prod.fst)[index]? = some input := by
    rw [List.getElem?_map, task]
    rfl
  obtain ⟨inside, named⟩ := List.getElem?_eq_some_iff.mp stands
  rw [moved, List.map_set, ← named]
  exact List.set_getElem_self inside

/-- A step changes no input. -/
theorem Stepped.inputs_eq {after : Batch} {filesAfter : FileSystem}
    (stepped : Stepped compiler workers batch index files after filesAfter) :
    after.tasks.map Prod.fst = batch.tasks.map Prod.fst := by
  cases stepped with
  | waited => rfl
  | took task | locked task | judged task | endedJudging task | built task | endedBuilding task
  | written task | endedWriting task | recorded task | released task => exact inputs_moved task _

/-- The steps of two schedules, one schedule after the other. -/
theorem follow_append (compiler : Compiler) (workers : Nat) (first second : List Nat) (batch : Batch) :
    follow compiler workers (first ++ second) batch =
      follow compiler workers first batch >>= follow compiler workers second := by
  induction first generalizing batch with
  | nil => rfl
  | cons index rest ih =>
      rw [List.cons_append, follow, follow, bind_assoc]
      exact bind_congr ih

/-- Whether something holds of all the file systems that a schedule leads through. -/
def Throughout (compiler : Compiler) (workers : Nat) (schedule : List Nat) (batch : Batch)
    (files : FileSystem) (condition : FileSystem → Prop) : Prop :=
  ∀ count, condition ((follow compiler workers (schedule.take count) batch).run files).2

/-- What every step preserves holds after a schedule if it holds before. -/
theorem leaves_follow {invariant : Batch → FileSystem → Prop} {condition : FileSystem → Prop}
    (preserved : ∀ {batch files index after filesAfter}, condition files → condition filesAfter →
      Stepped compiler workers batch index files after filesAfter → invariant batch files →
        invariant after filesAfter)
    {schedule : List Nat} (throughout : Throughout compiler workers schedule batch files condition)
    (holds : invariant batch files) :
    (follow compiler workers schedule batch).Leaves files invariant := by
  induction schedule generalizing batch files with
  | nil => exact leaves_pure.mpr holds
  | cons index rest ih =>
      apply leaves_bind.mpr
      constructor
      have later (count : Nat) := throughout (count + 1)
      simp only [List.take_succ_cons, follow, run_bind] at later
      exact ih later (preserved (throughout 0) (later 0)
        (leaves_step compiler workers batch index files).holds holds)

theorem inputs_start (inputs : List Path) (cache : Cache) :
    (start inputs cache).tasks.map Prod.fst = inputs := by
  rw [start, List.map_map]
  exact List.map_id inputs

/-- A schedule changes no input. -/
theorem leaves_follow_inputs (compiler : Compiler) (workers : Nat) (schedule : List Nat)
    (batch : Batch) (files : FileSystem) :
    (follow compiler workers schedule batch).Leaves files fun after _ =>
      after.tasks.map Prod.fst = batch.tasks.map Prod.fst := by
  have preserved {between after : Batch} {files filesAfter : FileSystem} {index : Nat}
      (stepped : Stepped compiler workers between index files after filesAfter)
      (same : between.tasks.map Prod.fst = batch.tasks.map Prod.fst) :
      after.tasks.map Prod.fst = batch.tasks.map Prod.fst :=
    stepped.inputs_eq.trans same
  have anywhere : Throughout compiler workers schedule batch files fun _ => True := fun _ => trivial
  exact leaves_follow (fun _ _ stepped => preserved stepped) anywhere rfl

theorem result?_eq_some_iff {progress : Progress} {result : Except CompileError Outcome} :
    progress.result? = some result ↔ progress = .finished result := by
  cases progress <;> simp [Progress.result?]

/-- The results are those of the tasks, all of which are finished. -/
theorem results?_eq_some_iff {results : List (Except CompileError Outcome)} :
    batch.results? = some results ↔ batch.tasks.map Prod.snd = results.map .finished := by
  rw [results?]
  induction batch.tasks generalizing results with
  | nil => cases results <;> simp
  | cons task tasks ih =>
      rw [List.mapM_cons]
      constructor
      · intro all
        obtain ⟨result, first, more⟩ := Option.bind_eq_some_iff.mp all
        obtain ⟨rest, others, same⟩ := Option.bind_eq_some_iff.mp more
        cases same
        rw [List.map_cons, List.map_cons, result?_eq_some_iff.mp first, ih.mp others]
      · intro all
        cases results with
        | nil => cases all
        | cons result rest =>
            obtain ⟨first, others⟩ := List.cons.inj all
            refine Option.bind_eq_some_iff.mpr ⟨result, result?_eq_some_iff.mpr first, ?_⟩
            exact Option.bind_eq_some_iff.mpr ⟨rest, ih.mpr others, rfl⟩

/-- The result in some place is that of the task in this place. -/
theorem task_of_results? {inputs : List Path} {results : List (Except CompileError Outcome)}
    {input : Path} {result : Except CompileError Outcome} (finished : batch.results? = some results)
    (same : batch.tasks.map Prod.fst = inputs) (named : inputs[index]? = some input)
    (ended : results[index]? = some result) : batch.tasks[index]? = some (input, .finished result) := by
  have progress := congrArg (·[index]?) (results?_eq_some_iff.mp finished)
  simp only [List.getElem?_map, ended, Option.map_some] at progress
  rw [← same, List.getElem?_map] at named
  obtain ⟨task, stands, first⟩ := Option.map_eq_some_iff.mp named
  rw [stands, Option.map_some, Option.some.injEq] at progress
  rw [stands, Option.some.injEq]
  exact Prod.ext first progress

end Batch

end SceneForge
