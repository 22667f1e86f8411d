import SceneForge.Proofs.Compile.Stepping

/-!
# Tasks that are alone

Steps that are possible are taken. A task that takes all its steps without another in
between does what compiling its input does, so that a batch may also go through its inputs
one by one.
-/

namespace SceneForge

open Program

namespace Batch

variable {compiler : Compiler} {workers index : Nat} {batch : Batch} {files : FileSystem}
  {input : Path} {progress : Progress}

@[simp] theorem moved_moved (batch : Batch) (index : Nat) (input : Path) (first second : Progress) :
    (batch.moved index input first).moved index input second = batch.moved index input second := by
  rw [moved, moved, moved, List.set_set]

theorem run_step_of_waiting (task : batch.tasks[index]? = some (input, .waiting))
    (free : batch.mayTake workers index) :
    (batch.step compiler workers index).run files = (batch.moved index input .taken, files) := by
  rw [step, task]
  dsimp only
  rw [if_pos free]
  rfl

theorem run_step_of_taken (task : batch.tasks[index]? = some (input, .taken))
    (free : batch.mayLock compiler input) :
    (batch.step compiler workers index).run files = (batch.moved index input .locked, files) := by
  rw [step, task]
  dsimp only
  rw [if_pos free]
  rfl

theorem run_step_of_advance {next : Progress} {cache : Cache} {after : FileSystem}
    (task : batch.tasks[index]? = some (input, progress)) (holding : progress.isHolding)
    (advanced : (advance compiler input batch.cache progress).run files = ((next, cache), after)) :
    (batch.step compiler workers index).run files =
      ({ batch.moved index input next with cache }, after) := by
  rw [step, task]
  cases progress with
  | waiting | taken | finished => cases holding
  | locked | judged | built | written | settled =>
      dsimp only
      rw [run_bind, advanced]
      rfl

theorem run_follow_of_finished {result : Except CompileError Outcome}
    (task : batch.tasks[index]? = some (input, .finished result)) (count : Nat) :
    (follow compiler workers (List.replicate count index) batch).run files = (batch, files) := by
  have stays : (batch.step compiler workers index).run files = (batch, files) := by
    rw [step, task]
    change (⟨batch.tasks.set index (input, .finished result), batch.cache⟩, files) = (batch, files)
    rw [set_eq_self task]
  induction count with
  | zero => rfl
  | succ count ih =>
      rw [List.replicate_succ, follow, run_bind, stays]
      exact ih

/-- A task goes on, and then the rest of a schedule is followed. -/
theorem run_follow_of_advance {next : Progress} {cache : Cache} {after : FileSystem} {rest : List Nat}
    {final : Batch × FileSystem} (task : batch.tasks[index]? = some (input, progress))
    (holding : progress.isHolding)
    (advanced : (advance compiler input batch.cache progress).run files = ((next, cache), after))
    (follows : (follow compiler workers rest ⟨batch.tasks.set index (input, next), cache⟩).run after =
      final) :
    (follow compiler workers (index :: rest) batch).run files = final := by
  rw [follow, run_bind, run_step_of_advance task holding advanced]
  exact follows

/-- Releasing its artifact, a task has finished. -/
theorem run_follow_of_settled {result : Except CompileError Outcome}
    (task : batch.tasks[index]? = some (input, .settled result)) (count : Nat) :
    (follow compiler workers (index :: List.replicate count index) batch).run files =
      (batch.moved index input (.finished result), files) :=
  run_follow_of_advance task rfl rfl (run_follow_of_finished (task_moved task input _) count)

/-- Every phase of a task goes on with what the phase of compiling answers, or settles it. -/
theorem run_advance_of_judge {cache : Cache}
    {answer : Except (Except CompileError Outcome) BuildDecision}
    (judged : ((compiler.judge input cache).run.run files).1 = answer) :
    (advance compiler input cache .locked).run files = ((settle .judged answer, cache), files) := by
  rw [advance, run_bind, Compiler.run_judge judged]
  rfl

theorem run_advance_of_build {cache : Cache} {decision : BuildDecision}
    {answer : Except (Except CompileError Outcome) (Bytes × Bytes)}
    (built : ((compiler.buildInput input).run.run files).1 = answer) :
    (advance compiler input cache (.judged decision)).run files =
      ((settle (fun (source, artifact) => .built decision source artifact) answer, cache), files) := by
  rw [advance, run_bind, Compiler.run_buildInput built]
  rfl

theorem run_advance_of_write {cache : Cache} {decision : BuildDecision} {source artifact : Bytes}
    {answer : Except (Except CompileError Outcome) Unit} {after : FileSystem}
    (written : (compiler.write input artifact).run.run files = (answer, after)) :
    (advance compiler input cache (.built decision source artifact)).run files =
      ((settle (fun _ => .written decision source artifact) answer, cache), after) := by
  rw [advance, run_bind, written]
  rfl

theorem run_advance_of_record {cache now : Cache} {decision : BuildDecision} {source artifact : Bytes}
    {result : Except CompileError Outcome} {after : FileSystem}
    (recorded : (compiler.record input decision source artifact cache).run files =
      ((result, now), after)) :
    (advance compiler input cache (.written decision source artifact)).run files =
      ((.settled result, now), after) := by
  rw [advance, run_bind, recorded]
  rfl

/-- Four steps of a task that has been judged build, write, and record its artifact, and release
it. -/
theorem run_follow_of_judged {decision : BuildDecision} {source artifact : Bytes}
    {result : Except CompileError Outcome} {now : Cache} {between after : FileSystem}
    (task : batch.tasks[index]? = some (input, .judged decision))
    (built : ((compiler.buildInput input).run.run files).1 = .ok (source, artifact))
    (written : (compiler.write input artifact).run.run files = (.ok (), between))
    (recorded : (compiler.record input decision source artifact batch.cache).run between =
      ((result, now), after)) :
    (follow compiler workers (List.replicate 4 index) batch).run files =
      ({ batch.moved index input (.finished result) with cache := now }, after) := by
  have stoodBuilt := task_moved task input (.built decision source artifact)
  have stoodWritten := task_moved stoodBuilt input (.written decision source artifact)
  have stoodSettled := task_moved stoodWritten input (.settled result)
  refine run_follow_of_advance task rfl (run_advance_of_build built) ?_
  refine run_follow_of_advance stoodBuilt rfl (run_advance_of_write written) ?_
  refine run_follow_of_advance stoodWritten rfl (run_advance_of_record recorded) ?_
  refine (@run_follow_of_settled _ _ _ ⟨_, now⟩ _ _ _ stoodSettled 0).trans ?_
  simp [moved]

/-- Four steps of a task that has been judged end it, too, if its artifact cannot be written. -/
theorem run_follow_of_notWritten {decision : BuildDecision} {source artifact : Bytes}
    {result : Except CompileError Outcome} {after : FileSystem}
    (task : batch.tasks[index]? = some (input, .judged decision))
    (built : ((compiler.buildInput input).run.run files).1 = .ok (source, artifact))
    (written : (compiler.write input artifact).run.run files = (.error result, after)) :
    (follow compiler workers (List.replicate 4 index) batch).run files =
      (batch.moved index input (.finished result), after) := by
  have stoodBuilt := task_moved task input (.built decision source artifact)
  have stoodSettled := task_moved stoodBuilt input (.settled result)
  refine run_follow_of_advance task rfl (run_advance_of_build built) ?_
  refine run_follow_of_advance stoodBuilt rfl (run_advance_of_write written) ?_
  refine (@run_follow_of_settled _ _ _ ⟨_, batch.cache⟩ _ _ _ stoodSettled 1).trans ?_
  simp [moved]

/-- Five steps of a task that has its artifact do what compiling its input does. -/
theorem run_follow_of_locked {result : Except CompileError Outcome} {cache : Cache}
    {after : FileSystem} (task : batch.tasks[index]? = some (input, .locked))
    (compiled : (compiler.compile input batch.cache).run files = ((result, cache), after)) :
    (follow compiler workers (List.replicate 5 index) batch).run files =
      ({ batch.moved index input (.finished result) with cache }, after) := by
  -- A task that has ended early has steps left, in which it is released and then waits.
  have ends {tasks : List (Path × Progress)} {cache : Cache} {left : FileSystem} (count : Nat)
      (same : tasks.set index (input, .finished result) =
        batch.tasks.set index (input, .finished result))
      (settled : tasks[index]? = some (input, .settled result)) :
      (follow compiler workers (index :: List.replicate count index) ⟨tasks, cache⟩).run left =
        ({ batch.moved index input (.finished result) with cache }, left) := by
    rw [run_follow_of_settled settled, moved, same]
    rfl
  have stood (progress : Progress) := task_moved task input progress
  cases judged : ((compiler.judge input batch.cache).run.run files).1 with
  | error ended =>
      rw [Compiler.run_compile_of_judge judged] at compiled
      cases compiled
      exact run_follow_of_advance task rfl (run_advance_of_judge judged) (ends 3 (by simp) (stood _))
  | ok decision =>
      refine run_follow_of_advance task rfl (run_advance_of_judge judged) ?_
      cases built : ((compiler.buildInput input).run.run files).1 with
      | error ended =>
          rw [Compiler.run_compile_of_build judged built] at compiled
          cases compiled
          exact run_follow_of_advance (stood _) rfl (run_advance_of_build built)
            (ends 2 (by simp) (task_moved (stood _) _ _))
      | ok value =>
          obtain ⟨source, artifact⟩ := value
          rcases written : (compiler.write input artifact).run.run files with ⟨answer, left⟩
          cases answer with
          | error ended =>
              rw [Compiler.run_compile_of_write judged built written] at compiled
              cases compiled
              refine (run_follow_of_notWritten (stood _) built written).trans ?_
              simp [moved]
          | ok value =>
              rw [Compiler.run_compile_of_written judged built written] at compiled
              refine (run_follow_of_judged (stood _) built written compiled).trans ?_
              simp [moved]

/-- Three steps take, lock, and judge a task. -/
theorem run_follow_of_judge {decision : BuildDecision}
    (task : batch.tasks[index]? = some (input, .waiting)) (free : batch.mayTake workers index)
    (unlocked : (batch.moved index input .taken).mayLock compiler input)
    (judged : ((compiler.judge input batch.cache).run.run files).1 = .ok decision) :
    (follow compiler workers (List.replicate 3 index) batch).run files =
      (batch.moved index input (.judged decision), files) := by
  have taken := task_moved task input .taken
  have locked := task_moved taken input .locked
  rw [List.replicate_succ, follow, run_bind, run_step_of_waiting task free, List.replicate_succ,
    follow, run_bind, run_step_of_taken taken unlocked]
  refine run_follow_of_advance locked rfl (run_advance_of_judge judged) ?_
  simp [follow, moved]
  rfl

/-- A task that has been taken needs six steps, if no other has its artifact. -/
theorem run_follow_of_taken {result : Except CompileError Outcome} {cache : Cache}
    {after : FileSystem} (task : batch.tasks[index]? = some (input, .taken))
    (unlocked : batch.mayLock compiler input)
    (compiled : (compiler.compile input batch.cache).run files = ((result, cache), after)) :
    (follow compiler workers (List.replicate 6 index) batch).run files =
      ({ batch.moved index input (.finished result) with cache }, after) := by
  have locked := task_moved task input .locked
  rw [List.replicate_succ, follow, run_bind, run_step_of_taken task unlocked]
  refine (run_follow_of_locked locked compiled).trans ?_
  rw [moved_moved]

/-- A task that is alone goes the whole way as its input is compiled. -/
theorem run_follow_of_waiting {result : Except CompileError Outcome} {cache : Cache}
    {after : FileSystem} (task : batch.tasks[index]? = some (input, .waiting))
    (free : batch.mayTake workers index)
    (unlocked : (batch.moved index input .taken).mayLock compiler input)
    (compiled : (compiler.compile input batch.cache).run files = ((result, cache), after)) :
    (follow compiler workers (List.replicate 7 index) batch).run files =
      ({ batch.moved index input (.finished result) with cache }, after) := by
  have taken := task_moved task input .taken
  rw [List.replicate_succ, follow, run_bind, run_step_of_waiting task free]
  refine (run_follow_of_taken taken unlocked compiled).trans ?_
  rw [moved_moved]

/-- Two tasks that are both judged before either goes on, and then go on one by one. -/
theorem run_follow_of_both_judged {first second : Path} {one two : Except CompileError Outcome}
    {firstDecision secondDecision : BuildDecision} {cache between now : Cache}
    {middle after : FileSystem} (apart : (compiler.request first).key ≠ (compiler.request second).key)
    (judged : ((compiler.judge first cache).run.run files).1 = .ok firstDecision)
    (judgedToo : ((compiler.judge second cache).run.run files).1 = .ok secondDecision)
    (going : (follow compiler 2 (List.replicate 4 0)
      ⟨[(first, .judged firstDecision), (second, .judged secondDecision)], cache⟩).run files =
        (⟨[(first, .finished one), (second, .judged secondDecision)], between⟩, middle))
    (goingToo : (follow compiler 2 (List.replicate 4 1)
      ⟨[(first, .finished one), (second, .judged secondDecision)], between⟩).run middle =
        (⟨[(first, .finished one), (second, .finished two)], now⟩, after)) :
    (follow compiler 2
      (List.replicate 3 0 ++ List.replicate 3 1 ++ List.replicate 4 0 ++ List.replicate 4 1)
      (.start [first, second] cache)).run files =
        (⟨[(first, .finished one), (second, .finished two)], now⟩, after) := by
  let half : Batch := ⟨[(first, .judged firstDecision), (second, .waiting)], cache⟩
  have unlocked : (half.moved 1 second .taken).mayLock compiler second := by
    simp [half, moved, mayLock, Progress.isHolding, apart]
  have judging : (follow compiler 2 (List.replicate 3 0) (.start [first, second] cache)).run files =
      (half, files) :=
    run_follow_of_judge rfl rfl rfl judged
  have judgingToo : (follow compiler 2 (List.replicate 3 1) half).run files =
      (⟨[(first, .judged firstDecision), (second, .judged secondDecision)], cache⟩, files) :=
    run_follow_of_judge rfl rfl unlocked judgedToo
  rw [follow_append, run_bind, follow_append, run_bind, follow_append, run_bind, judging]
  dsimp only
  rw [judgingToo]
  dsimp only
  rw [going]
  exact goingToo

/-- One worker goes through two inputs one by one. -/
theorem run_follow_of_both_waiting {first second : Path} {one two : Except CompileError Outcome}
    {cache between now : Cache} {middle after : FileSystem}
    (compiled : (compiler.compile first cache).run files = ((one, between), middle))
    (compiledToo : (compiler.compile second between).run middle = ((two, now), after)) :
    (follow compiler 1 (List.replicate 7 0 ++ List.replicate 7 1) (.start [first, second] cache)).run
        files = (⟨[(first, .finished one), (second, .finished two)], now⟩, after) := by
  let half : Batch := ⟨[(first, .finished one), (second, .waiting)], between⟩
  have going : (follow compiler 1 (List.replicate 7 0) (.start [first, second] cache)).run files =
      (half, middle) :=
    run_follow_of_waiting rfl rfl rfl compiled
  have goingToo : (follow compiler 1 (List.replicate 7 1) half).run middle =
      (⟨[(first, .finished one), (second, .finished two)], now⟩, after) :=
    run_follow_of_waiting rfl rfl rfl compiledToo
  rw [follow_append, run_bind, going]
  exact goingToo

/-- Two tasks that are both taken before the first goes its way, and then the second. -/
theorem run_follow_of_both_taken {first second : Path} {one two : Except CompileError Outcome}
    {cache between now : Cache} {middle after : FileSystem}
    (compiled : (compiler.compile first cache).run files = ((one, between), middle))
    (compiledToo : (compiler.compile second between).run middle = ((two, now), after)) :
    (follow compiler 2 ([0, 1] ++ List.replicate 6 0 ++ List.replicate 6 1)
      (.start [first, second] cache)).run files =
        (⟨[(first, .finished one), (second, .finished two)], now⟩, after) := by
  let taken : Batch := ⟨[(first, .taken), (second, .taken)], cache⟩
  let half : Batch := ⟨[(first, .finished one), (second, .taken)], between⟩
  have taking : (follow compiler 2 [0, 1] (.start [first, second] cache)).run files = (taken, files) := by
    rw [follow, run_bind, run_step_of_waiting rfl rfl, follow, run_bind, run_step_of_waiting rfl rfl]
    rfl
  have going : (follow compiler 2 (List.replicate 6 0) taken).run files = (half, middle) :=
    run_follow_of_taken rfl rfl compiled
  have goingToo : (follow compiler 2 (List.replicate 6 1) half).run middle =
      (⟨[(first, .finished one), (second, .finished two)], now⟩, after) :=
    run_follow_of_taken rfl rfl compiledToo
  rw [follow_append, run_bind, follow_append, run_bind, taking]
  dsimp only
  rw [going]
  exact goingToo

end Batch

end SceneForge
