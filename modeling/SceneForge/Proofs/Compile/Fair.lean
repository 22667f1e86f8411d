import Mathlib.Data.Nat.Find
import SceneForge.Proofs.Compile.Stepping

/-!
# Fair schedules

A batch never gets stuck: until all inputs are finished, some task may go on, and every step
of one that may go on brings the end closer. So a batch is done sooner or later whenever
every task has its steps again and again, whatever the others come to, and however many
workers there are.
-/

namespace SceneForge

open Program

namespace Batch

variable {compiler : Compiler} {workers index : Nat} {batch after : Batch}
  {files filesAfter : FileSystem} {input : Path} {progress next : Progress}

/-- A task that has come further leaves fewer steps. -/
theorem rest_set_lt {tasks : List (Path × Progress)} (task : tasks[index]? = some (input, progress))
    (fewer : next.rest < progress.rest) :
    (tasks.set index (input, next)).foldr (fun task later => task.2.rest + later) 0 <
      tasks.foldr (fun task later => task.2.rest + later) 0 := by
  induction tasks generalizing index with
  | nil => cases task
  | cons head tail ih =>
      cases index with
      | zero =>
          cases task
          rw [List.set_cons_zero, List.foldr_cons, List.foldr_cons]
          exact Nat.add_lt_add_right fewer _
      | succ index =>
          rw [List.set_cons_succ, List.foldr_cons, List.foldr_cons]
          exact Nat.add_lt_add_left (ih task) _

/-- A task that may go on brings the end closer. -/
theorem Stepped.rest_lt (stepped : Stepped compiler workers batch index files after filesAfter)
    (may : MayGoOn compiler workers batch index) : after.rest < batch.rest := by
  cases stepped with
  | waited mayNot => exact absurd may mayNot
  | took task | locked task | judged task | endedJudging task | built task | endedBuilding task
  | written task | endedWriting task | recorded task | released task =>
      exact rest_set_lt task (by simp [Progress.rest])

/-- A task that may not go on changes nothing. -/
theorem Stepped.eq_of_not_mayGoOn
    (stepped : Stepped compiler workers batch index files after filesAfter)
    (mayNot : ¬MayGoOn compiler workers batch index) : after = batch ∧ filesAfter = files := by
  cases stepped with
  | waited => exact ⟨rfl, rfl⟩
  | took task free => exact absurd (.taken task free) mayNot
  | locked task free => exact absurd (.locked task free) mayNot
  | judged task | endedJudging task | built task | endedBuilding task | written task
  | endedWriting task | recorded task | released task =>
      exact absurd (.advanced task rfl) mayNot

/-- A batch without all results has a task without one. -/
theorem exists_unfinished (unfinished : batch.results? = none) :
    ∃ (index : Nat) (input : Path) (progress : Progress),
      batch.tasks[index]? = some (input, progress) ∧ progress.result? = none := by
  rw [results?] at unfinished
  induction tasks : batch.tasks generalizing batch with
  | nil =>
      rw [tasks] at unfinished
      cases unfinished
  | cons task rest ih =>
      rw [tasks, List.mapM_cons] at unfinished
      cases first : task.2.result? with
      | none => exact ⟨0, task.1, task.2, rfl, first⟩
      | some result =>
          rw [first] at unfinished
          cases others : rest.mapM (·.2.result?) with
          | none =>
              obtain ⟨index, input, progress, stands, unended⟩ := @ih ⟨rest, batch.cache⟩ others rfl
              exact ⟨index + 1, input, progress, stands, unended⟩
          | some results =>
              rw [others] at unfinished
              cases unfinished

section Idle

variable (idle : ∀ task ∈ batch.tasks, task.2.isHolding = false)
include idle

/-- While no task holds its artifact, all artifacts are free. -/
theorem mayLock_of_idle (compiler : Compiler) (input : Path) : batch.mayLock compiler input := by
  rw [mayLock, Bool.not_eq_true', List.any_eq_false]
  intro task member
  dsimp only
  rw [idle task member, Bool.false_and]
  exact Bool.false_ne_true

/-- While no task is under way, the first that waits may be taken. -/
theorem mayTake_of_idle (staffed : 0 < workers)
    (untaken : ∀ (place : Nat) (path : Path), batch.tasks[place]? ≠ some (path, .taken))
    (first : ∀ earlier < index, ∀ path, batch.tasks[earlier]? ≠ some (path, .waiting)) :
    batch.mayTake workers index := by
  rw [mayTake, Bool.and_eq_true, List.all_eq_true, decide_eq_true_eq]
  constructor
  · intro task member
    obtain ⟨earlier, place⟩ := List.mem_iff_getElem?.mp member
    rw [List.getElem?_take] at place
    split at place
    next before =>
      cases task with
      | mk path progress =>
          cases progress with
          | waiting => exact absurd place (first earlier before path)
          | _ => rfl
    next => cases place
  · have nobody : batch.tasks.filter (·.2.isBusy) = [] := by
      rw [List.filter_eq_nil_iff]
      intro task member busy
      obtain ⟨place, stands⟩ := List.mem_iff_getElem?.mp member
      have notHolding := idle task member
      cases task with
      | mk path progress =>
          cases progress with
          | waiting | finished => cases busy
          | taken => exact untaken place path stands
          | locked | judged | built | written | settled => cases notHolding
    rw [nobody]
    exact staffed

end Idle

/-- A batch that is not done is not stuck. -/
theorem exists_mayGoOn (staffed : 0 < workers) (unfinished : batch.results? = none) :
    ∃ index < batch.tasks.length, MayGoOn compiler workers batch index := by
  have inside {index : Nat} {task : Path × Progress} (stands : batch.tasks[index]? = some task) :
      index < batch.tasks.length :=
    (List.getElem?_eq_some_iff.mp stands).1
  -- What holds its artifact goes on; if nothing does, what is taken does; or else what waits.
  by_cases holds : ∃ (index : Nat) (input : Path) (progress : Progress),
      batch.tasks[index]? = some (input, progress) ∧ progress.isHolding
  · obtain ⟨index, input, progress, stands, holding⟩ := holds
    exact ⟨index, inside stands, .advanced stands holding⟩
  have idle (task : Path × Progress) (member : task ∈ batch.tasks) : task.2.isHolding = false := by
    obtain ⟨index, stands⟩ := List.mem_iff_getElem?.mp member
    exact Bool.eq_false_iff.mpr fun holding => holds ⟨index, task.1, task.2, stands, holding⟩
  by_cases taken : ∃ (index : Nat) (input : Path), batch.tasks[index]? = some (input, .taken)
  · obtain ⟨index, input, stands⟩ := taken
    exact ⟨index, inside stands, .locked stands (mayLock_of_idle idle compiler input)⟩
  have waits : ∃ index : Nat, ∃ input, batch.tasks[index]? = some (input, .waiting) := by
    obtain ⟨index, input, progress, stands, unended⟩ := exists_unfinished unfinished
    have notHolding := idle _ (List.mem_of_getElem? stands)
    cases progress with
    | waiting => exact ⟨index, input, stands⟩
    | taken => exact absurd ⟨index, input, stands⟩ taken
    | finished result => cases unended
    | locked | judged | built | written | settled => cases notHolding
  classical
  obtain ⟨input, stands⟩ := Nat.find_spec waits
  refine ⟨Nat.find waits, inside stands, .taken stands (mayTake_of_idle idle staffed ?_ ?_)⟩
  · exact fun place path stands => taken ⟨place, path, stands⟩
  · exact fun earlier before path stands => Nat.find_min waits before ⟨path, stands⟩

/-- Whether all of some tasks have their steps again and again. -/
def Fair (count : Nat) (schedule : Nat → Nat) : Prop :=
  ∀ index < count, ∀ first, ∃ later ≥ first, schedule later = index

theorem Fair.drop {count : Nat} {schedule : Nat → Nat} (fair : Fair count schedule) (skipped : Nat) :
    Fair count fun step => schedule (skipped + step) := by
  intro index inside first
  obtain ⟨later, after, turn⟩ := fair index inside (skipped + first)
  refine ⟨later - skipped, by omega, ?_⟩
  dsimp only
  rwa [Nat.add_sub_cancel' (by omega)]

/-- Steps of tasks that may not go on change nothing. -/
theorem run_follow_of_not_mayGoOn {schedule : List Nat}
    (mayNot : ∀ index ∈ schedule, ¬MayGoOn compiler workers batch index) :
    (follow compiler workers schedule batch).run files = (batch, files) := by
  induction schedule with
  | nil => rfl
  | cons index rest ih =>
      have stays := (leaves_step compiler workers batch index files).holds.eq_of_not_mayGoOn
        (mayNot index List.mem_cons_self)
      rw [follow, run_bind, stays.1, stays.2]
      exact ih fun other member => mayNot other (List.mem_cons_of_mem index member)

/-- Under a fair schedule all inputs get their results sooner or later. -/
theorem exists_results_of_fair (staffed : 0 < workers) (batch : Batch) (files : FileSystem)
    {schedule : Nat → Nat} (fair : Fair batch.tasks.length schedule) :
    ∃ count results, ((follow compiler workers ((List.range count).map schedule) batch).run
      files).1.results? = some results := by
  induction left : batch.rest using Nat.strongRecOn generalizing batch files schedule with
  | _ rest ih =>
      cases finished : batch.results? with
      | some results => exact ⟨0, results, finished⟩
      | none =>
          obtain ⟨index, inside, may⟩ := @exists_mayGoOn compiler _ _ staffed finished
          -- Until the first task that may go on has its step, nothing happens.
          have goesOn : ∃ step, MayGoOn compiler workers batch (schedule step) := by
            obtain ⟨step, -, rfl⟩ := fair index inside 0
            exact ⟨step, may⟩
          classical
          let first := Nat.find goesOn
          have waits : (follow compiler workers ((List.range first).map schedule) batch).run files =
              (batch, files) := by
            apply run_follow_of_not_mayGoOn
            intro index member
            obtain ⟨step, before, rfl⟩ := List.mem_map.mp member
            exact Nat.find_min goesOn (List.mem_range.mp before)
          have stepped := (leaves_step compiler workers batch (schedule first) files).holds
          rcases goes : (batch.step compiler workers (schedule first)).run files with ⟨after, filesAfter⟩
          rw [goes] at stepped
          have lengths := congrArg List.length stepped.inputs_eq
          rw [List.length_map, List.length_map] at lengths
          obtain ⟨count, results, done⟩ := ih after.rest (left ▸ stepped.rest_lt (Nat.find_spec goesOn))
            after filesAfter (lengths ▸ fair.drop (first + 1)) rfl
          refine ⟨first + 1 + count, results, ?_⟩
          rw [List.range_add, List.range_succ, List.map_append, List.map_append, follow_append,
            follow_append, run_bind, run_bind, waits, List.map_map]
          rw [List.map_singleton, follow, run_bind, goes]
          exact done

/-- Steps of tasks leave no more steps than before. -/
theorem rest_follow_le (compiler : Compiler) (workers : Nat) (schedule : List Nat) (batch : Batch)
    (files : FileSystem) : ((follow compiler workers schedule batch).run files).1.rest ≤ batch.rest := by
  induction schedule generalizing batch files with
  | nil => exact Nat.le_refl _
  | cons index later ih =>
      have stepped := (leaves_step compiler workers batch index files).holds
      rw [follow, run_bind]
      refine Nat.le_trans (ih _ _) ?_
      by_cases may : MayGoOn compiler workers batch index
      · exact Nat.le_of_lt (stepped.rest_lt may)
      · rw [(stepped.eq_of_not_mayGoOn may).1]

/-- They leave fewer if one of the tasks may go on. -/
theorem rest_follow_lt {schedule : List Nat} (listed : index ∈ schedule)
    (may : MayGoOn compiler workers batch index) :
    ((follow compiler workers schedule batch).run files).1.rest < batch.rest := by
  induction schedule with
  | nil => cases listed
  | cons first later ih =>
      have stepped := (leaves_step compiler workers batch first files).holds
      rw [follow, run_bind]
      by_cases mayFirst : MayGoOn compiler workers batch first
      · exact Nat.lt_of_le_of_lt (rest_follow_le ..) (stepped.rest_lt mayFirst)
      · obtain ⟨same, sameFiles⟩ := stepped.eq_of_not_mayGoOn mayFirst
        rw [same, sameFiles]
        refine ih ((List.mem_cons.mp listed).resolve_left ?_)
        rintro rfl
        exact mayFirst may

/-- No step is left of a batch that is done. -/
theorem rest_of_results? {results : List (Except CompileError Outcome)}
    (finished : batch.results? = some results) : batch.rest = 0 := by
  have progress := results?_eq_some_iff.mp finished
  rw [rest]
  induction results generalizing batch with
  | nil =>
      rw [List.map_eq_nil_iff.mp progress]
      rfl
  | cons result results ih =>
      obtain ⟨task, tasks, same, first, others⟩ := List.map_eq_cons_iff.mp progress
      rw [same, List.foldr_cons, first, @ih ⟨tasks, batch.cache⟩ (results?_eq_some_iff.mpr others) others]
      rfl

/-- Every round of steps leaves fewer, until the batch is done. -/
theorem rest_rounds_le (staffed : 0 < workers) (count : Nat) (batch : Batch) (files : FileSystem) :
    ((follow compiler workers (List.replicate count (List.range batch.tasks.length)).flatten
      batch).run files).1.rest ≤ batch.rest - count := by
  induction count generalizing batch files with
  | zero => exact Nat.le_refl _
  | succ count ih =>
      let between := (follow compiler workers (List.range batch.tasks.length) batch).run files
      have fewer : between.1.rest ≤ batch.rest - 1 := by
        cases finished : batch.results? with
        | some results =>
            rw [rest_of_results? finished]
            exact Nat.le_trans (rest_follow_le ..) (Nat.le_of_eq (rest_of_results? finished))
        | none =>
            obtain ⟨index, inside, may⟩ := @exists_mayGoOn compiler _ _ staffed finished
            exact Nat.le_sub_one_of_lt (rest_follow_lt (List.mem_range.mpr inside) may)
      have lengths := congrArg List.length
        (leaves_follow_inputs compiler workers (List.range batch.tasks.length) batch files).holds
      rw [List.length_map, List.length_map] at lengths
      have later := ih between.1 between.2
      rw [lengths] at later
      rw [List.replicate_succ, List.flatten_cons, follow_append, run_bind]
      exact Nat.le_trans later (by omega)

/-- When every task has had its step as often as any step was left, all inputs have their
results. -/
theorem exists_results_of_rounds (staffed : 0 < workers) (batch : Batch) (files : FileSystem) :
    ∃ results, ((follow compiler workers batch.rounds batch).run files).1.results? = some results := by
  have done := @rest_rounds_le compiler _ staffed batch.rest batch files
  rw [Nat.sub_self] at done
  rw [rounds]
  generalize (follow compiler workers _ batch).run files = left at done
  cases finished : left.1.results? with
  | some results => exact ⟨results, rfl⟩
  | none =>
      obtain ⟨index, -, may⟩ := @exists_mayGoOn compiler _ _ staffed finished
      have fewer := (leaves_step compiler workers left.1 index left.2).holds.rest_lt may
      omega

end Batch

/-- A batch compiles every input: however many jobs there are and whatever the inputs come to, it
comes to what its workers' steps come to, with a result for every input. -/
theorem Compiler.run_compileBatch (compiler : Compiler) (jobs : Nat) (inputs : List Path)
    (cache : Cache) (files : FileSystem) :
    ∃ batch after results,
      (Batch.follow compiler (workerCount jobs inputs) (Batch.start inputs cache).rounds
        (.start inputs cache)).run files = (batch, after) ∧
      batch.results? = some results ∧
        (compiler.compileBatch jobs inputs cache).run files = ((results, batch.cache), after) := by
  obtain ⟨results, finished⟩ := @Batch.exists_results_of_rounds compiler (workerCount jobs inputs)
    (Nat.le_max_left 1 _) (.start inputs cache) files
  refine ⟨_, _, results, rfl, finished, ?_⟩
  rw [compileBatch, run_bind, finished]
  rfl

end SceneForge
