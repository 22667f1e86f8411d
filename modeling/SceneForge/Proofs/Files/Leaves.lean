import SceneForge.Files.Program

/-!
# What programs leave

A program leaves a value and a file system. What holds of both together is found
request by request: a sequence of two programs leaves what the second leaves after the
first. A program may also be stopped between two requests; what holds throughout is found
in the same way.
-/

namespace SceneForge

namespace Program

variable {α β ε : Type} {files : FileSystem}

/-- Programs may be regrouped. -/
instance : LawfulMonad Program :=
  LawfulMonad.mk' Program
    (fun program => by
      induction program with
      | done value => rfl
      | request ask next ih => exact congrArg (request ask) (funext ih))
    (fun _ _ => rfl)
    (fun program first second => by
      induction program with
      | done value => rfl
      | request ask next ih => exact congrArg (request ask) (funext ih))

/-- A condition holds of a program's value and of the file system that it leaves. -/
structure Leaves (program : Program α) (files : FileSystem) (condition : α → FileSystem → Prop) :
    Prop where
  holds : condition (program.run files).1 (program.run files).2

theorem Leaves.mono {program : Program α} {condition weaker : α → FileSystem → Prop}
    (leaves : program.Leaves files condition)
    (weakens : ∀ value after, condition value after → weaker value after) :
    program.Leaves files weaker :=
  ⟨weakens _ _ leaves.holds⟩

/-- A program leaves what it runs to. -/
theorem leaves_run (program : Program α) (files : FileSystem) :
    program.Leaves files fun value after => program.run files = (value, after) :=
  ⟨rfl⟩

/-- A program that comes to a value leaves some file system with it. -/
theorem exists_run_eq {program : Program α} {value : α} (comes : (program.run files).1 = value) :
    ∃ after, program.run files = (value, after) :=
  ⟨_, Prod.ext comes rfl⟩

theorem leaves_pure {value : α} {condition : α → FileSystem → Prop} :
    (pure value : Program α).Leaves files condition ↔ condition value files := by
  constructor
  · intro leaves
    exact leaves.holds
  · intro holds
    exact ⟨holds⟩

theorem leaves_bind {program : Program α} {next : α → Program β} {condition : β → FileSystem → Prop} :
    (program >>= next).Leaves files condition ↔
      program.Leaves files fun value between => (next value).Leaves between condition := by
  constructor
  · intro leaves
    have holds := leaves.holds
    rw [run_bind] at holds
    exact ⟨⟨holds⟩⟩
  · intro leaves
    constructor
    rw [run_bind]
    exact leaves.holds.holds

theorem leaves_ask {request : FileRequest α} {condition : α → FileSystem → Prop} :
    (ask request).Leaves files condition ↔
      condition (request.run files).1 (request.run files).2 := by
  constructor
  · intro leaves
    exact leaves.holds
  · intro holds
    exact ⟨holds⟩

/-- A change is refused and nothing happens, or it is made. -/
theorem leaves_change {request : FileRequest (Except FileError Unit)}
    {change : Except FileError FileSystem} {condition : Except FileError Unit → FileSystem → Prop}
    (answers : request.run files = files.changed change)
    (refused : ∀ error, change = .error error → condition (.error error) files)
    (made : ∀ after, change = .ok after → condition (.ok ()) after) :
    (ask request).Leaves files condition := by
  rw [leaves_ask, answers]
  cases change with
  | error error => exact refused error rfl
  | ok after => exact made after rfl

/-- A change of which it is known when it is made, and what it makes. -/
theorem leaves_change_iff {request : FileRequest (Except FileError Unit)}
    {change : Except FileError FileSystem} {condition : Except FileError Unit → FileSystem → Prop}
    {may : Prop} {made : FileSystem} (answers : request.run files = files.changed change)
    (makes : ∀ after, change = .ok after ↔ may ∧ after = made)
    (refused : ∀ error, ¬may → condition (.error error) files)
    (done : may → condition (.ok ()) made) : (ask request).Leaves files condition := by
  refine leaves_change answers (fun error failed => refused error fun can => ?_) fun after changed => ?_
  · cases failed.symm.trans ((makes made).mpr ⟨can, rfl⟩)
  · obtain ⟨can, rfl⟩ := (makes after).mp changed
    exact done can

/-- A sequence of programs that may fail goes on only after a success. -/
theorem leaves_bind_of_failing {program : ExceptT ε Program α} {next : α → ExceptT ε Program β}
    {condition : Except ε β → FileSystem → Prop} :
    (program >>= next).run.Leaves files condition ↔
      program.run.Leaves files fun answer between =>
        match answer with
        | .ok value => (next value).run.Leaves between condition
        | .error error => condition (.error error) between := by
  rw [ExceptT.run_bind, leaves_bind]
  constructor
  · intro leaves
    apply leaves.mono
    intro answer between second
    cases answer with
    | ok value => exact second
    | error error => exact leaves_pure.mp second
  · intro leaves
    apply leaves.mono
    intro answer between second
    cases answer with
    | ok value => exact second
    | error error => exact leaves_pure.mpr second

/-- A program that cannot fail, among programs that may. -/
theorem leaves_lift {program : Program α} {condition : Except ε α → FileSystem → Prop} :
    (liftM program : ExceptT ε Program α).run.Leaves files condition ↔
      program.Leaves files fun value after => condition (.ok value) after := by
  change (program >>= fun value => pure (.ok value)).Leaves files condition ↔ _
  rw [leaves_bind]
  constructor
  · intro leaves
    exact leaves.mono fun _ _ => leaves_pure.mp
  · intro leaves
    exact leaves.mono fun _ _ => leaves_pure.mpr

section Throughout

variable {condition : FileSystem → Prop}

/-- A condition holds of every file system that there is while a program runs. -/
structure Throughout (program : Program α) (files : FileSystem) (condition : FileSystem → Prop) :
    Prop where
  holds : ∀ state ∈ program.states files, condition state

theorem Throughout.mono {program : Program α} {weaker : FileSystem → Prop}
    (throughout : program.Throughout files condition)
    (weakens : ∀ state, condition state → weaker state) : program.Throughout files weaker :=
  ⟨fun state member => weakens state (throughout.holds state member)⟩

/-- A program ends in the last of its states. -/
theorem run_mem_states (program : Program α) (files : FileSystem) :
    (program.run files).2 ∈ program.states files := by
  induction program generalizing files with
  | done value => exact List.mem_singleton_self files
  | request ask next ih => exact List.mem_cons_of_mem files (ih _ _)

/-- A program begins with the first of its states. -/
theorem mem_states (program : Program α) (files : FileSystem) : files ∈ program.states files := by
  cases program with
  | done value => exact List.mem_singleton_self files
  | request ask next => exact List.mem_cons_self

theorem Throughout.run {program : Program α} (throughout : program.Throughout files condition) :
    condition (program.run files).2 :=
  throughout.holds _ (program.run_mem_states files)

theorem throughout_pure {value : α} :
    (pure value : Program α).Throughout files condition ↔ condition files := by
  constructor
  · intro throughout
    exact throughout.run
  · intro holds
    exact ⟨List.forall_mem_singleton.mpr holds⟩

theorem throughout_ask {request : FileRequest α} :
    (ask request).Throughout files condition ↔ condition files ∧ condition (request.run files).2 := by
  constructor
  · intro throughout
    exact ⟨throughout.holds files List.mem_cons_self, throughout.run⟩
  · rintro ⟨before, after⟩
    exact ⟨List.forall_mem_cons.mpr ⟨before, List.forall_mem_singleton.mpr after⟩⟩

/-- A sequence of two programs is stopped in the first, or in the second after it. -/
theorem throughout_bind {program : Program α} {next : α → Program β}
    (first : program.Throughout files condition)
    (rest : program.Leaves files fun value between => (next value).Throughout between condition) :
    (program >>= next).Throughout files condition := by
  induction program generalizing files with
  | done value => exact rest.holds
  | request ask others ih =>
      obtain ⟨before, later⟩ := List.forall_mem_cons.mp first.holds
      exact ⟨List.forall_mem_cons.mpr ⟨before, (ih _ ⟨later⟩ ⟨rest.holds⟩).holds⟩⟩

theorem throughout_bind_of_failing {program : ExceptT ε Program α} {next : α → ExceptT ε Program β}
    (first : program.run.Throughout files condition)
    (rest : program.run.Leaves files fun answer between =>
      ∀ value, answer = .ok value → (next value).run.Throughout between condition) :
    (program >>= next).run.Throughout files condition := by
  rw [ExceptT.run_bind]
  refine throughout_bind first ⟨?_⟩
  have holds := rest.holds
  have last := first.run
  split
  next value succeeded => exact holds value succeeded
  next => exact throughout_pure.mpr last

/-- In a sequence that ends with one request, this request is the last place to stop. -/
theorem throughout_bind_ask_of_failing {program : ExceptT ε Program α}
    {request : FileRequest (Except ε β)} (first : program.run.Throughout files condition)
    (last : (program >>= fun _ => ExceptT.mk (ask request)).run.Leaves files
      fun _ after => condition after) :
    (program >>= fun _ => ExceptT.mk (ask request)).run.Throughout files condition := by
  refine throughout_bind_of_failing first ⟨fun value succeeded => throughout_ask.mpr ⟨first.run, ?_⟩⟩
  have holds := (leaves_bind_of_failing.mp last).holds
  rw [succeeded] at holds
  exact holds.holds

end Throughout

section AnswersAs

variable {otherFiles : FileSystem}

/-- Two programs change nothing and give the same value, each on its file system. -/
def AnswersAs (program : Program α) (files : FileSystem) (other : Program α)
    (otherFiles : FileSystem) : Prop :=
  ∃ value, program.run files = (value, files) ∧ other.run otherFiles = (value, otherFiles)

namespace AnswersAs

theorem pure (value : α) :
    (Pure.pure value : Program α).AnswersAs files (Pure.pure value) otherFiles :=
  ⟨value, rfl, rfl⟩

theorem bind {program other : Program α} {next otherNext : α → Program β}
    (first : program.AnswersAs files other otherFiles)
    (rest : ∀ value, (next value).AnswersAs files (otherNext value) otherFiles) :
    (program >>= next).AnswersAs files (other >>= otherNext) otherFiles := by
  obtain ⟨value, ran, otherRan⟩ := first
  obtain ⟨final, finished, otherFinished⟩ := rest value
  refine ⟨final, ?_, ?_⟩
  · rw [run_bind, ran]
    exact finished
  · rw [run_bind, otherRan]
    exact otherFinished

theorem bind_of_failing {program other : ExceptT ε Program α} {next otherNext : α → ExceptT ε Program β}
    (first : program.run.AnswersAs files other.run otherFiles)
    (rest : ∀ value, (next value).run.AnswersAs files (otherNext value).run otherFiles) :
    (program >>= next).run.AnswersAs files (other >>= otherNext).run otherFiles := by
  rw [ExceptT.run_bind, ExceptT.run_bind]
  refine first.bind fun answer => ?_
  cases answer with
  | error error => exact pure _
  | ok value => exact rest value

theorem lift {program other : Program α} (first : program.AnswersAs files other otherFiles) :
    (liftM program : ExceptT ε Program α).run.AnswersAs files (liftM other : ExceptT ε Program α).run
      otherFiles :=
  first.bind fun _ => pure _

theorem eq {program other : Program α} (answers : program.AnswersAs files other otherFiles) :
    (other.run otherFiles).1 = (program.run files).1 := by
  obtain ⟨value, ran, otherRan⟩ := answers
  rw [ran, otherRan]

end AnswersAs

theorem answersAs_read {path : Path} (same : otherFiles.read path = files.read path) :
    (ask (.read path)).AnswersAs files (ask (.read path)) otherFiles :=
  ⟨files.read path, rfl, congrArg (·, otherFiles) same⟩

end AnswersAs

end Program

end SceneForge
