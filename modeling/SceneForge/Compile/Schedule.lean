import SceneForge.Compile.Compiler

/-!
# Compiling side by side

Workers compile the inputs of a batch side by side. A worker takes the next input,
takes the lock of its artifact as soon as no other worker has it, goes through the
phases of compiling one step at a time, and releases the lock; in between, others may
take steps. A schedule says whose step comes next. The result of a batch has one place
for every input.
-/

namespace SceneForge

/-- How far compiling an input has come. -/
inductive Progress where
  | waiting
  /-- A worker has taken the input and wants the lock of its artifact. -/
  | taken
  /-- The artifact is locked. -/
  | locked
  | judged (decision : BuildDecision)
  | built (decision : BuildDecision) (source artifact : Bytes)
  | written (decision : BuildDecision) (source artifact : Bytes)
  /-- The result is there, and the artifact is still locked. -/
  | settled (result : Except CompileError Outcome)
  | finished (result : Except CompileError Outcome)

namespace Progress

/-- Whether the artifact is locked. -/
def isHolding : Progress → Bool
  | waiting | taken | finished _ => false
  | locked | judged _ | built .. | written .. | settled _ => true

/-- Whether no worker has taken the input. -/
def isWaiting : Progress → Bool
  | waiting => true
  | _ => false

/-- Whether a worker is busy with the input. -/
def isBusy : Progress → Bool
  | waiting | finished _ => false
  | taken | locked | judged _ | built .. | written .. | settled _ => true

/-- How many steps are left at most. -/
def rest : Progress → Nat
  | waiting => 7
  | taken => 6
  | locked => 5
  | judged _ => 4
  | built .. => 3
  | written .. => 2
  | settled _ => 1
  | finished _ => 0

/-- The result, once the lock is released. -/
def result? : Progress → Option (Except CompileError Outcome)
  | finished result => some result
  | _ => none

end Progress

/-- A batch: how far each input has come, and the shared cache. -/
structure Batch where
  tasks : List (Path × Progress)
  cache : Cache

namespace Batch

/-- A batch of which nothing is done. -/
def start (inputs : List Path) (cache : Cache) : Batch :=
  ⟨inputs.map fun input => (input, .waiting), cache⟩

/-- Whether a worker may take a task: one is free, and all tasks before it have been
taken. -/
def mayTake (workers : Nat) (batch : Batch) (index : Nat) : Bool :=
  (batch.tasks.take index).all (!·.2.isWaiting) &&
    decide ((batch.tasks.filter (·.2.isBusy)).length < workers)

/-- Whether the artifact of an input is free. -/
def mayLock (compiler : Compiler) (batch : Batch) (input : Path) : Bool :=
  !batch.tasks.any fun (other, progress) =>
    progress.isHolding && (compiler.request other).key == (compiler.request input).key

/-- Continues with a phase's value, or settles its result. -/
def settle {α : Type} (next : α → Progress) : Except (Except CompileError Outcome) α → Progress
  | .error result => .settled result
  | .ok value => next value

/-- One step of a task that holds its artifact. -/
def advance (compiler : Compiler) (input : Path) (cache : Cache) :
    (progress : Progress) → Program (Progress × Cache)
  | .waiting => return (.waiting, cache)
  | .taken => return (.taken, cache)
  | .locked => return (settle .judged (← (compiler.judge input cache).run), cache)
  | .judged decision => do
      let built ← (compiler.buildInput input).run
      return (settle (fun (source, artifact) => .built decision source artifact) built, cache)
  | .built decision source artifact => do
      let written ← (compiler.write input artifact).run
      return (settle (fun _ => .written decision source artifact) written, cache)
  | .written decision source artifact => do
      let (result, cache) ← compiler.record input decision source artifact cache
      return (.settled result, cache)
  | .settled result => return (.finished result, cache)
  | .finished result => return (.finished result, cache)

/-- The step of one task; a task that may not go on yet waits. -/
def step (compiler : Compiler) (workers : Nat) (batch : Batch) (index : Nat) : Program Batch := do
  match batch.tasks[index]? with
  | none => return batch
  | some (input, .waiting) =>
      if batch.mayTake workers index then
        return { batch with tasks := batch.tasks.set index (input, .taken) }
      else return batch
  | some (input, .taken) =>
      if batch.mayLock compiler input then
        return { batch with tasks := batch.tasks.set index (input, .locked) }
      else return batch
  | some (input, progress) =>
      let (progress, cache) ← advance compiler input batch.cache progress
      return ⟨batch.tasks.set index (input, progress), cache⟩

/-- The steps of a schedule. -/
def follow (compiler : Compiler) (workers : Nat) :
    (schedule : List Nat) → (batch : Batch) → Program Batch
  | [], batch => return batch
  | index :: later, batch => do
      follow compiler workers later (← batch.step compiler workers index)

/-- How many steps are left at most. -/
def rest (batch : Batch) : Nat := batch.tasks.foldr (fun task later => task.2.rest + later) 0

/-- A schedule by which every task has its step in turn, as often as any step can be left. -/
def rounds (batch : Batch) : List Nat :=
  (List.replicate batch.rest (List.range batch.tasks.length)).flatten

/-- The results, if all inputs are finished. -/
def results? (batch : Batch) : Option (List (Except CompileError Outcome)) :=
  batch.tasks.mapM (·.2.result?)

end Batch

/-- How many workers a batch gets: as many as there are jobs, but no more than inputs,
and at least one. -/
def workerCount (jobs : Nat) (inputs : List Path) : Nat := max 1 (min jobs (max 1 inputs.length))

/-- Compiles a batch by workers that take their steps in turn; gives the results in the order of
the inputs. -/
def Compiler.compileBatch (compiler : Compiler) (jobs : Nat) (inputs : List Path) (cache : Cache) :
    Program (List (Except CompileError Outcome) × Cache) := do
  let batch := Batch.start inputs cache
  let batch ← batch.follow compiler (workerCount jobs inputs) batch.rounds
  return (batch.results?.getD [], batch.cache)

end SceneForge
