import Mathlib.Data.List.Permutation
import SceneForge.Proofs.Compile.Alone
import SceneForge.Proofs.Compile.Fair
import SceneForge.Proofs.Compile.Recording
import SceneForge.Proofs.Compile.Serial

/-!
# Batches are serializable

However many workers there are and in whatever order they take their steps, a batch comes
to what compiling its inputs one by one in some order comes to, and gives every input its
result. So no record is lost, and no failure keeps others from being compiled.
-/

namespace SceneForge

open FileSystem Program

namespace Batch

/-- What holds of the records throughout a batch: those of other artifacts are what they were, none
is lost, and what was compiled or found up to date has one. -/
structure KeepsRecords (compiler : Compiler) (cache : Cache) (batch : Batch) : Prop where
  foreign : ∀ key, (∀ input ∈ batch.tasks.map Prod.fst, key ≠ (compiler.request input).key) →
    batch.cache.inputs? key = cache.inputs? key
  kept : ∀ key, (cache.inputs? key).isSome → (batch.cache.inputs? key).isSome
  there : ∀ input progress outcome, (input, progress) ∈ batch.tasks →
    progress.ended? = some (.ok outcome) →
      (batch.cache.inputs? (compiler.request input).key).isSome

variable {compiler : Compiler} {cache now : Cache} {batch after : Batch} {index workers : Nat}
  {input : Path} {progress next : Progress} {files filesAfter : FileSystem}

theorem keepsRecords_start (compiler : Compiler) (inputs : List Path) (cache : Cache) :
    (start inputs cache).KeepsRecords compiler cache where
  foreign _ _ := rfl
  kept _ := id
  there input progress outcome member ended := by
    obtain ⟨_, -, same⟩ := List.mem_map.mp member
    cases same
    cases ended

/-- A task comes further, which changes no record but that of its artifact, and loses none. -/
theorem KeepsRecords.move (keeps : batch.KeepsRecords compiler cache)
    (task : batch.tasks[index]? = some (input, progress))
    (others : ∀ key, key ≠ (compiler.request input).key → now.inputs? key = batch.cache.inputs? key)
    (kept : (batch.cache.inputs? (compiler.request input).key).isSome →
      (now.inputs? (compiler.request input).key).isSome)
    (there : ∀ outcome, next.ended? = some (.ok outcome) →
      (now.inputs? (compiler.request input).key).isSome) :
    ({ batch.moved index input next with cache := now } : Batch).KeepsRecords compiler cache := by
  have keptAll (key : ArtifactKey) (recorded : (batch.cache.inputs? key).isSome) :
      (now.inputs? key).isSome := by
    by_cases own : key = (compiler.request input).key
    · subst own
      exact kept recorded
    · rwa [others key own]
  have names : (batch.tasks.set index (input, next)).map Prod.fst = batch.tasks.map Prod.fst :=
    inputs_moved task next
  constructor
  · intro key foreign
    change ∀ other ∈ (batch.tasks.set index (input, next)).map Prod.fst,
      key ≠ (compiler.request other).key at foreign
    rw [names] at foreign
    rw [← keeps.foreign key foreign]
    exact others key (foreign input (List.mem_map_of_mem (List.mem_of_getElem? task)))
  · exact fun key recorded => keptAll key (keeps.kept key recorded)
  · intro other progress outcome listed ended
    rcases List.mem_or_eq_of_mem_set listed with old | same
    · exact keptAll _ (keeps.there other progress outcome old ended)
    · cases same
      exact there outcome ended

/-- What the gate finds up to date has a record. -/
theorem isSome_of_judged (compiler : Compiler) (input : Path) (cache : Cache) (files : FileSystem)
    {outcome : Outcome}
    (judged : ((compiler.judge input cache).run.run files).1 = .error (.ok outcome)) :
    (cache.inputs? (compiler.request input).key).isSome := by
  have ends := (Compiler.leaves_judge compiler input cache files).holds.2
  rw [judged] at ends
  cases ends with
  | upToDate evaluates verdict =>
      obtain ⟨current, -, judged, -⟩ := evaluates
      have recorded := (Verdict.judge_eq_upToDate_iff.mp (judged.symm.trans verdict)).isRecorded
      cases stored : cache.inputs? (compiler.request input).key with
      | none =>
          rw [stored] at recorded
          exact absurd rfl recorded
      | some entries => rfl

/-- No step of a task loses a record, or changes one of another artifact. -/
theorem KeepsRecords.step (keeps : batch.KeepsRecords compiler cache)
    (stepped : Stepped compiler workers batch index files after filesAfter) :
    after.KeepsRecords compiler cache := by
  -- Most steps leave the cache alone.
  have goes {input : Path} {progress next : Progress}
      (task : batch.tasks[index]? = some (input, progress))
      (there : ∀ outcome, next.ended? = some (.ok outcome) →
        (batch.cache.inputs? (compiler.request input).key).isSome) :
      (batch.moved index input next).KeepsRecords compiler cache :=
    keeps.move task (fun _ _ => rfl) id there
  cases stepped with
  | waited => exact keeps
  | took task | locked task | judged task | built task | written task =>
      exact goes task nofun
  | endedJudging task judged =>
      refine goes task fun outcome ended => ?_
      obtain rfl := Option.some.inj ended
      exact isSome_of_judged compiler _ _ _ judged
  | endedBuilding task built =>
      refine goes task fun outcome ended => ?_
      obtain rfl := Option.some.inj ended
      obtain ⟨-, ⟨_, _, answer, -⟩ | ⟨_, answer⟩⟩ := (compiler.leaves_buildInput _ files).holds
      · cases answer.symm.trans built
      · cases answer.symm.trans built
  | endedWriting task written =>
      refine goes task fun outcome ended => ?_
      obtain rfl := Option.some.inj ended
      obtain ⟨answer, -⟩ | ⟨_, answer, -⟩ := Compiler.write_cases written
      · cases answer
      · cases answer
  | @recorded input decision source artifact result now _ task ran =>
      have ends := (compiler.leaves_record input batch.cache files decision source artifact).holds
      rw [ran] at ends
      have own : ({ batch.cache with
          records := compiler.recordsAfter input batch.cache decision source } : Cache).inputs?
            (compiler.request input).key = some (compiler.recordedInputs input source decision.inputs) :=
        SortedMap.get?_insert_self ..
      refine keeps.move task (Compiler.cache_of_record ran).2 ?_ ?_
      · intro recorded
        cases ends with
        | notStored => exact recorded
        | stored => exact Option.isSome_of_eq_some own
      · intro outcome ended
        obtain rfl := Option.some.inj ended
        cases ends with
        | stored => exact Option.isSome_of_eq_some own
  | @released input result task =>
      refine goes task fun outcome ended => ?_
      exact keeps.there input _ outcome (List.mem_of_getElem? task) ended

/-- So no schedule does. -/
theorem leaves_keepsRecords (compiler : Compiler) (workers : Nat) (schedule : List Nat)
    (inputs : List Path) (cache : Cache) (files : FileSystem) :
    (follow compiler workers schedule (start inputs cache)).Leaves files fun batch _ =>
      batch.KeepsRecords compiler cache := by
  have anywhere : Throughout compiler workers schedule (start inputs cache) files fun _ => True :=
    fun _ => trivial
  exact leaves_follow (fun _ _ stepped keeps => keeps.step stepped) anywhere
    (keepsRecords_start compiler inputs cache)

end Batch

namespace Compiler

variable {compiler : Compiler} {inputs : List Path} {cache : Cache} {start : FileSystem}

/-- Batches are serializable. Under a fair schedule every input gets its result, however many jobs
there are and whatever other inputs come to. And whatever the schedule, once all results are there,
there is one for every input, no record is lost, and those of other artifacts are what they were. If
files are apart, and what stands in the places of artifacts was found there in the beginning, there is
an order in which compiling the inputs one by one comes to the same results, the same cache, and the
same files, the artifacts and the database among them. -/
theorem batch_serializable (compiler : Compiler) (inputs : List Path) (cache : Cache)
    (start : FileSystem) (jobs : Nat) :
    (∀ schedule : Nat → Nat, Batch.Fair inputs.length schedule → ∃ count results,
      ((Batch.follow compiler (workerCount jobs inputs) ((List.range count).map schedule)
        (.start inputs cache)).run start).1.results? = some results) ∧
    ∀ schedule batch files results,
      (Batch.follow compiler (workerCount jobs inputs) schedule (.start inputs cache)).run start =
          (batch, files) →
        batch.results? = some results →
          results.length = inputs.length ∧
          (compiler.Apart inputs cache start → compiler.Found inputs start →
            ∃ turns : List (Path × Except CompileError Outcome), turns.Perm (inputs.zip results) ∧
              (compiler.compileAll (turns.map Prod.fst) cache).run start =
                ((turns.map Prod.snd, batch.cache), files)) ∧
          (∀ key, (∀ input ∈ inputs, key ≠ (compiler.request input).key) →
            batch.cache.inputs? key = cache.inputs? key) ∧
          (∀ key, (cache.inputs? key).isSome → (batch.cache.inputs? key).isSome) ∧
          ∀ input outcome, (input, .ok outcome) ∈ inputs.zip results →
            (batch.cache.inputs? (compiler.request input).key).isSome := by
  constructor
  · intro schedule fair
    apply Batch.exists_results_of_fair (Nat.le_max_left 1 _)
    rwa [Batch.start, List.length_map]
  · intro schedule batch files results ran finished
    have names := (Batch.leaves_follow_inputs compiler (workerCount jobs inputs) schedule
      (.start inputs cache) start).holds
    have keeps := (Batch.leaves_keepsRecords compiler (workerCount jobs inputs) schedule inputs cache
      start).holds
    rw [ran, Batch.inputs_start] at names
    rw [ran] at keeps
    refine ⟨(Batch.ended_of_results? names finished).1, fun apart found => ?_, ?_, keeps.kept, ?_⟩
    · have follows := (Serial.of_follow apart found (workerCount jobs inputs) schedule).holds
      rw [ran] at follows
      obtain ⟨turns, serial, holds⟩ := follows
      exact ⟨turns, holds.of_results? finished⟩
    · intro key foreign
      apply keeps.foreign
      rwa [names]
    · intro input outcome member
      obtain ⟨index, place⟩ := List.mem_iff_getElem?.mp member
      obtain ⟨named, ended⟩ := List.getElem?_zip_eq_some.mp place
      have task := Batch.task_of_results? finished names named ended
      exact keeps.there input _ outcome (List.mem_of_getElem? task) rfl

/-- A source of one empty node, and nothing else. -/
def oneSource : FileSystem :=
  let source := Text.utf8 "\x7b\"Nodes\":[\x7b\x7d]\x7d"
  ⟨SortedMap.empty.insert [Text.utf8 "a.json"] (.file source), [], "1", fun _ _ => false⟩

/-- Two workers compile an input that is given twice, and one that is missing; the directory
for the artifacts is still to be made. -/
theorem batch_serializable_twice :
    let compiler : Compiler := ⟨⟨"Vulkan", .ofText "out", none, none, 0, false⟩, .empty, .standard⟩
    let inputs : List Path := [.ofText "a.json", .ofText "missing.json", .ofText "a.json"]
    let cache : Cache := ⟨some (.ofText "cache.bin"), SortedMap.empty⟩
    compiler.Apart inputs cache oneSource ∧
      ∃ schedule batch files results, ∃ turns : List (Path × Except CompileError Outcome),
        (Batch.follow compiler (workerCount 2 inputs) schedule (.start inputs cache)).run oneSource =
            (batch, files) ∧
          batch.results? = some results ∧ turns.Perm (inputs.zip results) ∧
          (compiler.compileAll (turns.map Prod.fst) cache).run oneSource =
            ((turns.map Prod.snd, batch.cache), files) := by
  intro compiler inputs cache
  have apart : compiler.Apart inputs cache oneSource :=
    apart_of_clear (by decide +kernel) (by decide +kernel) (by decide +kernel) (by decide +kernel)
  have found : compiler.Found inputs oneSource := found_of_clear (by decide +kernel)
  have fair : Batch.Fair inputs.length fun step => step % 3 := by
    intro index inside first
    have below : index < 3 := inside
    refine ⟨index + 3 * first, by omega, ?_⟩
    change (index + 3 * first) % 3 = index
    omega
  obtain ⟨exists_results, serializes⟩ := batch_serializable compiler inputs cache oneSource 2
  obtain ⟨count, results, finished⟩ := exists_results _ fair
  obtain ⟨-, ordered, -⟩ := serializes _ _ _ results rfl finished
  obtain ⟨turns, perm, compiles⟩ := ordered apart found
  exact ⟨apart, _, _, _, results, turns, rfl, finished, perm, compiles⟩

/-- Whether two workers may come to results, to a cache or to files that no order of the inputs
comes to. -/
def Races (compiler : Compiler) (inputs : List Path) (cache : Cache) (start : FileSystem) : Prop :=
  ∃ (schedule : List Nat) (batch : Batch) (files : FileSystem)
    (results : List (Except CompileError Outcome)),
    (Batch.follow compiler (workerCount 2 inputs) schedule (.start inputs cache)).run start =
        (batch, files) ∧
      batch.results? = some results ∧
      ¬∃ turns : List (Path × Except CompileError Outcome), turns.Perm (inputs.zip results) ∧
        (compiler.compileAll (turns.map Prod.fst) cache).run start =
          ((turns.map Prod.snd, batch.cache), files)

/-- Whether no source, and neither the catalog's file nor the database's, is where an artifact goes. -/
def Distinct (compiler : Compiler) (inputs : List Path) (cache : Cache) (files : FileSystem) : Prop :=
  ∀ input ∈ inputs, ∀ path ∈ inputs ++ compiler.catalog.dependencies ++ cache.path.toList,
    files.place path ≠ files.place (compiler.outputPath input)

instance (compiler : Compiler) (inputs : List Path) (cache : Cache) (files : FileSystem) :
    Decidable (compiler.Distinct inputs cache files) :=
  inferInstanceAs (Decidable (∀ input ∈ inputs, _))

/-- Two inputs race if what they come to in a batch is what they come to in neither order. -/
theorem races_of_follow {first second : Path} {one two : Except CompileError Outcome}
    {schedule : List Nat} {now : Cache} {after : FileSystem}
    (follows : (Batch.follow compiler 2 schedule (.start [first, second] cache)).run start =
      (⟨[(first, .finished one), (second, .finished two)], now⟩, after))
    (serially : (compiler.compileAll [first, second] cache).run start ≠ (([one, two], now), after))
    (seriallyToo : (compiler.compileAll [second, first] cache).run start ≠ (([two, one], now), after)) :
    compiler.Races [first, second] cache start := by
  refine ⟨schedule, _, _, _, follows, rfl, ?_⟩
  rintro ⟨turns, perm, compiles⟩
  rcases List.perm_pair.mp perm with rfl | rfl
  · exact serially compiles
  · exact seriallyToo compiles

theorem run_compileAll_pair {first second : Path} {one two : Except CompileError Outcome}
    {between now : Cache} {files middle after : FileSystem}
    (compiled : (compiler.compile first cache).run files = ((one, between), middle))
    (compiledToo : (compiler.compile second between).run middle = ((two, now), after)) :
    (compiler.compileAll [first, second] cache).run files = (([one, two], now), after) := by
  rw [compileAll, run_bind, compiled]
  dsimp only
  rw [run_bind, compileAll, run_bind, compiledToo]
  rfl

/-- One by one, the second of two inputs is up to date if, once the first has been compiled or
has failed, it reads as it was recorded and its artifact is found. -/
theorem run_compileAll_of_recorded {first : Path} (second : Path)
    {result : Except CompileError Outcome} {now : Cache} {content : Bytes} {files after : FileSystem}
    (compiled : (compiler.compile first cache).run files = ((result, now), after))
    (alone : compiler.catalog.dependencies = []) (unforced : compiler.config.force = false)
    (read : after.read second = .ok content)
    (record : now.inputs? (compiler.request second).key =
      some [⟨compiler.config.target, second.portable, .ofContent content, Artifact.version⟩])
    (stands : after.pathExists (compiler.outputPath second)) :
    (compiler.compileAll [first, second] cache).run files =
      (([result, .ok (.upToDate (compiler.outputPath second))], now), after) :=
  run_compileAll_pair compiled (compile_of_recorded alone read record stands unforced)

/-- What is recorded of a source without a database: the catalog is as the gate found it. -/
theorem inputs?_of_judged (now : Cache) {input path : Path} {before : Cache} {judging files : FileSystem}
    {decision : BuildDecision} {source artifact : Bytes}
    (depends : compiler.catalog.dependencies = [path])
    (apart : path.portable ≠ input.portable) (inMemory : now.path = none)
    (judged : ((compiler.judge input before).run.run judging).1 = .ok decision)
    (built : compiler.Builds input files source artifact) :
    ({ now with records := compiler.recordsAfter input now decision source } : Cache).inputs?
        (compiler.request input).key =
      some (compiler.entry input source ::
        ((judging.read path).toOption.map (compiler.entry path)).toList) :=
  Recorded.inputs?_eq depends (fun same => absurd same apart)
    (.intro judged built.leaves.holds.1 (congrArg Prod.fst (record_of_inMemory inMemory files)))

/-- One by one, the second of two inputs is judged when the first has been compiled. -/
theorem inputs?_compileAll_pair {first second path : Path} {one : Except CompileError Outcome}
    {between : Cache} {files middle after : FileSystem} {decision : BuildDecision}
    {source artifact : Bytes} (depends : compiler.catalog.dependencies = [path])
    (apart : path.portable ≠ second.portable) (inMemory : between.path = none)
    (compiled : (compiler.compile first cache).run files = ((one, between), middle))
    (judged : ((compiler.judge second between).run.run middle).1 = .ok decision)
    (built : compiler.Builds second middle source artifact)
    (written : (writeAtomically (compiler.outputPath second) artifact).run middle = (.ok (), after)) :
    Cache.inputs? ((compiler.compileAll [first, second] cache).run files).1.2
        (compiler.request second).key =
      some (compiler.entry second source ::
        ((middle.read path).toOption.map (compiler.entry path)).toList) := by
  rw [run_compileAll_pair compiled (compile_of_inMemory inMemory judged built written)]
  exact inputs?_of_judged between depends apart inMemory judged built

/-- A scene of one empty node. -/
def pairContent : Bytes := Text.utf8 "\x7b\"Nodes\":[\x7b\x7d]\x7d"

/-- Two sources of it. -/
def pair : List Path := [.ofText "a.json", .ofText "b.json"]

def pairEntries : SortedMap Location Entry :=
  let entries := SortedMap.empty.insert [Text.utf8 "a.json"] (.file pairContent)
  entries.insert [Text.utf8 "b.json"] (.file pairContent)

/-- Both sources are as they were recorded. -/
def pairCache (compiler : Compiler) : Cache :=
  let record (input : Path) : List RecordedInput :=
    [⟨compiler.config.target, input.portable, .ofContent pairContent, Artifact.version⟩]
  let records := SortedMap.empty.insert (compiler.request (.ofText "a.json")).key
    (record (.ofText "a.json"))
  ⟨none, records.insert (compiler.request (.ofText "b.json")).key (record (.ofText "b.json"))⟩

theorem inputs?_pairCache {input : Path} (listed : input ∈ pair)
    (apart : (compiler.request (.ofText "a.json")).key ≠ (compiler.request (.ofText "b.json")).key) :
    (pairCache compiler).inputs? (compiler.request input).key =
      some [⟨compiler.config.target, input.portable, .ofContent pairContent, Artifact.version⟩] := by
  rcases List.mem_pair.mp listed with rfl | rfl
  · exact (SortedMap.get?_insert_of_ne _ _ apart).trans (SortedMap.get?_insert_self ..)
  · exact SortedMap.get?_insert_self ..

theorem exists_builds_pair (standard : compiler.compressor = .standard)
    (fits : (compiler.buffer "\x7b\"Nodes\":[\x7b\x7d]\x7d").toOption.any
      (·.length ≤ Deflate.storedLimit)) :
    ∃ artifact, ∀ {input : Path} {files : FileSystem}, files.read input = .ok pairContent →
      compiler.Builds input files pairContent artifact := by
  obtain ⟨artifact, compiled⟩ := exists_artifact standard fits
  exact ⟨artifact, fun read => ⟨read, (compiler.build_utf8 _).trans compiled⟩⟩

/-- Compiles to a directory beside one that need not be there. -/
def detour : Compiler := ⟨⟨"Vulkan", .ofText "new/../out", none, none, 0, false⟩, .empty, .standard⟩

/-- Sources, and what stands in the places of their artifacts. -/
def detourEntries (first second : Bytes) : SortedMap Location Entry :=
  let entries := pairEntries.insert [Text.utf8 "out"] .directory
  let entries := entries.insert [Text.utf8 "out", Text.utf8 "a.scene"] (.file first)
  entries.insert [Text.utf8 "out", Text.utf8 "b.scene"] (.file second)

/-- Before a batch, the directory through which the path of the artifacts leads is missing. -/
def detourFiles : FileSystem := ⟨detourEntries [] [], [], "1", fun _ _ => false⟩

/-- The first artifact that is written makes it. -/
def detourFilesWith (first second : Bytes) : FileSystem :=
  ⟨(detourEntries first second).insert [Text.utf8 "new"] .directory, [], "1", fun _ _ => false⟩

theorem writes_detour (artifact : Bytes) :
    (writeAtomically (detour.outputPath (.ofText "a.json")) artifact).run detourFiles =
        (.ok (), detourFilesWith artifact []) ∧
      (writeAtomically (detour.outputPath (.ofText "b.json")) artifact).run detourFiles =
        (.ok (), detourFilesWith [] artifact) ∧
      (writeAtomically (detour.outputPath (.ofText "b.json")) artifact).run (detourFilesWith artifact []) =
        (.ok (), detourFilesWith artifact artifact) := by
  have goes : detour.outputPath (.ofText "a.json") = .ofText "new/../out/a.scene" := by rfl
  have goesToo : detour.outputPath (.ofText "b.json") = .ofText "new/../out/b.scene" := by rfl
  rw [goes, goesToo]
  refine ⟨by rfl, by rfl, ?_⟩
  have replaced : (replace (.ofText "new/../out/.b.scene.1.tmp") (.ofText "new/../out/b.scene")
      artifact).run.run (detourFilesWith artifact []) = (.ok (), detourFilesWith artifact artifact) :=
    Prod.ext (by rfl) (by rfl)
  apply run_writeAtomically _ _ replaced
  · have above : (Path.ofText "new/../out/b.scene").parent? = some (.ofText "new/../out") := by
      decide +kernel
    exact ready_of_isDirectory above rfl
  · change (Path.ofText "new/../out/b.scene").temporary "1" = _
    decide +kernel

/-- Two workers that both miss the directory compile both sources again. -/
theorem races_detour : detour.Races pair (pairCache detour) detourFiles := by
  obtain ⟨artifact, builds⟩ := @exists_builds_pair detour rfl (by decide +kernel)
  have judges : ∀ input ∈ pair, ((detour.judge input (pairCache detour)).run.run detourFiles).1.isOk := by
    decide +kernel
  have keys : (detour.request (.ofText "a.json")).key ≠ (detour.request (.ofText "b.json")).key := by
    decide +kernel
  obtain ⟨first, second, both⟩ := writes_detour artifact
  obtain ⟨decision, judged⟩ := exists_of_isOk (judges (.ofText "a.json") (by decide))
  obtain ⟨decisionToo, judgedToo⟩ := exists_of_isOk (judges (.ofText "b.json") (by decide))
  have builtFirst := builds (show detourFiles.read (.ofText "a.json") = .ok pairContent by rfl)
  have builtSecond := builds (show detourFiles.read (.ofText "b.json") = .ok pairContent by rfl)
  have builtBoth := builds
    (show (detourFilesWith artifact []).read (.ofText "b.json") = .ok pairContent by rfl)
  apply races_of_follow (Batch.run_follow_of_both_judged keys judged judgedToo
    (Batch.run_follow_of_judged rfl builtFirst.leaves.holds.1 (run_write_of_ok first)
      (record_of_inMemory rfl _))
    (Batch.run_follow_of_judged rfl builtBoth.leaves.holds.1 (run_write_of_ok both)
      (record_of_inMemory rfl _)))
  · intro same
    have upToDate := run_compileAll_of_recorded (.ofText "b.json")
      (compile_of_inMemory rfl judged builtFirst first) rfl rfl (by rfl)
      ((SortedMap.get?_insert_of_ne _ _ keys.symm).trans (inputs?_pairCache (by decide) keys)) (by rfl)
    cases upToDate.symm.trans same
  · intro same
    have upToDate := run_compileAll_of_recorded (.ofText "a.json")
      (compile_of_inMemory rfl judgedToo builtSecond second) rfl rfl (by rfl)
      ((SortedMap.get?_insert_of_ne _ _ keys).trans (inputs?_pairCache (by decide) keys)) (by rfl)
    cases upToDate.symm.trans same

/-- Compiles to where the process works, by a path through the places of both artifacts. -/
def crossing : Compiler :=
  ⟨⟨"Vulkan", .ofText "a.scene/../b.scene/..", none, none, 0, false⟩, .empty, .standard⟩

/-- Before a batch, there are the sources only. -/
def crossingFiles : FileSystem := ⟨pairEntries, [], "1", fun _ _ => false⟩

/-- Writing either artifact makes directories in the places of both, and fails. -/
def crossingFilesAfter : FileSystem :=
  ⟨(pairEntries.insert [Text.utf8 "a.scene"] .directory).insert [Text.utf8 "b.scene"] .directory, [], "1",
    fun _ _ => false⟩

theorem writes_crossing (artifact : Bytes) {input : Path} (listed : input ∈ pair) :
    (writeAtomically (crossing.outputPath input) artifact).run crossingFiles =
        (.error .isDirectory, crossingFilesAfter) ∧
      (writeAtomically (crossing.outputPath input) artifact).run crossingFilesAfter =
        (.error .isDirectory, crossingFilesAfter) := by
  have goes : crossing.outputPath (.ofText "a.json") = .ofText "a.scene/../b.scene/../a.scene" := by rfl
  have goesToo : crossing.outputPath (.ofText "b.json") = .ofText "a.scene/../b.scene/../b.scene" := by rfl
  rcases List.mem_pair.mp listed with rfl | rfl
  · rw [goes]
    exact ⟨by rfl, by rfl⟩
  · rw [goesToo]
    exact ⟨by rfl, by rfl⟩

/-- Two workers that both miss the directories both fail, though what the one that comes second in
any order finds in the place of its artifact is up to date. -/
theorem races_crossing : crossing.Races pair (pairCache crossing) crossingFiles := by
  obtain ⟨artifact, builds⟩ := @exists_builds_pair crossing rfl (by decide +kernel)
  have judges : ∀ input ∈ pair,
      ((crossing.judge input (pairCache crossing)).run.run crossingFiles).1.isOk := by
    decide +kernel
  have keys : (crossing.request (.ofText "a.json")).key ≠ (crossing.request (.ofText "b.json")).key := by
    decide +kernel
  obtain ⟨first, -⟩ := writes_crossing artifact (show .ofText "a.json" ∈ pair by decide)
  obtain ⟨second, both⟩ := writes_crossing artifact (show .ofText "b.json" ∈ pair by decide)
  obtain ⟨decision, judged⟩ := exists_of_isOk (judges (.ofText "a.json") (by decide))
  obtain ⟨decisionToo, judgedToo⟩ := exists_of_isOk (judges (.ofText "b.json") (by decide))
  have builtFirst := builds (show crossingFiles.read (.ofText "a.json") = .ok pairContent by rfl)
  have builtSecond := builds (show crossingFiles.read (.ofText "b.json") = .ok pairContent by rfl)
  have builtBoth := builds (show crossingFilesAfter.read (.ofText "b.json") = .ok pairContent by rfl)
  apply races_of_follow (Batch.run_follow_of_both_judged keys judged judgedToo
    (Batch.run_follow_of_notWritten rfl builtFirst.leaves.holds.1 (run_write_of_error first))
    (Batch.run_follow_of_notWritten rfl builtBoth.leaves.holds.1 (run_write_of_error both)))
  · intro same
    have upToDate := run_compileAll_of_recorded (.ofText "b.json") (run_compile_of_write judged
      builtFirst.leaves.holds.1 (run_write_of_error first)) rfl rfl (by rfl)
      (inputs?_pairCache (by decide) keys) (by rfl)
    cases upToDate.symm.trans same
  · intro same
    have upToDate := run_compileAll_of_recorded (.ofText "a.json") (run_compile_of_write judgedToo
      builtSecond.leaves.holds.1 (run_write_of_error second)) rfl rfl (by rfl)
      (inputs?_pairCache (by decide) keys) (by rfl)
    cases upToDate.symm.trans same

/-- Compiles with a catalog that was loaded by a path through the directory for the artifacts. -/
def winding : Compiler :=
  ⟨⟨"Vulkan", .ofText "out", none, none, 0, false⟩,
    { Catalog.empty with source := some (.ofText "out/../assets.json") }, .standard⟩

def windingEntries : SortedMap Location Entry :=
  pairEntries.insert [Text.utf8 "assets.json"] (.file (Text.utf8 "\x7b\"Assets\":\x7b\x7d\x7d"))

/-- Before a batch, this directory is missing. -/
def windingFiles : FileSystem := ⟨windingEntries, [], "1", fun _ _ => false⟩

/-- The first artifact that is written makes it. -/
def windingFilesWith (name : String) (artifact : Bytes) : FileSystem :=
  let entries := windingEntries.insert [Text.utf8 "out"] .directory
  ⟨entries.insert [Text.utf8 "out", Text.utf8 name] (.file artifact), [], "1", fun _ _ => false⟩

theorem writes_winding (artifact : Bytes) :
    (writeAtomically (winding.outputPath (.ofText "a.json")) artifact).run windingFiles =
        (.ok (), windingFilesWith "a.scene" artifact) ∧
      (writeAtomically (winding.outputPath (.ofText "b.json")) artifact).run windingFiles =
        (.ok (), windingFilesWith "b.scene" artifact) ∧
      (∃ after, (writeAtomically (winding.outputPath (.ofText "b.json")) artifact).run
        (windingFilesWith "a.scene" artifact) = (.ok (), after)) ∧
      ∃ after, (writeAtomically (winding.outputPath (.ofText "a.json")) artifact).run
        (windingFilesWith "b.scene" artifact) = (.ok (), after) := by
  have goes : winding.outputPath (.ofText "a.json") = .ofText "out/a.scene" := by rfl
  have goesToo : winding.outputPath (.ofText "b.json") = .ofText "out/b.scene" := by rfl
  have above : (Path.ofText "out/a.scene").parent? = some (.ofText "out") := by decide +kernel
  have aboveToo : (Path.ofText "out/b.scene").parent? = some (.ofText "out") := by decide +kernel
  have named : (Path.ofText "out/a.scene").temporary "1" = .ofText "out/.a.scene.1.tmp" := by decide +kernel
  have namedToo : (Path.ofText "out/b.scene").temporary "1" = .ofText "out/.b.scene.1.tmp" := by
    decide +kernel
  rw [goes, goesToo]
  refine ⟨by rfl, by rfl, ?_, ?_⟩
  · obtain ⟨after, replaced⟩ := @exists_run_eq _ (windingFilesWith "a.scene" artifact)
      (replace (.ofText "out/.b.scene.1.tmp") (.ofText "out/b.scene") artifact).run (.ok ()) (by rfl)
    exact ⟨after, run_writeAtomically (ready_of_isDirectory aboveToo rfl) namedToo replaced⟩
  · obtain ⟨after, replaced⟩ := @exists_run_eq _ (windingFilesWith "b.scene" artifact)
      (replace (.ofText "out/.a.scene.1.tmp") (.ofText "out/a.scene") artifact).run (.ok ()) (by rfl)
    exact ⟨after, run_writeAtomically (ready_of_isDirectory above rfl) named replaced⟩

/-- Two workers that both judge before either has written record no catalog, while in any order the
second records it. -/
theorem races_winding : winding.Races pair .inMemory windingFiles := by
  obtain ⟨artifact, builds⟩ := @exists_builds_pair winding rfl (by decide +kernel)
  have judges : ∀ input ∈ pair, ((winding.judge input .inMemory).run.run windingFiles).1.isOk := by
    decide +kernel
  have keys : (winding.request (.ofText "a.json")).key ≠ (winding.request (.ofText "b.json")).key := by
    decide +kernel
  have apart : ∀ input ∈ pair, (Path.ofText "out/../assets.json").portable ≠ input.portable := by
    decide +kernel
  obtain ⟨first, second, ⟨_, both⟩, ⟨_, bothToo⟩⟩ := writes_winding artifact
  obtain ⟨decision, judged⟩ := exists_of_isOk (judges (.ofText "a.json") (by decide))
  obtain ⟨decisionToo, judgedToo⟩ := exists_of_isOk (judges (.ofText "b.json") (by decide))
  have builtFirst := builds (show windingFiles.read (.ofText "a.json") = .ok pairContent by rfl)
  have builtSecond := builds (show windingFiles.read (.ofText "b.json") = .ok pairContent by rfl)
  have builtBoth := builds
    (show (windingFilesWith "a.scene" artifact).read (.ofText "b.json") = .ok pairContent by rfl)
  have builtBothToo := builds
    (show (windingFilesWith "b.scene" artifact).read (.ofText "a.json") = .ok pairContent by rfl)
  have readable {input : Path} {files : FileSystem} (read : files.read input = .ok pairContent)
      (found : ∃ catalog, files.read (.ofText "out/../assets.json") = .ok catalog) :
      ∀ path ∈ (winding.request input).inputs, ∃ content, files.read path = .ok content := by
    intro path member
    rcases List.mem_pair.mp member with rfl | rfl
    · exact ⟨pairContent, read⟩
    · exact found
  let withFirst : Cache := ⟨none, winding.recordsAfter (.ofText "a.json") .inMemory decision pairContent⟩
  let withSecond : Cache := ⟨none, winding.recordsAfter (.ofText "b.json") .inMemory decisionToo pairContent⟩
  apply races_of_follow (Batch.run_follow_of_both_judged keys judged judgedToo
    (Batch.run_follow_of_judged rfl builtFirst.leaves.holds.1 (run_write_of_ok first)
      (record_of_inMemory rfl _))
    (Batch.run_follow_of_judged rfl builtBoth.leaves.holds.1 (run_write_of_ok both)
      (record_of_inMemory rfl _)))
  · intro same
    obtain ⟨late, judgedLate⟩ := @exists_judge winding (.ofText "b.json") withFirst
      (windingFilesWith "a.scene" artifact) (readable builtBoth.read_eq ⟨_, by rfl⟩)
      ((SortedMap.get?_insert_of_ne _ _ keys.symm).trans rfl)
    have known := inputs?_compileAll_pair rfl (apart _ (by decide)) rfl
      (compile_of_inMemory rfl judged builtFirst first) judgedLate builtBoth both
    have missed := inputs?_of_judged withFirst rfl (apart _ (by decide)) rfl judgedToo builtBoth
    rw [same] at known
    cases missed.symm.trans known
  · intro same
    obtain ⟨late, judgedLate⟩ := @exists_judge winding (.ofText "a.json") withSecond
      (windingFilesWith "b.scene" artifact) (readable builtBothToo.read_eq ⟨_, by rfl⟩)
      ((SortedMap.get?_insert_of_ne _ _ keys).trans rfl)
    have known := inputs?_compileAll_pair rfl (apart _ (by decide)) rfl
      (compile_of_inMemory rfl judgedToo builtSecond second) judgedLate builtBothToo bothToo
    have missed := inputs?_of_judged .inMemory rfl (apart _ (by decide)) rfl judged builtFirst
    have kept := SortedMap.get?_insert_of_ne withFirst.records
      (winding.recordedInputs (.ofText "b.json") pairContent decisionToo.inputs) keys
    rw [same] at known
    cases (kept.trans missed).symm.trans known

/-- It is not enough that artifacts go to places of their own. Through a directory that is missing,
artifacts that are there are not found before either is compiled. Where directories are made in the
places of artifacts, these are found in the end, and up to date. And a catalog may be found only once
an artifact has been written. -/
theorem batch_unserializable :
    (detour.Distinct pair (pairCache detour) detourFiles ∧
      detour.Apart pair (pairCache detour) detourFiles ∧
      detour.Races pair (pairCache detour) detourFiles) ∧
    (crossing.Distinct pair (pairCache crossing) crossingFiles ∧ crossing.Found pair crossingFiles ∧
      crossing.Races pair (pairCache crossing) crossingFiles) ∧
    winding.Distinct pair .inMemory windingFiles ∧ winding.Found pair windingFiles ∧
      winding.Races pair .inMemory windingFiles := by
  have apart : detour.Apart pair (pairCache detour) detourFiles :=
    apart_of_clear (by decide +kernel) (by decide +kernel) (by decide +kernel) (by decide +kernel)
  refine ⟨⟨?_, apart, races_detour⟩, ⟨?_, ?_, races_crossing⟩, ?_, ?_, races_winding⟩
  · decide +kernel
  · decide +kernel
  · exact found_of_clear (by decide +kernel)
  · decide +kernel
  · exact found_of_clear (by decide +kernel)

end Compiler

end SceneForge
