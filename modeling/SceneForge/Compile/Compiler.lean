import SceneForge.Artifact
import SceneForge.Catalog.Reading
import SceneForge.Compile.Error
import SceneForge.Config

/-!
# The compiler

Compiling an input goes through phases: the gate judges whether anything has
changed; the source is read and compiled; the artifact is written; the inputs are
recorded. A failure in any phase ends compiling, so that neither the artifact nor the
record is touched by what comes later.
-/

namespace SceneForge

/-- A compiler: its settings, the assets it knows, and how it compresses artifacts. -/
structure Compiler where
  config : Config
  catalog : Catalog
  compressor : Compressor

/-- What compiling an input came to. -/
inductive Outcome where
  | upToDate (output : Path)
  | compiled (output : Path) (size : Nat)
  deriving DecidableEq

namespace Outcome

/-- The artifact. -/
def output : Outcome → Path
  | upToDate output => output
  | compiled output _ => output

/-- Whether the artifact was written. -/
def wasCompiled : Outcome → Bool
  | upToDate _ => false
  | compiled .. => true

end Outcome

/-- A phase of compiling: it gives a value to go on with, or ends compiling with a
result. -/
abbrev Phase (α : Type) := ExceptT (Except CompileError Outcome) Program α

namespace Compiler

/-- The name of the artifact of an input. -/
def artifactName (input : Path) : Bytes :=
  let stem := (input.stem?.map Text.lossy).getD "scene"
  Text.utf8 s!"{stem}.scene"

/-- Where the artifact of an input goes. -/
def outputPath (compiler : Compiler) (input : Path) : Path :=
  compiler.config.outputDirectory.join ⟨artifactName input⟩

/-- What the gate has to judge for an input. -/
def request (compiler : Compiler) (input : Path) : BuildRequest where
  target := compiler.config.target
  output := compiler.outputPath input
  inputs := input :: compiler.catalog.dependencies
  version := Artifact.version

/-- The scene buffer of a source text. -/
def buffer (compiler : Compiler) (text : String) : Except CompileError Bytes := do
  let document ← (Document.read text).mapError CompileError.document
  let writing := Writing.document (compiler.catalog.context : AssetContext Unit) document
  (writing.run.run ()).run.1.mapError CompileError.buffer

/-- The artifact of a source text. -/
def artifact (compiler : Compiler) (text : String) : Except CompileError Bytes := do
  (Artifact.encode compiler.compressor (← compiler.buffer text)).mapError CompileError.container

/-- The artifact of a source. -/
def build (compiler : Compiler) (source : Bytes) : Except CompileError Bytes := do
  compiler.artifact (← (Text.ofUtf8 source).mapError CompileError.notText)

/-- The inputs to record: those that the gate saw, with the fingerprint of the source
that was compiled, should it have changed since. -/
def recordedInputs (compiler : Compiler) (input : Path) (source : Bytes)
    (judged : List RecordedInput) : List RecordedInput :=
  let path := input.portable
  let fingerprint := Fingerprint.ofContent source
  match judged.findIdx? (·.path == path) with
  | some index => judged.modify index fun entry => { entry with fingerprint }
  | none => ⟨compiler.config.target, path, fingerprint, Artifact.version⟩ :: judged

/-- Lets the gate judge; ends compiling if the artifact is up to date, unless the
settings say to build it in any case. -/
def judge (compiler : Compiler) (input : Path) (cache : Cache) : Phase BuildDecision := do
  match ← (cache.evaluate (compiler.request input) : Program (Except CacheError BuildDecision)) with
  | .error error => throw (.error (.cache error))
  | .ok decision =>
      if decision.verdict = .upToDate ∧ !compiler.config.force then
        throw (.ok (.upToDate (compiler.outputPath input)))
      else return decision

/-- Reads the source and compiles it; gives the source and the artifact. -/
def buildInput (compiler : Compiler) (input : Path) : Phase (Bytes × Bytes) := do
  match ← (Program.ask (.read input) : Program (Except FileError Bytes)) with
  | .error _ => throw (.error (.inputRead input))
  | .ok source =>
      match compiler.build source with
      | .error error => throw (.error error)
      | .ok artifact => return (source, artifact)

/-- Writes the artifact. -/
def write (compiler : Compiler) (input : Path) (artifact : Bytes) : Phase Unit := do
  let output := compiler.outputPath input
  match ← (Program.writeAtomically output artifact : Program (Except FileError Unit)) with
  | .error _ => throw (.error (.outputWrite output))
  | .ok () => return ()

/-- Records the inputs of an artifact that was written. -/
def record (compiler : Compiler) (input : Path) (decision : BuildDecision)
    (source artifact : Bytes) (cache : Cache) : Program (Except CompileError Outcome × Cache) := do
  let inputs := compiler.recordedInputs input source decision.inputs
  match ← cache.store (compiler.request input).key inputs with
  | (.error error, cache) => return (.error (.cache error), cache)
  | (.ok (), cache) => return (.ok (.compiled (compiler.outputPath input) artifact.length), cache)

/-- Compiles an input unless it is up to date. -/
def compile (compiler : Compiler) (input : Path) (cache : Cache) :
    Program (Except CompileError Outcome × Cache) := do
  let phases : Phase (BuildDecision × Bytes × Bytes) := do
    let decision ← compiler.judge input cache
    let (source, artifact) ← compiler.buildInput input
    compiler.write input artifact
    return (decision, source, artifact)
  match ← phases.run with
  | .error result => return (result, cache)
  | .ok (decision, source, artifact) => compiler.record input decision source artifact cache

/-- Whether an input has changed since it was compiled. -/
def hasChanged (compiler : Compiler) (input : Path) (cache : Cache) :
    Program (Except CompileError Bool) := do
  match ← cache.evaluate (compiler.request input) with
  | .error error => return .error (.cache error)
  | .ok decision => return .ok decision.verdict.needsRebuild

/-- Compiles inputs one after the other. -/
def compileAll (compiler : Compiler) : (inputs : List Path) → (cache : Cache) →
    Program (List (Except CompileError Outcome) × Cache)
  | [], cache => return ([], cache)
  | input :: rest, cache => do
      let (result, cache) ← compiler.compile input cache
      let (results, cache) ← compiler.compileAll rest cache
      return (result :: results, cache)

end Compiler

end SceneForge
