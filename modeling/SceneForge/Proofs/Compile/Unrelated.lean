import SceneForge.Compile.Compiler
import SceneForge.Proofs.Catalog.Additions
import SceneForge.Proofs.Compile.Parallel

/-!
# Assets that a document does not use

Compiling depends on a catalog through the references that the document mentions and through
the declarations of the materials that it uses. An asset that a catalog has in addition
changes neither, so a document compiles to the same; only a document whose first problem is
the missing asset may fare better.
-/

namespace SceneForge

/-- The problem of a field is that a reference is unresolved. -/
def FieldError.Blames (reference : String) (error : FieldError) : Prop :=
  ∃ field, error = .unresolved field reference

/-- The problem of writing is that a reference in a field is unresolved. -/
def BufferError.Blames (reference : String) (error : BufferError) : Prop :=
  ∃ cause, error.fieldError? = some cause ∧ cause.Blames reference

/-- The problem of compiling is that a reference in a field is unresolved. -/
def CompileError.Blames (reference : String) (error : CompileError) : Prop :=
  ∃ cause, error = .buffer cause ∧ cause.Blames reference

/-- Another outcome is the same, unless the first one is an excused error. -/
def Matches {ε α : Type} (excused : ε → Prop) (outcome other : Except ε α) : Prop :=
  outcome = other ∨ ∃ error, excused error ∧ outcome = .error error

namespace Matches

variable {ε ε' α β : Type} {excused : ε → Prop} {excused' : ε' → Prop} {outcome other : Except ε α}

theorem refl (outcome : Except ε α) : Matches excused outcome outcome := .inl rfl

theorem ok (alike : Matches excused outcome other) {value : α} (succeeds : outcome = .ok value) :
    other = .ok value := by
  rcases alike with rfl | ⟨error, -, fails⟩
  · exact succeeds
  · cases fails.symm.trans succeeds

theorem error (alike : Matches excused outcome other) {error : ε} (fails : outcome = .error error)
    (inexcusable : ¬ excused error) : other = .error error := by
  rcases alike with rfl | ⟨cause, excuse, failed⟩
  · exact fails
  · cases failed.symm.trans fails
    exact absurd excuse inexcusable

theorem bind {next otherNext : α → Except ε β} (first : Matches excused outcome other)
    (rest : ∀ value, Matches excused (next value) (otherNext value)) :
    Matches excused (outcome >>= next) (other >>= otherNext) := by
  rcases first with rfl | ⟨error, excuse, rfl⟩
  · cases outcome with
    | error error => exact .refl _
    | ok value => exact rest value
  · exact .inr ⟨error, excuse, rfl⟩

theorem mapError {change : ε → ε'} (alike : Matches excused outcome other)
    (excuses : ∀ error, excused error → excused' (change error)) :
    Matches excused' (outcome.mapError change) (other.mapError change) := by
  rcases alike with rfl | ⟨error, excuse, rfl⟩
  · exact .refl _
  · exact .inr ⟨change error, excuses error excuse, rfl⟩

end Matches

/-- Without states, what follows has a matching answer. -/
theorem Follows.matches {ε α : Type} {related : Unit → Unit → Prop} {excused : ε → Prop}
    {asking other : ExceptT ε (StateM Unit) α} (follows : Follows related excused asking other)
    (relates : related () ()) : Matches excused (answer asking) (answer other) :=
  (follows () () relates).imp_left And.left

namespace Catalog

namespace Extends

variable {catalog other : Catalog} {reference : String} (knows : other.Extends catalog reference)
include knows

/-- A catalog that knows more answers alike, unless it is asked for what it knows in addition. -/
theorem tracks : (other.context : AssetContext Unit).Tracks catalog.context (fun _ _ => True)
    (FieldError.Blames reference) where
  resolveIn field name _ _ _ := by
    rcases knows.resolve name with same | ⟨rfl, unlisted⟩
    · refine .inl ⟨?_, trivial⟩
      simp only [AssetContext.resolveIn, context, Catalog.resolve, same]
    · refine .inr ⟨.unresolved field name, ⟨field, rfl⟩, ?_⟩
      simp only [AssetContext.resolveIn, context, Catalog.resolve, unlisted]
      rfl
  declared resolved valid _ _ _ :=
    .inl ⟨congrArg Except.ok (knows.declared _ _ (asked_resolveIn resolved) valid).symm, trivial⟩

/-- A source compiles to the same buffer. -/
theorem buffer (config : Config) (compressor : Compressor) (text : String) :
    Matches (CompileError.Blames reference)
      ((⟨config, catalog, compressor⟩ : Compiler).buffer text)
      ((⟨config, other, compressor⟩ : Compiler).buffer text) :=
  (Matches.refl _).bind fun document =>
    have follows := knows.tracks.document
      (fun _ _ cause blamed => (⟨cause, rfl, blamed⟩ : BufferError.Blames reference _)) document
    (follows.matches trivial).mapError fun cause blamed => ⟨cause, rfl, blamed⟩

/-- A source compiles to the same artifact. -/
theorem build (config : Config) (compressor : Compressor) (source : Bytes) :
    Matches (CompileError.Blames reference)
      ((⟨config, catalog, compressor⟩ : Compiler).build source)
      ((⟨config, other, compressor⟩ : Compiler).build source) :=
  (Matches.refl _).bind fun text => (knows.buffer config compressor text).bind fun _ => .refl _

end Extends

/-- An accepted text may list one asset more than another one, under a new reference that none of
the other assets has as its blueprint. Then every source that compiles against the catalog of
the shorter text compiles to the same against that of the longer one, and every source that
fails for another reason than that the new reference is unresolved fails with the same error. -/
theorem read_unrelated {first second reference : String} {assets : SourceAssets}
    {added : SourceAsset} {catalog other : Catalog} (listed : readAssets first = .ok assets)
    (new : assets.get? reference = none)
    (unused : ∀ name asset, assets.get? name = some asset → asset.blueprint ≠ some reference)
    (listedToo : readAssets second = .ok (assets.insert reference added))
    (accepted : read first = .ok catalog) (acceptedToo : read second = .ok other)
    (config : Config) (compressor : Compressor) :
    (∀ text,
      (∀ buffer, (⟨config, catalog, compressor⟩ : Compiler).buffer text = .ok buffer →
        (⟨config, other, compressor⟩ : Compiler).buffer text = .ok buffer) ∧
      ∀ error, (⟨config, catalog, compressor⟩ : Compiler).buffer text = .error error →
        ¬ error.Blames reference →
          (⟨config, other, compressor⟩ : Compiler).buffer text = .error error) ∧
    ∀ source,
      (∀ artifact, (⟨config, catalog, compressor⟩ : Compiler).build source = .ok artifact →
        (⟨config, other, compressor⟩ : Compiler).build source = .ok artifact) ∧
      ∀ error, (⟨config, catalog, compressor⟩ : Compiler).build source = .error error →
        ¬ error.Blames reference →
          (⟨config, other, compressor⟩ : Compiler).build source = .error error := by
  have knows : other.Extends catalog reference :=
    extends_of_gains (SourceAssets.gains_insert new unused) (filled_of_read listed accepted)
      (filled_of_read listedToo acceptedToo)
  refine ⟨fun text => ?_, fun source => ?_⟩
  · have same := knows.buffer config compressor text
    exact ⟨fun _ => same.ok, fun _ => same.error⟩
  · have same := knows.build config compressor source
    exact ⟨fun _ => same.ok, fun _ => same.error⟩

/-- A text that lists a mesh. -/
def meshText : String := "\x7b\"Assets\":\x7b\"M\":\x7b\x7d\x7d\x7d"

/-- The mesh. -/
def meshAssets : SourceAssets := ⟨[("M", ⟨none, none, .empty⟩)], List.pairwise_singleton ..⟩

/-- A text that lists an asset as well, which has the mesh as its blueprint. -/
def derivedText : String :=
  "\x7b\"Assets\":\x7b\"M\":\x7b\x7d,\"N\":\x7b\"MaterialBlueprint\":\"M\"\x7d\x7d\x7d"

/-- A document in which the mesh is used compiles to the same when the other asset is listed. -/
theorem read_unrelated_mesh :
    let text := "\x7b\"Nodes\":[\x7b\"Items\":\x7b\"MeshSceneItem\":\x7b\"Mesh\":\"M\"\x7d\x7d\x7d]\x7d"
    ∃ catalog other buffer, read meshText = .ok catalog ∧ read derivedText = .ok other ∧
      (⟨.standard, catalog, .standard⟩ : Compiler).buffer text = .ok buffer ∧
      (⟨.standard, other, .standard⟩ : Compiler).buffer text = .ok buffer := by
  intro text
  have listed : readAssets meshText = .ok meshAssets := rfl
  have listedToo : readAssets derivedText =
      .ok (meshAssets.insert "N" ⟨none, some "M", .empty⟩) := rfl
  have unused (name : String) (asset : SourceAsset) (found : meshAssets.get? name = some asset) :
      asset.blueprint ≠ some "N" := by
    cases List.mem_singleton.mp (SortedMap.get?_eq_some_iff.mp found)
    exact nofun
  obtain ⟨other, acceptedToo⟩ := exists_of_isOk (by decide +kernel : (read derivedText).isOk)
  have compiles : (read meshText).toOption.any fun catalog =>
      ((⟨.standard, catalog, .standard⟩ : Compiler).buffer text).isOk := by decide +kernel
  cases accepted : read meshText with
  | error error =>
      rw [accepted] at compiles
      cases compiles
  | ok catalog =>
      rw [accepted] at compiles
      obtain ⟨buffer, compiled⟩ := exists_of_isOk compiles
      obtain ⟨same, -⟩ := read_unrelated listed rfl unused listedToo accepted acceptedToo
        .standard .standard
      exact ⟨catalog, other, buffer, rfl, acceptedToo, compiled, (same text).1 buffer compiled⟩

end Catalog

end SceneForge
