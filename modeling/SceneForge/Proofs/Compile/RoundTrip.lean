import SceneForge.Proofs.Compile.Phases
import SceneForge.Proofs.Compile.Written
import SceneForge.Proofs.Container
import SceneForge.Proofs.Text

/-!
# Loading compiled scenes

An artifact that is compiled from a text loads, and the scene that is loaded is the
one that the document of the text describes, down to the bits of every number.
-/

namespace SceneForge.Compiler

theorem buffer_eq_ok {compiler : Compiler} {text : String} {buffer : Bytes}
    (compiled : compiler.buffer text = .ok buffer) :
    ∃ document, Document.read text = .ok document ∧
      answer (Writing.document (compiler.catalog.context : AssetContext Unit) document) =
        .ok buffer := by
  obtain ⟨document, read, written⟩ := bind_eq_ok_iff.mp compiled
  exact ⟨document, mapError_eq_ok_iff.mp read, mapError_eq_ok_iff.mp written⟩

theorem artifact_eq_ok {compiler : Compiler} {text : String} {artifact : Bytes}
    (compiled : compiler.artifact text = .ok artifact) :
    ∃ buffer, compiler.buffer text = .ok buffer ∧ Artifact.decode artifact = .ok buffer := by
  obtain ⟨buffer, buffered, encoded⟩ := bind_eq_ok_iff.mp compiled
  exact ⟨buffer, buffered, Artifact.decode_of_encode (mapError_eq_ok_iff.mp encoded)⟩

/-- The source of a text is compiled as the text is. -/
theorem build_utf8 (compiler : Compiler) (text : String) :
    compiler.build (Text.utf8 text) = compiler.artifact text := by
  rw [build, Text.ofUtf8_utf8]
  rfl

/-- A scene buffer that fits one stored block has an artifact. -/
theorem exists_artifact {compiler : Compiler} {text : String}
    (standard : compiler.compressor = .standard)
    (fits : (compiler.buffer text).toOption.any (·.length ≤ Deflate.storedLimit)) :
    ∃ artifact, compiler.artifact text = .ok artifact := by
  cases buffered : compiler.buffer text with
  | error error =>
      rw [buffered] at fits
      cases fits
  | ok buffer =>
      rw [buffered] at fits
      obtain ⟨artifact, encoded⟩ :=
        Container.exists_compress Artifact.format Artifact.version (of_decide_eq_true fits)
      rw [← standard] at encoded
      exact ⟨artifact, bind_eq_ok_iff.mpr ⟨buffer, buffered, mapError_eq_ok_iff.mpr encoded⟩⟩

/-- So has a source that can be read and whose scene buffer fits one. -/
theorem exists_builds {compiler : Compiler} {input : Path} {files : FileSystem} {text : String}
    (standard : compiler.compressor = .standard)
    (read : files.read input = .ok (Text.utf8 text))
    (fits : (compiler.buffer text).toOption.any (·.length ≤ Deflate.storedLimit)) :
    ∃ artifact, compiler.Builds input files (Text.utf8 text) artifact := by
  obtain ⟨artifact, compiled⟩ := exists_artifact standard fits
  exact ⟨artifact, read, (compiler.build_utf8 text).trans compiled⟩

/-- Loading undoes compiling: what is compiled from a text is accepted by the loader,
which gives the one scene that the text describes, node by node and item by item. -/
theorem artifact_loads {compiler : Compiler} {text : String} {artifact : Bytes}
    (compiled : compiler.artifact text = .ok artifact) :
    ∃ document scene, Document.read text = .ok document ∧ Artifact.scene artifact = .ok scene ∧
      ∀ other, document.Describes compiler.catalog other ↔ other = scene := by
  obtain ⟨buffer, buffered, opened⟩ := artifact_eq_ok compiled
  obtain ⟨document, read, written⟩ := buffer_eq_ok buffered
  obtain ⟨scene, decoded, described⟩ := Writing.document_eq_ok written
  refine ⟨document, scene, read, bind_eq_ok_iff.mpr ⟨buffer, opened, decoded⟩, fun other => ?_⟩
  constructor
  · intro otherDescribed
    exact otherDescribed.unique described
  · rintro rfl
    exact described

/-- A document with a mesh of two parts, and with a node without items. -/
theorem artifact_loads_mesh :
    let compiler : Compiler := ⟨.standard, Catalog.empty.withAsset "a", .standard⟩
    let text := "\x7b\"Nodes\":[\x7b\"Items\":\x7b\"MeshSceneItem\":\x7b\"Mesh\":\"a\"," ++
      "\"SubMeshMaterials\":[\"\",\"a\"]\x7d\x7d\x7d,\x7b\"Properties\":\x7b\x7d\x7d]\x7d"
    ∃ artifact, compiler.artifact text = .ok artifact ∧
      ∃ document scene, Document.read text = .ok document ∧ Artifact.scene artifact = .ok scene ∧
        ∀ other, document.Describes compiler.catalog other ↔ other = scene := by
  intro compiler text
  obtain ⟨artifact, compiled⟩ : ∃ artifact, compiler.artifact text = .ok artifact :=
    exists_artifact rfl (by decide +kernel)
  exact ⟨artifact, compiled, artifact_loads compiled⟩

end SceneForge.Compiler
