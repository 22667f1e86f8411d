import SceneForge.Proofs.Compile.Phases

/-!
# Where artifacts go

The artifacts of a compiler stand side by side in its output directory. Inputs whose
artifacts stand at one place, or have one key, have the same artifact.
-/

namespace SceneForge

namespace Path

theorem portable_ofText (text : String) : (Path.ofText text).portable =
    String.ofList (text.toList.map fun c => if c = '\\' then '/' else c) := by
  rw [portable, Path.text, ofText, Text.lossy_utf8]

/-- Without slashes, a text is known from how it is written with slashes only. -/
theorem eq_of_portable {first second : String} (firstPlain : '/' ∉ first.toList)
    (secondPlain : '/' ∉ second.toList)
    (same : (Path.ofText first).portable = (Path.ofText second).portable) : first = second := by
  let restore (c : Char) : Char := if c = '/' then '\\' else c
  have restored {text : List Char} (plain : '/' ∉ text) :
      (text.map fun c => if c = '\\' then '/' else c).map restore = text := by
    rw [List.map_map]
    conv_rhs => rw [← List.map_id text]
    apply List.map_congr_left
    intro c member
    have noSlash : c ≠ '/' := fun slash => plain (slash ▸ member)
    by_cases backslash : c = '\\' <;> simp [restore, backslash, noSlash]
  have chars := congrArg String.toList same
  rw [portable_ofText, portable_ofText, String.toList_ofList, String.toList_ofList] at chars
  apply String.toList_inj.mp
  rw [← restored firstPlain, chars, restored secondPlain]

/-- What a name in a directory is recorded as ends in what the name alone is. -/
theorem exists_portable_join (directory : Path) :
    ∃ front, ∀ {name : String}, Plain (Text.utf8 name) →
      (directory.join (.ofText name)).portable = front ++ (Path.ofText name).portable := by
  rcases directory.join_plain with ⟨-, joined⟩ | ⟨front, -, -, joined⟩
  · exact ⟨"", fun plain => by rw [ofText, joined plain, String.empty_append]⟩
  · refine ⟨(⟨front⟩ : Path).portable ++ "/", fun {name} plain => ?_⟩
    have cut := Text.toList_lossy_append (by decide : slash.toNat < 0x80) front (Text.utf8 name)
    apply String.toList_inj.mp
    rw [portable_ofText, portable, Path.text, ofText, joined plain, cut, Text.lossy_utf8]
    simp [portable, Path.text, slash]

end Path

namespace Compiler

variable {compiler : Compiler} {first second : Path}

/-- Artifacts that stand at the same place have the same path. -/
theorem outputPath_eq_of_place {files : FileSystem}
    (same : files.place (compiler.outputPath first) = files.place (compiler.outputPath second)) :
    compiler.outputPath first = compiler.outputPath second := by
  rw [place_outputPath, place_outputPath] at same
  rw [outputPath, outputPath, List.singleton_inj.mp (List.append_inj' same rfl).2]

/-- Artifacts that are recorded alike in a directory have the same name. -/
theorem artifactName_eq_of_portable {directory : Path}
    (same : (directory.join ⟨artifactName first⟩).portable =
      (directory.join ⟨artifactName second⟩).portable) : artifactName first = artifactName second := by
  obtain ⟨front, ends⟩ := directory.exists_portable_join
  have noSlash (input : Path) :
      '/' ∉ ((input.stem?.map Text.lossy).getD "scene" ++ ".scene").toList := by
    rw [String.toList_append, List.mem_append, not_or]
    exact ⟨slash_notMem_stem input, by decide⟩
  have alike := (ends (plain_artifactName first)).symm.trans
    (same.trans (ends (plain_artifactName second)))
  exact congrArg Text.utf8 (Path.eq_of_portable (noSlash first) (noSlash second)
    ((String.append_right_inj front).mp alike))

/-- Artifacts that have the same key have the same path. -/
theorem outputPath_eq_of_key (same : (compiler.request first).key = (compiler.request second).key) :
    compiler.outputPath first = compiler.outputPath second := by
  rw [outputPath, outputPath, artifactName_eq_of_portable (congrArg ArtifactKey.text same)]

end Compiler

end SceneForge
