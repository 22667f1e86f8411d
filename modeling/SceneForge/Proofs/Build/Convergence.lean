import SceneForge.Proofs.Build.Gate
import SceneForge.Proofs.Build.Persistence

/-!
# Convergence

What the gate reports of inputs is what it accepts of them later. So a decision that has
been recorded makes its artifact up to date for as long as the inputs can be read as they
were then, whatever is recorded of other artifacts.
-/

namespace SceneForge

open Program

namespace Cache

variable {request : BuildRequest} {files later : FileSystem} {paths : List Path}
  {current others : List CurrentInput}

/-- Files that read the same are shown the same. -/
theorem Shows.eq_of_read_eq {path : Path} {input other : CurrentInput}
    (shown : Shows files path input) (shownLater : Shows later path other)
    (same : later.read path = files.read path) : other = input := by
  have fingerprints : other.fingerprint = input.fingerprint := by
    rcases shown.2 with ⟨missing, unknown⟩ | ⟨content, found, known⟩
    · rcases shownLater.2 with ⟨-, unknownLater⟩ | ⟨content, found, -⟩
      · rw [unknown, unknownLater]
      · rw [same, missing] at found
        cases found
    · rw [shownLater.eq_of_read (same.trans found), known]
  cases input
  cases other
  rw [CurrentInput.mk.injEq]
  exact ⟨shownLater.1.trans shown.1.symm, fingerprints⟩

theorem eq_of_shows (shown : List.Forall₂ (Shows files) paths current)
    (shownLater : List.Forall₂ (Shows later) paths others)
    (same : ∀ path ∈ paths, later.read path = files.read path) : others = current := by
  induction shown generalizing others with
  | nil => exact List.forall₂_nil_left_iff.mp shownLater
  | cons first _ ih =>
      obtain ⟨other, rest, firstLater, restLater, rfl⟩ := List.forall₂_cons_left_iff.mp shownLater
      obtain rfl := first.eq_of_read_eq firstLater (same _ List.mem_cons_self)
      rw [ih restLater fun path member => same path (List.mem_cons_of_mem _ member)]

theorem isSome_of_shows (shown : List.Forall₂ (Shows files) paths current)
    (readable : ∀ path ∈ paths, ∃ content, files.read path = .ok content) :
    ∀ input ∈ current, input.fingerprint.isSome := by
  intro input member
  obtain ⟨path, pathMember, shows⟩ := exists_of_forall₂ shown.flip member
  obtain ⟨content, found⟩ := readable path pathMember
  rw [Shows.eq_of_read shows found]
  rfl

/-- What is recorded of inputs that are present agrees with them. -/
theorem agrees_recorded? (nonempty : current ≠ [])
    (present : ∀ input ∈ current, input.fingerprint.isSome) :
    Verdict.Agrees request.version request.target (current.filterMap (recorded? request)) current
      true := by
  have recorded {input : CurrentInput} (member : input ∈ current) :
      ∃ fingerprint, input.fingerprint = some fingerprint ∧
        recorded? request input = some ⟨request.target, input.path, fingerprint, request.version⟩ := by
    obtain ⟨fingerprint, known⟩ := Option.isSome_iff_exists.mp (present input member)
    exact ⟨fingerprint, known, by rw [recorded?, known]; rfl⟩
  have entries {entry : RecordedInput} (member : entry ∈ current.filterMap (recorded? request)) :
      entry.version = request.version ∧ entry.target = request.target := by
    obtain ⟨input, inputMember, same⟩ := List.mem_filterMap.mp member
    obtain ⟨fingerprint, -, isRecorded⟩ := recorded inputMember
    rw [isRecorded] at same
    cases same
    exact ⟨rfl, rfl⟩
  have paths : (current.filterMap (recorded? request)).map (·.path) = current.map (·.path) := by
    rw [List.map_filterMap, ← List.filterMap_eq_map]
    apply List.filterMap_congr
    intro input member
    obtain ⟨fingerprint, -, isRecorded⟩ := recorded member
    rw [isRecorded]
    rfl
  constructor
  · intro nothing
    rw [nothing] at paths
    exact nonempty (List.map_eq_nil_iff.mp paths.symm)
  · exact fun entry member => (entries member).1
  · exact fun entry member => (entries member).2
  · rfl
  · exact present
  · rw [paths]
  · intro input member
    obtain ⟨fingerprint, known, isRecorded⟩ := recorded member
    exact ⟨_, List.mem_filterMap.mpr ⟨input, member, isRecorded⟩, rfl, known.symm⟩

/-- An artifact whose inputs have been recorded as the gate found them is up to date as long as
they read the same and it is there. -/
theorem upToDate_of_recorded {cache again : Cache} {decision : BuildDecision}
    (evaluates : cache.Evaluates request files decision) (nonempty : request.inputs ≠ [])
    (readable : ∀ path ∈ request.inputs, ∃ content, files.read path = .ok content)
    (recorded : again.inputs? request.key = some decision.inputs)
    (same : ∀ path ∈ request.inputs, later.read path = files.read path)
    (stands : later.pathExists request.output) :
    ∃ verdict, (again.evaluate request).run later = (.ok verdict, later) ∧
      verdict.verdict = .upToDate := by
  have readableLater : ∀ path ∈ request.inputs, ∃ content, later.read path = .ok content := by
    intro path member
    rw [same path member]
    exact readable path member
  obtain ⟨verdict, evaluated⟩ := @exists_evaluate again request later readableLater
  have evaluation := (again.leaves_evaluate request later).holds
  refine ⟨verdict, Prod.ext evaluated evaluation.1, ?_⟩
  obtain ⟨current, shown, -, inputs⟩ := evaluates
  obtain ⟨others, shownLater, judged, -⟩ := evaluation.2 verdict evaluated
  obtain rfl := eq_of_shows shown shownLater same
  rw [judged, recorded, Option.getD_some, inputs, stands, Verdict.judge_eq_upToDate_iff]
  refine agrees_recorded? ?_ (isSome_of_shows shown readable)
  rintro rfl
  exact nonempty (List.forall₂_nil_right_iff.mp shown)

end Cache

end SceneForge
