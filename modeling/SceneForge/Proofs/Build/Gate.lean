import Mathlib.Data.List.Nodup
import Mathlib.Data.List.Perm.Subperm
import SceneForge.Build.Gate

/-!
# What the gate lets through, and why not

Every reason to build an artifact again has a meaning of its own (`RebuildReason.Holds`).
The gate gives a reason that holds, and one that comes first among those that hold, so the
order of records and inputs can only decide which of several of one kind is named.

An artifact is up to date exactly if no reason holds: it was built for the same target and
format, it is there, and its inputs are those that were recorded, each with a recorded
content. Where no path is recorded twice, this says that the inputs are a permutation of the
recorded ones.
-/

namespace SceneForge

/-- An input as it was when it was recorded. -/
def RecordedInput.asCurrent (entry : RecordedInput) : CurrentInput :=
  ⟨entry.path, some entry.fingerprint⟩

namespace RebuildReason

/-- Whether a reason is true of an artifact's record and of its inputs. -/
def Holds (version : UInt32) (target : String) (recorded : List RecordedInput)
    (current : List CurrentInput) (outputExists : Bool) : RebuildReason → Prop
  | noRecord => recorded = []
  | versionChanged old new =>
      (∃ entry ∈ recorded, entry.version = old) ∧ new = version ∧ old ≠ new
  | targetChanged old new => (∃ entry ∈ recorded, entry.target = old) ∧ new = target ∧ old ≠ new
  | outputMissing => outputExists = false
  | inputMissing path => ⟨path, none⟩ ∈ current
  | inputsChanged => ¬(recorded.map (·.path)).Perm (current.map (·.path))
  | inputModified path =>
      (∃ entry ∈ recorded, entry.path = path) ∧
        ∃ fingerprint, ⟨path, some fingerprint⟩ ∈ current ∧
          ∀ entry ∈ recorded, entry.path = path → entry.fingerprint ≠ fingerprint

/-- The place of a reason in the order in which the gate looks for them. -/
def rank : RebuildReason → Nat
  | noRecord => 0
  | versionChanged _ _ => 1
  | targetChanged _ _ => 2
  | outputMissing => 3
  | inputMissing _ => 4
  | inputsChanged => 5
  | inputModified _ => 6

variable {version : UInt32} {target : String} {recorded recorded' : List RecordedInput}
  {current current' : List CurrentInput} {outputExists : Bool}

/-- No reason comes after the last one. -/
theorem rank_lt (reason : RebuildReason) : reason.rank < 7 := by
  cases reason <;> simp [rank]

/-- What a reason says does not depend on an order. -/
theorem holds_iff_of_perm (sameRecord : recorded'.Perm recorded) (sameInputs : current'.Perm current)
    (reason : RebuildReason) :
    Holds version target recorded' current' outputExists reason ↔
      Holds version target recorded current outputExists reason := by
  have samePaths : (recorded'.map (·.path)).Perm (current'.map (·.path)) ↔
      (recorded.map (·.path)).Perm (current.map (·.path)) :=
    ⟨fun same => (sameRecord.map _).symm.trans (same.trans (sameInputs.map _)),
      fun same => (sameRecord.map _).trans (same.trans (sameInputs.map _).symm)⟩
  cases reason with
  | noRecord =>
      simp only [Holds]
      exact ⟨fun none => (none ▸ sameRecord).nil_eq.symm, fun none => (none ▸ sameRecord).eq_nil⟩
  | inputsChanged => exact not_congr samePaths
  | _ => simp only [Holds, sameRecord.mem_iff, sameInputs.mem_iff]

/-- Whether no reason holds that the gate looks for before a place. -/
def Cleared (version : UInt32) (target : String) (recorded : List RecordedInput)
    (current : List CurrentInput) (outputExists : Bool) (place : Nat) : Prop :=
  ∀ reason, Holds version target recorded current outputExists reason → place ≤ reason.rank

theorem cleared_zero : Cleared version target recorded current outputExists 0 :=
  fun _ _ => Nat.zero_le _

theorem Cleared.next {place : Nat}
    (cleared : Cleared version target recorded current outputExists place)
    (refuted : ∀ reason, reason.rank = place →
      ¬Holds version target recorded current outputExists reason) :
    Cleared version target recorded current outputExists (place + 1) := by
  intro reason holds
  have before := cleared reason holds
  have other : reason.rank ≠ place := fun same => refuted reason same holds
  omega

end RebuildReason

namespace Verdict

open RebuildReason (Holds Cleared)

variable {version : UInt32} {target : String} {recorded : List RecordedInput}
  {current : List CurrentInput} {outputExists : Bool}

/-- Whether a verdict is true: a reason that it gives holds and comes first among those that
hold, and without a reason none holds. -/
def Justified (version : UInt32) (target : String) (recorded : List RecordedInput)
    (current : List CurrentInput) (outputExists : Bool) : Verdict → Prop
  | upToDate => ∀ reason, ¬Holds version target recorded current outputExists reason
  | rebuild reason => Holds version target recorded current outputExists reason ∧
      Cleared version target recorded current outputExists reason.rank

theorem unchanged_iff {input : CurrentInput} :
    unchanged recorded input ↔ ∃ entry ∈ recorded,
      entry.path = input.path ∧ some entry.fingerprint = input.fingerprint := by
  simp [unchanged]

/-- Where the paths are those that were recorded, an input that is there and is not as it was
recorded has been modified. -/
theorem holds_inputModified {input : CurrentInput}
    (paths : (recorded.map (·.path)).Perm (current.map (·.path))) (member : input ∈ current)
    (present : input.fingerprint.isSome) (changed : ¬unchanged recorded input) :
    Holds version target recorded current outputExists (.inputModified input.path) := by
  obtain ⟨path, fingerprint⟩ := input
  obtain ⟨fingerprint, rfl⟩ := Option.isSome_iff_exists.mp present
  have isRecorded : path ∈ recorded.map (·.path) :=
    paths.mem_iff.mpr (List.mem_map_of_mem member)
  refine ⟨List.mem_map.mp isRecorded, fingerprint, member, fun entry inRecord samePath same => ?_⟩
  exact changed (unchanged_iff.mpr ⟨entry, inRecord, samePath, congrArg some same⟩)

theorem eq_false_of_find? {α : Type} {condition : α → Bool} {list : List α}
    (nothing : ∀ element, list.find? condition = some element → False) {element : α}
    (member : element ∈ list) : condition element = false := by
  have notFound : list.find? condition = none := Option.eq_none_iff_forall_ne_some.mpr nothing
  simpa using List.find?_eq_none.mp notFound element member

/-- The verdict of the gate is true. -/
theorem judge_justified :
    Justified version target recorded current outputExists
      (judge version target recorded current outputExists) := by
  -- Each check that finds nothing rules out the reasons of one more place.
  have cleared : Cleared version target recorded current outputExists 0 :=
    RebuildReason.cleared_zero
  rw [judge]
  split
  next isRecorded => exact ⟨by simpa [Holds] using isRecorded, cleared⟩
  next isRecorded =>
  replace cleared := cleared.next fun
    | .noRecord, _, holds => isRecorded (by simpa [Holds] using holds)
  split
  next entry found =>
    have member := List.mem_of_find?_eq_some found
    have changed := List.find?_some found
    exact ⟨⟨⟨entry, member, rfl⟩, rfl, by simpa using changed⟩, cleared⟩
  next sameVersion =>
  replace cleared := cleared.next fun
    | .versionChanged _ _, _, ⟨⟨entry, member, old⟩, new, changed⟩ => by
        have same : entry.version = version := by simpa using eq_false_of_find? sameVersion member
        exact changed (old.symm.trans (same.trans new.symm))
  split
  next entry found =>
    have member := List.mem_of_find?_eq_some found
    have changed := List.find?_some found
    exact ⟨⟨⟨entry, member, rfl⟩, rfl, by simpa using changed⟩, cleared⟩
  next sameTarget =>
  replace cleared := cleared.next fun
    | .targetChanged _ _, _, ⟨⟨entry, member, old⟩, new, changed⟩ => by
        have same : entry.target = target := by simpa using eq_false_of_find? sameTarget member
        exact changed (old.symm.trans (same.trans new.symm))
  split
  next missing => exact ⟨by simpa [Holds] using missing, cleared⟩
  next stands =>
  replace cleared := cleared.next fun
    | .outputMissing, _, holds => stands (by simpa [Holds] using holds)
  split
  next input found =>
    have member := List.mem_of_find?_eq_some found
    have missing := List.find?_some found
    obtain ⟨path, fingerprint⟩ := input
    obtain rfl : fingerprint = none := by simpa using missing
    exact ⟨member, cleared⟩
  next present =>
  replace cleared := cleared.next fun
    | .inputMissing _, _, member => by
        simpa using eq_false_of_find? present member
  split
  next changed =>
    refine ⟨fun paths => ?_, cleared⟩
    rw [List.isPerm_iff.mpr paths] at changed
    cases changed
  next samePaths =>
  have paths : (recorded.map (·.path)).Perm (current.map (·.path)) :=
    List.isPerm_iff.mp (by simpa using samePaths)
  replace cleared := cleared.next fun
    | .inputsChanged, _, holds => holds paths
  split
  next input found =>
    have member := List.mem_of_find?_eq_some found
    have changed : ¬unchanged recorded input := by simpa using List.find?_some found
    have there : input.fingerprint.isSome := by simpa using eq_false_of_find? present member
    exact ⟨holds_inputModified paths member there changed, cleared⟩
  next same =>
  replace cleared := cleared.next fun
    | .inputModified path, _, ⟨_, fingerprint, member, changed⟩ => by
        have asRecorded := eq_false_of_find? same member
        obtain ⟨entry, inRecord, samePath, isSame⟩ := unchanged_iff.mp (by simpa using asRecorded)
        exact changed entry inRecord samePath (Option.some.inj isSame)
  intro reason holds
  have later := cleared reason holds
  have bound := reason.rank_lt
  omega

/-- What has to hold of an artifact's record and of its inputs for it to be up to date. -/
structure Agrees (version : UInt32) (target : String) (recorded : List RecordedInput)
    (current : List CurrentInput) (outputExists : Bool) : Prop where
  isRecorded : recorded ≠ []
  version_eq : ∀ entry ∈ recorded, entry.version = version
  target_eq : ∀ entry ∈ recorded, entry.target = target
  outputExists : outputExists = true
  isPresent : ∀ input ∈ current, input.fingerprint.isSome
  paths_perm : (recorded.map (·.path)).Perm (current.map (·.path))
  unchanged : ∀ input ∈ current, ∃ entry ∈ recorded,
    entry.path = input.path ∧ some entry.fingerprint = input.fingerprint

/-- Record and inputs agree as far as no reason holds. -/
theorem Agrees.not_holds (agrees : Agrees version target recorded current outputExists)
    (reason : RebuildReason) : ¬Holds version target recorded current outputExists reason := by
  intro holds
  cases reason with
  | noRecord => exact agrees.isRecorded holds
  | versionChanged old new =>
      obtain ⟨⟨entry, member, rfl⟩, rfl, changed⟩ := holds
      exact changed (agrees.version_eq entry member)
  | targetChanged old new =>
      obtain ⟨⟨entry, member, rfl⟩, rfl, changed⟩ := holds
      exact changed (agrees.target_eq entry member)
  | outputMissing => cases agrees.outputExists.symm.trans holds
  | inputMissing path => cases agrees.isPresent _ holds
  | inputsChanged => exact holds agrees.paths_perm
  | inputModified path =>
      obtain ⟨-, fingerprint, member, changed⟩ := holds
      obtain ⟨entry, inRecord, samePath, same⟩ := agrees.unchanged _ member
      exact changed entry inRecord samePath (Option.some.inj same)

theorem agrees_of_not_holds
    (nothing : ∀ reason, ¬Holds version target recorded current outputExists reason) :
    Agrees version target recorded current outputExists := by
  have paths : (recorded.map (·.path)).Perm (current.map (·.path)) :=
    Decidable.not_not.mp (nothing .inputsChanged)
  have present : ∀ input ∈ current, input.fingerprint.isSome := by
    rintro ⟨path, fingerprint⟩ member
    cases fingerprint with
    | none => cases nothing (.inputMissing path) member
    | some fingerprint => rfl
  refine ⟨nothing .noRecord, fun entry member => ?_, fun entry member => ?_,
    by simpa [Holds] using nothing .outputMissing, present, paths, ?_⟩
  · by_contra changed
    exact nothing (.versionChanged entry.version version) ⟨⟨entry, member, rfl⟩, rfl, changed⟩
  · by_contra changed
    exact nothing (.targetChanged entry.target target) ⟨⟨entry, member, rfl⟩, rfl, changed⟩
  · intro input member
    by_contra changed
    exact nothing (.inputModified input.path)
      (holds_inputModified paths member (present input member) (mt unchanged_iff.mp changed))

/-- The gate says that an artifact is up to date exactly if its record and inputs agree. -/
theorem judge_eq_upToDate_iff :
    judge version target recorded current outputExists = .upToDate ↔
      Agrees version target recorded current outputExists := by
  have justified := @judge_justified version target recorded current outputExists
  constructor
  · intro judged
    rw [judged] at justified
    exact agrees_of_not_holds justified
  · intro agrees
    cases judged : judge version target recorded current outputExists with
    | upToDate => rfl
    | rebuild reason =>
        rw [judged] at justified
        exact absurd justified.1 (agrees.not_holds reason)

/-- Inputs are a permutation of recorded ones, none of which has the path of another, exactly
if they have the same paths and each has been recorded as it is. -/
theorem perm_asCurrent_iff (distinct : (recorded.map (·.path)).Nodup) :
    current.Perm (recorded.map RecordedInput.asCurrent) ↔
      (recorded.map (·.path)).Perm (current.map (·.path)) ∧
        ∀ input ∈ current, ∃ entry ∈ recorded, entry.asCurrent = input := by
  have paths : (recorded.map RecordedInput.asCurrent).map (·.path) = recorded.map (·.path) :=
    List.map_map
  constructor
  · intro same
    refine ⟨?_, fun input member => List.mem_map.mp (same.subset member)⟩
    rw [← paths]
    exact (same.map _).symm
  · rintro ⟨samePaths, each⟩
    have single : current.Nodup := (samePaths.nodup_iff.mp distinct).of_map
    have subset : current ⊆ recorded.map RecordedInput.asCurrent :=
      fun input member => List.mem_map.mpr (each input member)
    have length : recorded.length = current.length := by simpa using samePaths.length_eq
    refine (List.subperm_of_subset single subset).perm_of_length_le ?_
    rw [List.length_map]
    exact Nat.le_of_eq length

/-- With distinct recorded paths the order of records and inputs does not matter. -/
theorem agrees_iff_perm (distinct : (recorded.map (·.path)).Nodup) :
    Agrees version target recorded current outputExists ↔
      recorded ≠ [] ∧ (∀ entry ∈ recorded, entry.version = version ∧ entry.target = target) ∧
        outputExists = true ∧ current.Perm (recorded.map RecordedInput.asCurrent) := by
  rw [perm_asCurrent_iff distinct]
  constructor
  · intro agrees
    refine ⟨agrees.isRecorded,
      fun entry member => ⟨agrees.version_eq entry member, agrees.target_eq entry member⟩,
      agrees.outputExists, agrees.paths_perm, fun input member => ?_⟩
    obtain ⟨entry, isRecorded, path, fingerprint⟩ := agrees.unchanged input member
    refine ⟨entry, isRecorded, ?_⟩
    rw [RecordedInput.asCurrent, path, fingerprint]
  · rintro ⟨isRecorded, made, stands, paths, each⟩
    refine ⟨isRecorded, fun entry member => (made entry member).1,
      fun entry member => (made entry member).2, stands, fun input member => ?_, paths,
      fun input member => ?_⟩
    · obtain ⟨entry, -, rfl⟩ := each input member
      rfl
    · obtain ⟨entry, isRecorded, rfl⟩ := each input member
      exact ⟨entry, isRecorded, rfl, rfl⟩

/-- Whether two verdicts give no reason, or reasons of the same kind. -/
def SameKind : Verdict → Verdict → Prop
  | upToDate, upToDate => True
  | rebuild reason, rebuild other => reason.rank = other.rank
  | _, _ => False

/-- Verdicts that are true of the same reasons are of the same kind. -/
theorem sameKind_of_justified {recorded' : List RecordedInput} {current' : List CurrentInput}
    {verdict other : Verdict}
    (same : ∀ reason, Holds version target recorded' current' outputExists reason ↔
      Holds version target recorded current outputExists reason)
    (justified : verdict.Justified version target recorded current outputExists)
    (otherJustified : other.Justified version target recorded' current' outputExists) :
    other.SameKind verdict := by
  cases verdict with
  | upToDate =>
      cases other with
      | upToDate => trivial
      | rebuild reason => exact justified reason ((same reason).mp otherJustified.1)
  | rebuild reason =>
      cases other with
      | upToDate => exact otherJustified reason ((same reason).mpr justified.1)
      | rebuild other =>
          exact Nat.le_antisymm (otherJustified.2 reason ((same reason).mpr justified.1))
            (justified.2 other ((same other).mp otherJustified.1))

/-- An artifact is up to date exactly if there is a record of it that is not empty, each entry
has the version and the target, the artifact is there, and the inputs are a permutation of the
recorded ones, so that none is missing. The order of records and inputs decides neither this
nor of what kind a reason is. A reason that is given holds, and none holds that comes before. -/
theorem judge_truthful (version : UInt32) (target : String) (record : Option (List RecordedInput))
    (current : List CurrentInput) (outputExists : Bool)
    (distinct : ((record.getD []).map (·.path)).Nodup) :
    (judge version target (record.getD []) current outputExists = .upToDate ↔
      ∃ recorded, record = some recorded ∧ recorded ≠ [] ∧
        (∀ entry ∈ recorded, entry.version = version ∧ entry.target = target) ∧
        outputExists = true ∧ current.Perm (recorded.map RecordedInput.asCurrent)) ∧
    (∀ recorded' current', recorded'.Perm (record.getD []) → current'.Perm current →
      (judge version target recorded' current' outputExists).SameKind
        (judge version target (record.getD []) current outputExists)) ∧
    ∀ reason, judge version target (record.getD []) current outputExists = .rebuild reason →
      reason.Holds version target (record.getD []) current outputExists ∧
        ∀ other, Holds version target (record.getD []) current outputExists other →
          reason.rank ≤ other.rank := by
  refine ⟨?_, fun recorded' current' sameRecord sameInputs => ?_, fun reason judged => ?_⟩
  · rw [judge_eq_upToDate_iff, agrees_iff_perm distinct]
    cases record <;> simp
  · exact sameKind_of_justified
      (RebuildReason.holds_iff_of_perm sameRecord sameInputs) judge_justified judge_justified
  · have justified := @judge_justified version target (record.getD []) current outputExists
    rwa [judged] at justified

/-- A source and a catalog: in either order they are what was recorded, until one changes. -/
theorem judge_truthful_swapped :
    let source : RecordedInput := ⟨"Vulkan", "a.json", .ofContent [1], 1⟩
    let catalog : RecordedInput := ⟨"Vulkan", "catalog.json", .ofContent [2], 1⟩
    ([source, catalog].map (·.path)).Nodup ∧
      judge 1 "Vulkan" [source, catalog] [catalog.asCurrent, source.asCurrent] true = .upToDate ∧
      RebuildReason.Holds 1 "Vulkan" [source, catalog]
        [catalog.asCurrent, ⟨"a.json", some (.ofContent [2])⟩] true (.inputModified "a.json") := by
  intro source catalog
  have distinct : ([source, catalog].map (·.path)).Nodup := by decide
  have truthful := judge_truthful 1 "Vulkan" (some [source, catalog])
  refine ⟨distinct, ?_, ?_⟩
  · refine (truthful [catalog.asCurrent, source.asCurrent] true distinct).1.mpr
      ⟨[source, catalog], rfl, by simp, ?_, rfl, .swap _ _ []⟩
    simp [source, catalog]
  · refine ((truthful [catalog.asCurrent, ⟨"a.json", some (.ofContent [2])⟩] true distinct).2.2
      (.inputModified "a.json") ?_).1
    decide +kernel

end Verdict

end SceneForge
