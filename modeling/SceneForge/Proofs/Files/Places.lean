import Mathlib.Data.List.Induction
import SceneForge.Files.System
import SceneForge.Proofs.Results

/-!
# Places

Where a path leads is decided by its names alone, as long as it leads anywhere at all:
what stands in a file system decides only whether the names can be followed. The place
of a path is therefore defined without looking at files, and two paths whose last
names differ have different places.
-/

namespace SceneForge

namespace Path

/-- A name of a file or a directory that every file system can hold. -/
structure Plain (name : Bytes) : Prop where
  noSlash : slash ∉ name
  notBlank : isBlank name = false
  notAbove : name ≠ parentName

/-- A name longer than dots is plain as long as it has no slash. -/
theorem Plain.of_length {name : Bytes} (noSlash : slash ∉ name) (long : 2 < name.length) :
    Plain name := by
  have other {short : Bytes} (few : short.length ≤ 2) : name ≠ short := by
    intro same
    rw [same] at long
    omega
  refine ⟨noSlash, ?_, other (by decide)⟩
  have notEmpty : name ≠ [] := other (by decide)
  have notHere : name ≠ selfName := other (by decide)
  simp [isBlank, notEmpty, notHere]

theorem splitNames_of_noSlash {bytes : Bytes} (noSlash : slash ∉ bytes) :
    splitNames bytes = [bytes] := by
  induction bytes with
  | nil => rfl
  | cons byte rest ih =>
      have other : byte ≠ slash := fun same => noSlash (same ▸ List.mem_cons_self)
      have others : slash ∉ rest := fun member => noSlash (List.mem_cons_of_mem _ member)
      rw [splitNames, if_neg other, ih others]

theorem splitNames_ne_nil (bytes : Bytes) : splitNames bytes ≠ [] := by
  cases bytes with
  | nil => simp [splitNames]
  | cons byte rest =>
      rw [splitNames]
      split
      · simp
      · split <;> simp

/-- A slash separates names. -/
theorem splitNames_append_slash (front rest : Bytes) :
    splitNames (front ++ slash :: rest) = splitNames front ++ splitNames rest := by
  induction front with
  | nil => rfl
  | cons byte front ih =>
      rw [List.cons_append, splitNames, splitNames, ih]
      split
      · rfl
      · cases names : splitNames front with
        | nil => exact absurd names (splitNames_ne_nil front)
        | cons name names => rfl

/-- What is written behind a path without a slash belongs to its last name. -/
theorem exists_splitNames_append (front : Bytes) {ending : Bytes} (noSlash : slash ∉ ending) :
    ∃ before last, splitNames (front ++ ending) = before ++ [last ++ ending] := by
  induction front with
  | nil => exact ⟨[], [], by simp [splitNames_of_noSlash noSlash]⟩
  | cons byte front ih =>
      obtain ⟨before, last, names⟩ := ih
      rw [List.cons_append, splitNames, names]
      split
      · exact ⟨[] :: before, last, rfl⟩
      · cases before with
        | nil => exact ⟨[], byte :: last, rfl⟩
        | cons name before => exact ⟨(byte :: name) :: before, last, rfl⟩

theorem noSlash_of_mem_splitNames {bytes name : Bytes} (member : name ∈ splitNames bytes) :
    slash ∉ name := by
  induction bytes generalizing name with
  | nil =>
      obtain rfl := List.mem_singleton.mp member
      exact List.not_mem_nil
  | cons byte rest ih =>
      rw [splitNames] at member
      split at member
      next =>
        rcases List.mem_cons.mp member with rfl | later
        · exact List.not_mem_nil
        · exact ih later
      next other =>
        cases names : splitNames rest with
        | nil => exact absurd names (splitNames_ne_nil rest)
        | cons first names =>
            rw [names] at member ih
            rcases List.mem_cons.mp member with rfl | later
            · have first := @ih first List.mem_cons_self
              simp [first, Ne.symm other]
            · exact ih (List.mem_cons_of_mem _ later)

end Path

/-- One name further from a location on. -/
def Location.descend (location : Location) (name : Bytes) : Location :=
  if Path.isBlank name then location
  else if name = Path.parentName then location.dropLast
  else location ++ [name]

namespace Location

theorem descend_of_plain {name : Bytes} (plain : Path.Plain name) (location : Location) :
    location.descend name = location ++ [name] := by
  rw [descend, plain.notBlank, if_neg plain.notAbove]
  rfl

theorem descend_of_blank {name : Bytes} (blank : Path.isBlank name) (location : Location) :
    location.descend name = location := by
  rw [descend, if_pos blank]

end Location

namespace FileSystem

/-- Where a path leads if its names can be followed. -/
def place (files : FileSystem) (path : Path) : Location :=
  (Path.splitNames path.bytes).foldl Location.descend
    (if path.isAbsolute then [] else files.workingDirectory)

/-- Following one more name takes a directory to begin in, and a name that is not too
long. -/
theorem follow_cons_eq_ok_iff {files : FileSystem} {start location : Location} {name : Bytes}
    {rest : List Bytes} :
    files.follow start (name :: rest) = .ok location ↔
      files.requireDirectory start = .ok () ∧
        (Path.isBlank name ∨ name = Path.parentName ∨ name.length ≤ nameLimit) ∧
        files.follow (start.descend name) rest = .ok location := by
  rw [follow, bind_eq_ok_iff, Location.descend]
  constructor
  · intro followed
    obtain ⟨_, required, followed⟩ := followed
    refine ⟨required, ?_⟩
    split at followed
    next blank =>
      rw [if_pos blank]
      exact ⟨.inl blank, followed⟩
    next notBlank =>
      rw [if_neg notBlank]
      split at followed
      next above =>
        rw [if_pos above]
        exact ⟨.inr (.inl above), followed⟩
      next notAbove =>
        rw [if_neg notAbove]
        split at followed
        next => cases followed
        next short => exact ⟨.inr (.inr (Nat.le_of_not_lt short)), followed⟩
  · intro followed
    obtain ⟨required, fits, followed⟩ := followed
    refine ⟨(), required, ?_⟩
    split
    next blank => rwa [if_pos blank] at followed
    next notBlank =>
      rw [if_neg notBlank] at followed
      split
      next above => rwa [if_pos above] at followed
      next notAbove =>
        rw [if_neg notAbove] at followed
        have short : ¬ nameLimit < name.length := by
          rcases fits with blank | above | short
          · exact absurd blank notBlank
          · exact absurd above notAbove
          · omega
        rwa [if_neg short]

theorem follow_eq_ok {files : FileSystem} {start location : Location} {names : List Bytes}
    (followed : files.follow start names = .ok location) :
    location = names.foldl Location.descend start := by
  induction names generalizing start with
  | nil => exact (Except.ok.inj followed).symm
  | cons name names ih => exact ih (follow_cons_eq_ok_iff.mp followed).2.2

theorem requireDirectory_eq_ok_iff {files : FileSystem} {location : Location} :
    files.requireDirectory location = .ok () ↔ files.entry? location = some .directory := by
  rw [requireDirectory]
  cases files.entry? location with
  | none => simp
  | some entry => cases entry <;> simp

/-- Following names is following some of them and then the others. -/
theorem follow_append_eq_ok_iff {files : FileSystem} {start location : Location}
    {front rest : List Bytes} :
    files.follow start (front ++ rest) = .ok location ↔
      ∃ between, files.follow start front = .ok between ∧
        files.follow between rest = .ok location := by
  induction front generalizing start with
  | nil => simp [follow]
  | cons name front ih =>
      rw [List.cons_append, follow_cons_eq_ok_iff, ih]
      constructor
      · intro followed
        obtain ⟨required, fits, between, first, second⟩ := followed
        exact ⟨between, follow_cons_eq_ok_iff.mpr ⟨required, fits, first⟩, second⟩
      · intro followed
        obtain ⟨between, first, second⟩ := followed
        obtain ⟨required, fits, first⟩ := follow_cons_eq_ok_iff.mp first
        exact ⟨required, fits, between, first, second⟩

/-- Names that lead nowhere can be followed from a directory on. -/
theorem follow_of_blank {files : FileSystem} {start : Location} {names : List Bytes}
    (blank : ∀ name ∈ names, Path.isBlank name) (directory : files.requireDirectory start = .ok ()) :
    files.follow start names = .ok start := by
  induction names with
  | nil => rfl
  | cons name names ih =>
      have first : Path.isBlank name := blank name List.mem_cons_self
      apply follow_cons_eq_ok_iff.mpr
      rw [Location.descend_of_blank first]
      exact ⟨directory, .inl first, ih fun other member => blank other (List.mem_cons_of_mem _ member)⟩

theorem namesOf_eq_ok {files : FileSystem} {path : Path} {start : Location} {names : List Bytes}
    (named : files.namesOf path = .ok (start, names)) :
    start = (if path.isAbsolute then [] else files.workingDirectory) ∧
      names = Path.splitNames path.bytes := by
  rw [namesOf] at named
  split at named
  next => cases named
  next =>
    split at named
    next => cases named
    next =>
      split at named
      next => cases named
      next =>
        cases named
        exact ⟨rfl, rfl⟩

theorem find_eq_ok_iff {files : FileSystem} {path : Path} {location : Location} {entry : Entry} :
    files.find path = .ok (location, entry) ↔
      ∃ start names, files.namesOf path = .ok (start, names) ∧
        files.follow start names = .ok location ∧ files.entry? location = some entry := by
  constructor
  · intro found
    obtain ⟨⟨start, names⟩, named, found⟩ := bind_eq_ok_iff.mp found
    obtain ⟨other, followed, found⟩ := bind_eq_ok_iff.mp found
    refine ⟨start, names, named, ?_⟩
    cases stands : files.entry? other with
    | none =>
        rw [stands] at found
        cases found
    | some entry =>
        rw [stands] at found
        cases found
        exact ⟨followed, stands⟩
  · intro leads
    obtain ⟨start, names, named, followed, stands⟩ := leads
    apply bind_eq_ok_iff.mpr
    refine ⟨(start, names), named, bind_eq_ok_iff.mpr ⟨location, followed, ?_⟩⟩
    rw [stands]
    rfl

/-- What a path leads to stands at its place. -/
theorem find_eq_ok {files : FileSystem} {path : Path} {location : Location} {entry : Entry}
    (found : files.find path = .ok (location, entry)) :
    location = files.place path ∧ files.entry? location = some entry := by
  obtain ⟨start, names, named, followed, stands⟩ := find_eq_ok_iff.mp found
  obtain ⟨rfl, rfl⟩ := namesOf_eq_ok named
  exact ⟨follow_eq_ok followed, stands⟩

theorem isDirectory_iff {files : FileSystem} {path : Path} :
    files.isDirectory path ↔ ∃ location, files.find path = .ok (location, .directory) := by
  rw [isDirectory]
  split
  next location found => simp [found]
  next other =>
    constructor
    · exact nofun
    · intro found
      obtain ⟨location, found⟩ := found
      exact absurd found (other location)

theorem foldl_descend_of_blank {names : List Bytes} (blank : ∀ name ∈ names, Path.isBlank name)
    (start : Location) : names.foldl Location.descend start = start := by
  induction names with
  | nil => rfl
  | cons name names ih =>
      rw [List.foldl_cons, Location.descend_of_blank (blank name List.mem_cons_self)]
      exact ih fun other member => blank other (List.mem_cons_of_mem _ member)

/-- Names up to the last one that counts, and those behind it. -/
theorem names_eq_of_dropWhile {skip : Bytes → Bool} {names before : List Bytes} {last : Bytes}
    (ending : names.reverse.dropWhile skip = last :: before) :
    ∃ skipped, names = before.reverse ++ [last] ++ skipped ∧ (∀ name ∈ skipped, skip name) ∧
      skip last = false := by
  have whole := List.takeWhile_append_dropWhile (p := skip) (l := names.reverse)
  rw [ending] at whole
  refine ⟨(names.reverse.takeWhile skip).reverse, ?_, ?_, ?_⟩
  · have reversed := congrArg List.reverse whole
    simp only [List.reverse_append, List.reverse_reverse, List.reverse_cons] at reversed
    exact reversed.symm
  · intro name member
    exact List.all_eq_true.mp List.all_takeWhile name (List.mem_reverse.mp member)
  · have nonempty : names.reverse.dropWhile skip ≠ [] := by simp [ending]
    have first := List.head_dropWhile_not skip nonempty
    simpa [ending] using first

/-- A path that is about to be changed has a last name, behind which there are slashes at
most, and the names before it lead to a directory. -/
theorem exists_of_locate_eq_ok {files : FileSystem} {path : Path} {directory : Bool}
    {location : Location} (located : files.locate path directory = .ok location) :
    ∃ start before last skipped parent,
      files.namesOf path = .ok (start, before ++ [last] ++ skipped) ∧
        (∀ name ∈ skipped, name = []) ∧ Path.isBlank last = false ∧ last ≠ Path.parentName ∧
        last.length ≤ nameLimit ∧ files.follow start before = .ok parent ∧
        files.requireDirectory parent = .ok () ∧ location = parent ++ [last] := by
  obtain ⟨⟨start, names⟩, named, located⟩ := bind_eq_ok_iff.mp located
  dsimp only at located
  split at located
  next => cases located
  next last before ending =>
    obtain ⟨parent, followed, located⟩ := bind_eq_ok_iff.mp located
    obtain ⟨_, required, located⟩ := bind_eq_ok_iff.mp located
    obtain ⟨skipped, names, slashes, notEmpty⟩ := names_eq_of_dropWhile ending
    have notEmpty : last ≠ [] := by simpa using notEmpty
    split at located
    next => cases located
    next notDots =>
      rw [not_or] at notDots
      split at located
      next => cases located
      next short =>
        split at located
        next => cases located
        next =>
          refine ⟨start, before.reverse, last, skipped, parent, names ▸ named, ?_, ?_, notDots.2,
            Nat.le_of_not_lt short, followed, required, (Except.ok.inj located).symm⟩
          · intro name member
            exact eq_of_beq (slashes name member)
          · simp [Path.isBlank, notEmpty, notDots.1]

theorem isBlank_of_eq_empty {names : List Bytes} (empty : ∀ name ∈ names, name = []) :
    ∀ name ∈ names, Path.isBlank name := by
  intro name member
  rw [empty name member]
  rfl

/-- A path that is about to be changed names its place. -/
theorem locate_eq_ok {files : FileSystem} {path : Path} {directory : Bool} {location : Location}
    (located : files.locate path directory = .ok location) : location = files.place path := by
  obtain ⟨start, before, last, skipped, parent, named, slashes, notBlank, notAbove, -, followed, -,
    rfl⟩ := exists_of_locate_eq_ok located
  obtain ⟨start, names⟩ := namesOf_eq_ok named
  rw [place, ← start, ← names, List.foldl_append, List.foldl_append, ← follow_eq_ok followed,
    foldl_descend_of_blank (isBlank_of_eq_empty slashes), List.foldl_cons, List.foldl_nil,
    Location.descend, notBlank, if_neg notAbove]
  rfl

end FileSystem

end SceneForge
