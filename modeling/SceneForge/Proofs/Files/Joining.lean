import SceneForge.Proofs.Files.Places
import SceneForge.Proofs.Text.Lossy

/-!
# Paths in directories

A plain name in a directory is the last name of its place, and its parent does not
depend on it. Temporary files are named beside the files that they are for, under names
of their own.
-/

namespace SceneForge

namespace Path

variable {name : Bytes}

theorem Plain.isAbsolute_eq (plain : Plain name) : (⟨name⟩ : Path).isAbsolute = false := by
  cases name with
  | nil => rfl
  | cons byte rest =>
      have other : byte ≠ slash := by
        intro same
        exact plain.noSlash (same ▸ List.mem_cons_self)
      simp [isAbsolute, other]

theorem Plain.splitNames_eq (plain : Plain name) : splitNames name = [name] :=
  splitNames_of_noSlash plain.noSlash

/-- A name in a directory stands alone, or behind a slash, which the directory may end in
already. -/
theorem join_plain (directory : Path) :
    (directory.bytes = [] ∧ ∀ {name : Bytes}, Plain name → directory.join ⟨name⟩ = ⟨name⟩) ∨
      ∃ front, (directory.bytes = front ∨ directory.bytes = front ++ [slash]) ∧
        directory.bytes ≠ [] ∧ ∀ {name : Bytes}, Plain name →
          (directory.join ⟨name⟩).bytes = front ++ slash :: name := by
  by_cases empty : directory.bytes = []
  · refine .inl ⟨empty, fun plain => ?_⟩
    rw [join, plain.isAbsolute_eq, if_pos (by simp [empty])]
  · have joins {name : Bytes} (plain : Plain name) : directory.join ⟨name⟩ =
        if directory.bytes.getLast? == some slash then ⟨directory.bytes ++ name⟩
        else ⟨directory.bytes ++ slash :: name⟩ := by
      rw [join, plain.isAbsolute_eq, Bool.false_or, if_neg (by simpa using empty)]
    by_cases ends : directory.bytes.getLast? = some slash
    · obtain ⟨front, ending⟩ := List.getLast?_eq_some_iff.mp ends
      refine .inr ⟨front, .inr ending, empty, fun plain => ?_⟩
      rw [joins plain, if_pos (by simp [ends]), ending, List.append_assoc]
      rfl
    · refine .inr ⟨directory.bytes, .inl rfl, empty, fun plain => ?_⟩
      rw [joins plain, if_neg (by simpa using ends)]

/-- Where a path is split into its root or leading dot and the names does not depend on
what follows a slash. -/
theorem splitAnchor_append_slash (front : Bytes) :
    ∃ anchor before, (before = [] ∨ ∃ names, before = names ++ [slash]) ∧
      ∀ rest, splitAnchor (front ++ slash :: rest) = (anchor, before ++ rest) := by
  cases front with
  | nil => exact ⟨[slash], [], .inl rfl, fun rest => rfl⟩
  | cons byte front =>
      by_cases root : byte = slash
      · refine ⟨[slash], front ++ [slash], .inr ⟨front, rfl⟩, fun rest => ?_⟩
        simp [splitAnchor, root]
      · by_cases leads : byte = dot ∧ front.head?.getD slash = slash
        · refine ⟨selfName, front ++ [slash], .inr ⟨front, rfl⟩, fun rest => ?_⟩
          have same : (front ++ slash :: rest).head?.getD slash = slash := by
            cases front with
            | nil => rfl
            | cons first front => exact leads.2
          rw [List.cons_append, splitAnchor, if_neg root, if_pos ⟨leads.1, same⟩]
          simp
        · refine ⟨[], byte :: front ++ [slash], .inr ⟨byte :: front, rfl⟩, fun rest => ?_⟩
          have other : ¬ (byte = dot ∧ (front ++ slash :: rest).head?.getD slash = slash) := by
            cases front with
            | nil => exact fun wrong => leads ⟨wrong.1, rfl⟩
            | cons first front => exact leads
          rw [List.cons_append, splitAnchor, if_neg root, if_neg other]
          simp

theorem Plain.splitAnchor_eq (plain : Plain name) : splitAnchor name = ([], name) := by
  cases name with
  | nil => rfl
  | cons byte rest =>
      have root : byte ≠ slash := fun same => plain.noSlash (same ▸ List.mem_cons_self)
      rw [splitAnchor, if_neg root, if_neg]
      rintro ⟨rfl, leads⟩
      cases rest with
      | nil => cases plain.notBlank
      | cons first rest =>
          cases leads
          exact plain.noSlash (List.mem_cons_of_mem _ List.mem_cons_self)

/-- A plain name at the end of a path is its last name. -/
theorem reversedNames_of_splitNames {path : Path} {anchor rest : Bytes} {before : List Bytes}
    (plain : Plain name) (split : splitAnchor path.bytes = (anchor, rest))
    (names : splitNames rest = before ++ [name]) : path.reversedNames = name :: before.reverse := by
  rw [reversedNames, split, names, List.reverse_append, List.reverse_singleton,
    List.singleton_append, List.dropWhile_cons_of_neg (by simp [plain.notBlank])]

/-- What stands before a plain name in a directory does not depend on it. -/
theorem exists_splitNames_join (directory : Path) :
    ∃ anchor before, ∀ {name : Bytes}, Plain name →
      ∃ rest, splitAnchor (directory.join ⟨name⟩).bytes = (anchor, rest) ∧
        splitNames rest = before ++ [name] := by
  rcases directory.join_plain with ⟨-, joined⟩ | ⟨front, -, -, joined⟩
  · refine ⟨[], [], fun {name} plain => ⟨name, ?_, plain.splitNames_eq⟩⟩
    rw [joined plain]
    exact plain.splitAnchor_eq
  · obtain ⟨anchor, before, ending, split⟩ := splitAnchor_append_slash front
    rcases ending with rfl | ⟨names, rfl⟩
    · refine ⟨anchor, [], fun {name} plain => ⟨name, ?_, plain.splitNames_eq⟩⟩
      rw [joined plain]
      exact split name
    · refine ⟨anchor, splitNames names, fun {name} plain => ⟨names ++ slash :: name, ?_, ?_⟩⟩
      · rw [joined plain, split, List.append_assoc]
        rfl
      · rw [splitNames_append_slash, plain.splitNames_eq]

/-- Every plain name in a directory has the same parent. -/
theorem exists_parent_join (directory : Path) :
    ∃ parent, ∀ {name : Bytes}, Plain name → (directory.join ⟨name⟩).parent? = some parent := by
  obtain ⟨anchor, before, splits⟩ := directory.exists_splitNames_join
  refine ⟨⟨anchor ++ List.intercalate [slash] (before.reverse.dropWhile isBlank).reverse⟩,
    fun plain => ?_⟩
  obtain ⟨rest, split, names⟩ := splits plain
  rw [parent?, reversedNames_of_splitNames plain split names, split]

theorem fileName?_join (directory : Path) (plain : Plain name) :
    (directory.join ⟨name⟩).fileName? = some name := by
  obtain ⟨anchor, before, splits⟩ := directory.exists_splitNames_join
  obtain ⟨rest, split, names⟩ := splits plain
  simp [fileName?, reversedNames_of_splitNames plain split names, plain.notAbove]

end Path

namespace FileSystem

/-- A plain name in a directory is the last name of its place. -/
theorem place_join (files : FileSystem) (directory : Path) {name : Bytes} (plain : Path.Plain name) :
    files.place (directory.join ⟨name⟩) = files.place directory ++ [name] := by
  rcases directory.join_plain with ⟨empty, joined⟩ | ⟨front, bytes, notEmpty, joined⟩
  · have start : files.place directory = files.workingDirectory := by
      simp [place, Path.isAbsolute, empty, Path.splitNames, Location.descend, Path.isBlank]
    rw [joined plain, start, place, plain.isAbsolute_eq, plain.splitNames_eq, List.foldl_cons,
      List.foldl_nil, Location.descend_of_plain plain]
    rfl
  · have sameStart : (directory.join ⟨name⟩).isAbsolute = directory.isAbsolute := by
      rw [Path.isAbsolute, Path.isAbsolute, joined plain]
      rcases bytes with whole | whole
      · cases front with
        | nil => exact absurd whole notEmpty
        | cons byte front => simp [whole]
      · cases front <;> simp [whole]
    have names : (Path.splitNames front).foldl Location.descend
        (if directory.isAbsolute then [] else files.workingDirectory) = files.place directory := by
      rcases bytes with whole | whole
      · rw [place, whole]
      · rw [place, whole, Path.splitNames_append_slash, List.foldl_append]
        rfl
    rw [place, joined plain, Path.splitNames_append_slash, plain.splitNames_eq, List.foldl_append,
      sameStart, names, List.foldl_cons, List.foldl_nil, Location.descend_of_plain plain]

/-- The last name of a place whose path ends in bytes that are not just dots. -/
theorem exists_place_eq_append (files : FileSystem) {path : Path} {front ending : Bytes}
    (noSlash : Path.slash ∉ ending) (long : 2 < ending.length) (whole : path.bytes = front ++ ending) :
    ∃ above name, files.place path = above ++ [name ++ ending] := by
  obtain ⟨before, last, names⟩ := Path.exists_splitNames_append front noSlash
  have member : last ++ ending ∈ Path.splitNames path.bytes := by
    rw [whole, names]
    exact List.mem_append_right _ List.mem_cons_self
  have plain : Path.Plain (last ++ ending) := by
    apply Path.Plain.of_length (Path.noSlash_of_mem_splitNames member)
    rw [List.length_append]
    omega
  refine ⟨before.foldl Location.descend (if path.isAbsolute then [] else files.workingDirectory),
    last, ?_⟩
  rw [place, whole, names, List.foldl_append, List.foldl_cons, List.foldl_nil,
    Location.descend_of_plain plain]

end FileSystem

namespace Path

theorem exists_join_bytes (directory path : Path) :
    ∃ front, (directory.join path).bytes = front ++ path.bytes := by
  rw [join]
  split
  · exact ⟨[], rfl⟩
  · split
    · exact ⟨directory.bytes, rfl⟩
    · exact ⟨directory.bytes ++ [slash], by simp⟩

/-- The name of a temporary file is that of the file with something around it. -/
theorem temporaryName_eq (process : String) (name : Option Bytes) :
    temporaryName process name =
      Text.utf8 ("." ++ (name.map Text.lossy).getD "artifact" ++ "." ++ process ++ ".tmp") :=
  rfl

/-- The path of a temporary file ends like one. -/
theorem exists_temporary_bytes (process : String) (path : Path) :
    ∃ front, (path.temporary process).bytes = front ++ Text.utf8 ".tmp" := by
  have joined (directory : Path) : ∃ front,
      (directory.join ⟨temporaryName process path.fileName?⟩).bytes = front ++ Text.utf8 ".tmp" := by
    obtain ⟨front, whole⟩ := directory.exists_join_bytes ⟨temporaryName process path.fileName?⟩
    refine ⟨front ++ Text.utf8 ("." ++ (path.fileName?.map Text.lossy).getD "artifact" ++ "." ++
      process), ?_⟩
    rw [whole, List.append_assoc, ← Text.utf8_append, temporaryName_eq]
  rw [temporary, withFileName]
  split
  · exact joined _
  · exact joined _

/-- Temporary files have a name of their own. -/
theorem exists_place_temporary (path : Path) (files : FileSystem) (process : String) :
    ∃ above name, files.place (path.temporary process) = above ++ [name ++ Text.utf8 ".tmp"] := by
  obtain ⟨front, whole⟩ := path.exists_temporary_bytes process
  exact files.exists_place_eq_append (by decide) (by decide) whole

/-- A root or a leading dot leads nowhere. -/
theorem foldl_descend_splitAnchor (bytes : Bytes) (start : Location) :
    (splitNames (splitAnchor bytes).2).foldl Location.descend start =
      (splitNames bytes).foldl Location.descend start := by
  cases bytes with
  | nil => rfl
  | cons first rest =>
      rw [splitAnchor]
      split
      next root =>
        subst root
        simp [splitNames, Location.descend, isBlank]
      next notRoot =>
        split
        next leads =>
          obtain ⟨rfl, leads⟩ := leads
          cases rest with
          | nil => rfl
          | cons second rest =>
              cases leads
              rfl
        next => rfl

/-- The last name of a path that names a file, behind the others. -/
theorem splitNames_of_fileName? {path : Path} {name : Bytes} (named : path.fileName? = some name) :
    ∃ before blanks, splitNames (splitAnchor path.bytes).2 = before ++ [name] ++ blanks ∧
      (∀ blank ∈ blanks, isBlank blank) ∧ Plain name := by
  rw [fileName?] at named
  split at named
  next => cases named
  next first before ending =>
    split at named
    next => cases named
    next notAbove =>
      cases named
      obtain ⟨blanks, names, blank, notBlank⟩ := FileSystem.names_eq_of_dropWhile ending
      refine ⟨_, blanks, names, blank, ?_, notBlank, notAbove⟩
      apply @noSlash_of_mem_splitNames (splitAnchor path.bytes).2
      rw [names]
      simp

/-- It is the last name of the path's place. -/
theorem exists_place_of_fileName? {path : Path} {name : Bytes} (named : path.fileName? = some name)
    (files : FileSystem) : ∃ above, files.place path = above ++ [name] := by
  obtain ⟨before, blanks, names, blank, plain⟩ := splitNames_of_fileName? named
  refine ⟨before.foldl Location.descend (if path.isAbsolute then [] else files.workingDirectory), ?_⟩
  rw [FileSystem.place, ← foldl_descend_splitAnchor, names, List.foldl_append, List.foldl_append,
    FileSystem.foldl_descend_of_blank blank, List.foldl_cons, List.foldl_nil,
    Location.descend_of_plain plain]

theorem plain_of_fileName? {path : Path} {name : Bytes} (named : path.fileName? = some name) :
    Plain name := by
  obtain ⟨_, _, _, _, plain⟩ := splitNames_of_fileName? named
  exact plain

/-- A name without its extension has no other bytes. -/
theorem mem_of_mem_stemOf {name : Bytes} {byte : UInt8} (member : byte ∈ stemOf name) :
    byte ∈ name := by
  rw [stemOf] at member
  split at member
  next => exact member
  next => exact member
  next first stem _ ending =>
    have kept : byte ∈ name.reverse.dropWhile (· ≠ dot) := by
      rw [ending]
      exact List.mem_cons_of_mem first (List.mem_reverse.mp member)
    exact List.mem_reverse.mp ((List.dropWhile_suffix _).subset kept)

/-- A name up to the dot of its extension. -/
theorem stemOf_append {stem extension : Bytes} (named : stem ≠ []) (noDot : dot ∉ extension) :
    stemOf (stem ++ dot :: extension) = stem := by
  have skipped : (stem ++ dot :: extension).reverse.dropWhile (· ≠ dot) = dot :: stem.reverse := by
    rw [List.reverse_append, List.reverse_cons, List.append_assoc, List.dropWhile_append_of_pos]
    · rfl
    · intro byte member
      have other : byte ≠ dot := fun same => noDot (same ▸ List.mem_reverse.mp member)
      simpa using other
  have more : stem.reverse ≠ [] := by simpa using named
  rw [stemOf, skipped]
  split
  next missing => cases missing
  next alone => exact absurd (List.cons.inj alone).2 more
  next _ _ _ ending =>
    obtain ⟨-, rfl⟩ := List.cons.inj ending
    exact List.reverse_reverse stem

/-- A text has a slash only where its bytes have one. -/
theorem slash_notMem_utf8 {text : String} (noSlash : '/' ∉ text.toList) : slash ∉ Text.utf8 text :=
  fun member => noSlash (Text.mem_of_mem_utf8 (by decide) member)

/-- The text of a name has no slash either. -/
theorem slash_notMem_lossy {name : Bytes} (noSlash : slash ∉ name) :
    '/' ∉ (Text.lossy name).toList :=
  fun member => noSlash (Text.slash_mem_of_lossy member)

/-- The name of a temporary file is one that every file system can hold. -/
theorem plain_temporaryName {process : String} (noSlash : '/' ∉ process.toList) {name : Option Bytes}
    (nameNoSlash : ∀ bytes ∈ name, slash ∉ bytes) : Plain (temporaryName process name) := by
  have shown : '/' ∉ ((name.map Text.lossy).getD "artifact").toList := by
    cases name with
    | none => decide
    | some bytes => exact slash_notMem_lossy (nameNoSlash bytes rfl)
  rw [temporaryName_eq]
  apply Plain.of_length
  · apply slash_notMem_utf8
    simp [shown, noSlash]
  · rw [Text.utf8_append, List.length_append]
    change 2 < _ + 4
    omega

/-- The temporary file of a file has a name made from the file's. -/
theorem exists_place_temporary_of_fileName? {process : String} (noSlash : '/' ∉ process.toList)
    {path : Path} {name : Bytes} (named : path.fileName? = some name) (files : FileSystem) :
    ∃ above, files.place (path.temporary process) = above ++ [temporaryName process (some name)] := by
  have plain : Plain (temporaryName process (some name)) := by
    apply plain_temporaryName noSlash
    rintro _ ⟨⟩
    exact (plain_of_fileName? named).noSlash
  rw [temporary, withFileName, named]
  split
  next parent _ _ => exact ⟨_, files.place_join parent plain⟩
  next => exact ⟨_, files.place_join path plain⟩

/-- No name is that of its own temporary file: what this shows is longer. -/
theorem temporaryName_ne (process : String) (name : Bytes) : temporaryName process (some name) ≠ name := by
  intro same
  rw [temporaryName_eq, Option.map_some, Option.getD_some] at same
  have shown := congrArg (fun bytes => (Text.lossy bytes).length) same
  simp only [Text.lossy_utf8, String.length_append] at shown
  change 1 + _ + 1 + _ + 4 = _ at shown
  omega

/-- A temporary file does not stand where the file is to stand. -/
theorem place_temporary_ne {process : String} (noSlash : '/' ∉ process.toList) (path : Path)
    (files : FileSystem) : files.place (path.temporary process) ≠ files.place path := by
  intro same
  cases named : path.fileName? with
  | some name =>
      obtain ⟨above, whole⟩ := exists_place_of_fileName? named files
      obtain ⟨temporaryAbove, temporaryWhole⟩ := exists_place_temporary_of_fileName? noSlash named files
      rw [temporaryWhole, whole] at same
      exact temporaryName_ne process name (List.singleton_inj.mp (List.append_inj' same rfl).2)
  | none =>
      rw [temporary, withFileName, named] at same
      have plain : Plain (temporaryName process none) := plain_temporaryName noSlash nofun
      have length := congrArg List.length ((files.place_join path plain).symm.trans same)
      simp at length

end Path

end SceneForge
