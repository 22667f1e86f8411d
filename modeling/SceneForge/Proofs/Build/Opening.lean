import SceneForge.Proofs.Build.Persistence

/-!
# Databases of other versions

A database file begins with the version of its layout, but the version is looked at only
after the whole file has been read in the current layout. So a database of another version
counts as empty only where what follows its version happens to begin with records as they
are laid out now; everywhere else it is corrupt.
-/

namespace SceneForge

open Program

namespace Database

/-- A version is known from the bytes that begin with it. -/
theorem eq_of_version_append {version other : UInt32} {rest behind : Bytes}
    (same : Bytes.ofUInt32 version ++ rest = Bytes.ofUInt32 other ++ behind) :
    version = other ∧ rest = behind := by
  obtain ⟨words, rests⟩ := List.append_inj same (by simp)
  have equal := congrArg Bytes.toUInt32 words
  rw [Bytes.toUInt32_ofUInt32, Bytes.toUInt32_ofUInt32] at equal
  exact ⟨equal, rests⟩

/-- Bytes too few for a version hold no records. -/
theorem recordsOf?_of_length_lt {bytes : Bytes} (short : bytes.length < 4) :
    recordsOf? (some bytes) = none := by
  rw [recordsOf?, Option.map_eq_none_iff, Option.eq_none_iff_forall_ne_some]
  intro database decoded
  obtain ⟨version, rest, -, rfl, -⟩ := decode?_eq_some_iff.mp decoded
  rw [List.length_append, Bytes.length_ofUInt32] at short
  omega

/-- Records are taken over only from a database of the current version. -/
theorem recordsOf?_of_beginsWith (version : UInt32) {rest : Bytes}
    {records : List (ArtifactKey × List RecordedInput)} (begins : BeginsWith rest records) :
    recordsOf? (some (Bytes.ofUInt32 version ++ rest)) =
      some (if version = currentVersion then .ofList records else SortedMap.empty) := by
  rw [recordsOf?, decode?_eq_some_iff.mpr ⟨version, rest, records, rfl, begins, rfl⟩]
  rfl

/-- Without records behind the version nothing can be read, whatever the version is. -/
theorem recordsOf?_of_not_beginsWith (version : UInt32) {rest : Bytes}
    (nothing : ∀ records, ¬BeginsWith rest records) :
    recordsOf? (some (Bytes.ofUInt32 version ++ rest)) = none := by
  rw [recordsOf?, Option.map_eq_none_iff, Option.eq_none_iff_forall_ne_some]
  intro database decoded
  obtain ⟨other, behind, records, same, begins, -⟩ := decode?_eq_some_iff.mp decoded
  obtain ⟨-, rfl⟩ := eq_of_version_append same
  exact nothing records begins

/-- The number of the records needs eight bytes. -/
theorem BeginsWith.length_le {bytes : Bytes} {records : List (ArtifactKey × List RecordedInput)}
    (begins : BeginsWith bytes records) : 8 ≤ bytes.length := by
  obtain ⟨_, behind, ⟨pieces, -, -, rfl⟩, rfl⟩ := begins
  simp only [List.length_append, encodeLength, Bytes.length_ofNat]
  omega

end Database

namespace Cache

open Database (BeginsWith)

variable {files : FileSystem} {path : Path} {content : Bytes}

/-- A file that is too short to hold a version is corrupt. One that begins with a version is
corrupt exactly if no records as they are laid out now stand behind it, whatever the version
is. If such records stand there, they are taken over from a file of the current version, and
a file of another version counts as empty. -/
theorem load_versions (read : files.read path = .ok content) :
    (content.length < 4 → (load path).run files = (.error (.corrupt path), files)) ∧
    ∀ version rest, content = Bytes.ofUInt32 version ++ rest →
      ((load path).run files = (.error (.corrupt path), files) ↔ ∀ records, ¬BeginsWith rest records) ∧
      ∀ records, BeginsWith rest records → (load path).run files =
        (.ok ⟨some path, if version = Database.currentVersion then .ofList records
          else SortedMap.empty⟩, files) := by
  have openable : files.Openable path := FileSystem.openable_of_isOk (by rw [read]; rfl)
  rw [run_load openable, FileSystem.read_eq_ok read]
  refine ⟨fun short => by rw [Database.recordsOf?_of_length_lt short], ?_⟩
  rintro version rest rfl
  refine ⟨⟨fun corrupt records begins => ?_, fun nothing => ?_⟩, fun records begins => ?_⟩
  · rw [Database.recordsOf?_of_beginsWith version begins] at corrupt
    cases corrupt
  · rw [Database.recordsOf?_of_not_beginsWith version nothing]
  · rw [Database.recordsOf?_of_beginsWith version begins]

/-- A database of another version, whose layout counts records with 32 bits: it holds none. -/
theorem load_versions_narrow :
    let content : Bytes := Bytes.ofUInt32 2 ++ [0, 0, 0, 0]
    let files : FileSystem :=
      ⟨SortedMap.empty.insert [Text.utf8 "cache.bin"] (.file content), [], "1", fun _ _ => false⟩
    files.read (.ofText "cache.bin") = .ok content ∧
      (load (.ofText "cache.bin")).run files = (.error (.corrupt (.ofText "cache.bin")), files) := by
  intro content files
  have read : files.read (.ofText "cache.bin") = .ok content := by rfl
  refine ⟨read, ((load_versions read).2 2 [0, 0, 0, 0] rfl).1.mpr fun records begins => ?_⟩
  have long := begins.length_le
  contradiction

end Cache

end SceneForge
