import Mathlib.Data.List.Basic
import Mathlib.Data.List.Induction
import SceneForge.Catalog

/-!
# Catalogs built by additions

A catalog can be built asset by asset, and nothing keeps two references from sharing an
identifier. This module says what such a catalog knows after any run of additions: a
reference resolves to the identifier under which it was added last, and an identifier has
an entry exactly as long as every reference that resolved to it when it was last added
under still does. One addition takes away the entry of an identifier other than its own
exactly if its reference resolved to it, whether or not other references still do.
-/

namespace SceneForge

/-- An addition of an asset to a catalog. -/
inductive Addition where
  /-- Under the identifier derived from the reference. -/
  | derived (reference : String)
  | given (reference : String) (id : AssetId)
  | material (reference : String) (blueprint : Option String)
      (properties : List (String × PropertyValue))

namespace Addition

/-- The reference of the asset that is added. -/
def reference : Addition → String
  | derived reference | given reference _ | material reference _ _ => reference

/-- The identifier under which the asset is added. -/
def id : Addition → AssetId
  | derived reference | material reference _ _ => .ofReference reference
  | given _ id => id

/-- The catalog after an addition. -/
def apply (catalog : Catalog) : Addition → Catalog
  | derived reference => catalog.withAsset reference
  | given reference id => catalog.insert reference id
  | material reference blueprint properties => catalog.withMaterial reference blueprint properties

end Addition

namespace Catalog

/-- The catalog that additions to the empty one lead to. -/
def build (additions : List Addition) : Catalog := additions.foldl Addition.apply empty

section Steps

variable (catalog : Catalog)

theorem build_append (additions : List Addition) (last : Addition) :
    build (additions ++ [last]) = last.apply (build additions) := by
  rw [build, List.foldl_append]
  rfl

/-- Declaring properties changes no identifier. -/
theorem ids_declare (id : AssetId) (blueprint : Option String)
    (properties : List MaterialProperty) :
    (catalog.declare id blueprint properties).ids = catalog.ids := by
  rw [declare]
  split <;> rfl

/-- Declaring properties neither makes nor removes an entry. -/
theorem isSome_entries_declare (id other : AssetId) (blueprint : Option String)
    (properties : List MaterialProperty) :
    ((catalog.declare id blueprint properties).entries.get? other).isSome =
      (catalog.entries.get? other).isSome := by
  rw [declare]
  split
  next => rfl
  next entry found =>
    simp only [SortedMap.get?_insert]
    split
    next same => simp [same, found]
    next => rfl

theorem ids_apply (addition : Addition) :
    (addition.apply catalog).ids = catalog.ids.insert addition.reference addition.id := by
  cases addition with
  | derived reference => rfl
  | given reference id => rfl
  | material reference blueprint properties =>
      exact ids_declare (catalog.withAsset reference) (.ofReference reference) blueprint _

theorem isSome_entries_insert_iff (reference : String) (id other : AssetId) :
    ((catalog.insert reference id).entries.get? other).isSome ↔
      other = id ∨
        (catalog.entries.get? other).isSome ∧ catalog.ids.get? reference ≠ some other := by
  by_cases same : other = id
  · simp [insert, same]
  rw [insert, SortedMap.get?_insert_of_ne _ _ same, or_iff_right same]
  cases previous : catalog.ids.get? reference with
  | none => simp
  | some replaced =>
      by_cases gone : other = replaced
      · simp [SortedMap.get?_erase, gone]
      · simp [SortedMap.get?_erase, gone, Ne.symm gone]

/-- An addition makes the entry of its own identifier and removes that of the identifier
to which its reference resolved. -/
theorem isSome_entries_apply_iff (addition : Addition) (id : AssetId) :
    ((addition.apply catalog).entries.get? id).isSome ↔
      id = addition.id ∨
        (catalog.entries.get? id).isSome ∧ catalog.ids.get? addition.reference ≠ some id := by
  cases addition with
  | derived reference => exact isSome_entries_insert_iff catalog reference (.ofReference reference) id
  | given reference given => exact isSome_entries_insert_iff catalog reference given id
  | material reference blueprint properties =>
      rw [Addition.apply, withMaterial, isSome_entries_declare]
      exact isSome_entries_insert_iff catalog reference (.ofReference reference) id

theorem isSome_declared?_iff (id : AssetId) :
    (catalog.declared? id).isSome ↔ (catalog.entries.get? id).isSome := by
  rw [declared?, Option.isSome_map]

theorem resolve?_of_ne {reference : String} (named : reference ≠ "") :
    catalog.resolve? reference = catalog.ids.get? reference := by
  rw [resolve?, if_neg (by simpa using named)]

end Steps

section Runs

variable {additions before after : List Addition} {addition : Addition} {id : AssetId}

/-- An addition decides what its reference resolves to until the reference is added again. -/
theorem ids_build_of_last (last : ∀ later ∈ after, later.reference ≠ addition.reference) :
    (build (before ++ addition :: after)).ids.get? addition.reference = some addition.id := by
  induction after using List.reverseRecOn with
  | nil =>
      rw [build_append, ids_apply]
      exact SortedMap.get?_insert_self _ _ _
  | append_singleton after newest ih =>
      have other : addition.reference ≠ newest.reference := (last newest (by simp)).symm
      rw [← List.cons_append, ← List.append_assoc, build_append, ids_apply,
        SortedMap.get?_insert_of_ne _ _ other]
      exact ih fun later member => last later (by simp [member])

/-- As long as nothing is added under an identifier, no reference comes to resolve to it. -/
theorem ids_build_of_append (unused : ∀ later ∈ after, later.id ≠ id) {reference : String}
    (resolved : (build (before ++ after)).ids.get? reference = some id) :
    (build before).ids.get? reference = some id := by
  induction after using List.reverseRecOn with
  | nil => rwa [List.append_nil] at resolved
  | append_singleton after newest ih =>
      rw [← List.append_assoc, build_append, ids_apply, SortedMap.get?_insert] at resolved
      split at resolved
      next => exact absurd (Option.some.inj resolved) (unused newest (by simp))
      next => exact ih (fun later member => unused later (by simp [member])) resolved

/-- An identifier is kept by additions: some addition was made under it, and all references
that resolved to it right after the last of these still do. -/
def Keeps (additions : List Addition) (id : AssetId) : Prop :=
  ∃ before addition after, additions = before ++ addition :: after ∧ addition.id = id ∧
    (∀ later ∈ after, later.id ≠ id) ∧
    ∀ reference, (build (before ++ [addition])).ids.get? reference = some id →
      (build additions).ids.get? reference = some id

theorem keeps_append_self (last : Addition) : Keeps (additions ++ [last]) last.id :=
  ⟨additions, last, [], rfl, rfl, by simp, fun _ resolved => resolved⟩

/-- Under another identifier, an addition keeps what was kept unless its reference resolved
to it. -/
theorem keeps_append_iff {last : Addition} (other : id ≠ last.id) :
    Keeps (additions ++ [last]) id ↔
      Keeps additions id ∧ (build additions).ids.get? last.reference ≠ some id := by
  constructor
  · rintro ⟨before, addition, after, split, made, unused, kept⟩
    obtain rfl | ⟨after, newest, rfl⟩ := after.eq_nil_or_concat'
    · obtain ⟨rfl, same⟩ := List.append_inj' split rfl
      cases same
      exact absurd made.symm other
    rw [← List.cons_append, ← List.append_assoc] at split
    obtain ⟨rfl, same⟩ := List.append_inj' split rfl
    cases same
    have unusedBefore : ∀ later ∈ after, later.id ≠ id := fun later member =>
      unused later (by simp [member])
    have moved : (build (before ++ addition :: after)).ids.get? last.reference ≠ some id := by
      intro resolved
      rw [List.append_cons] at resolved
      have held := kept last.reference (ids_build_of_append unusedBefore resolved)
      rw [build_append, ids_apply, SortedMap.get?_insert_self] at held
      exact other (Option.some.inj held).symm
    refine ⟨⟨before, addition, after, rfl, made, unusedBefore, fun reference resolved => ?_⟩, moved⟩
    have held := kept reference resolved
    rw [build_append, ids_apply, SortedMap.get?_insert] at held
    split at held
    next => exact absurd (Option.some.inj held).symm other
    next => exact held
  · rintro ⟨⟨before, addition, after, rfl, made, unused, kept⟩, moved⟩
    refine ⟨before, addition, after ++ [last], by simp, made, ?_, fun reference resolved => ?_⟩
    · simpa [or_imp, forall_and] using ⟨unused, other.symm⟩
    · have held := kept reference resolved
      have ne : reference ≠ last.reference := by
        rintro rfl
        exact moved held
      rw [build_append, ids_apply, SortedMap.get?_insert_of_ne _ _ ne]
      exact held

/-- An identifier has an entry exactly if it is kept. -/
theorem isSome_entries_build_iff :
    ((build additions).entries.get? id).isSome ↔ Keeps additions id := by
  induction additions using List.reverseRecOn with
  | nil =>
      constructor
      · intro found
        cases found
      · rintro ⟨before, addition, after, split, -⟩
        cases before <;> cases split
  | append_singleton additions last ih =>
      rw [build_append, isSome_entries_apply_iff]
      by_cases same : id = last.id
      · subst same
        exact ⟨fun _ => keeps_append_self last, fun _ => .inl rfl⟩
      · rw [or_iff_right same, keeps_append_iff same, ih]

/-- Only references that were added resolve. -/
theorem exists_of_ids_build {reference : String}
    (resolved : (build additions).ids.get? reference = some id) :
    ∃ addition ∈ additions, addition.reference = reference := by
  induction additions using List.reverseRecOn with
  | nil => cases resolved
  | append_singleton additions last ih =>
      rw [build_append, ids_apply, SortedMap.get?_insert] at resolved
      split at resolved
      next same => exact ⟨last, by simp, same.symm⟩
      next =>
        obtain ⟨addition, member, same⟩ := ih resolved
        exact ⟨addition, by simp [member], same⟩

end Runs

/-- What a catalog knows that was built by additions. A reference resolves to the identifier
under which it was added last. The asset of an identifier is known exactly if all references
that resolved to the identifier when something was last added under it still do. One more
addition takes away an identifier other than its own exactly if its reference resolved to
it, even if others do, too. -/
theorem build_isolation {additions : List Addition}
    (named : ∀ addition ∈ additions, addition.reference ≠ "") :
    (∀ before addition after, additions = before ++ addition :: after →
      (∀ later ∈ after, later.reference ≠ addition.reference) →
      (build additions).resolve? addition.reference = some addition.id) ∧
    (∀ id, ((build additions).declared? id).isSome ↔
      ∃ before addition after, additions = before ++ addition :: after ∧ addition.id = id ∧
        (∀ later ∈ after, later.id ≠ id) ∧
        ∀ reference ≠ "", (build (before ++ [addition])).resolve? reference = some id →
          (build additions).resolve? reference = some id) ∧
    ∀ addition id, addition.reference ≠ "" → id ≠ addition.id →
      (((build (additions ++ [addition])).declared? id).isSome ↔
        ((build additions).declared? id).isSome ∧
          (build additions).resolve? addition.reference ≠ some id) := by
  refine ⟨?_, fun id => ?_, ?_⟩
  · rintro before addition after rfl last
    rw [resolve?_of_ne _ (named addition (by simp))]
    exact ids_build_of_last last
  · rw [isSome_declared?_iff, isSome_entries_build_iff]
    constructor
    · rintro ⟨before, addition, after, split, made, unused, kept⟩
      refine ⟨before, addition, after, split, made, unused, fun reference nonempty => ?_⟩
      rw [resolve?_of_ne _ nonempty, resolve?_of_ne _ nonempty]
      exact kept reference
    · rintro ⟨before, addition, after, rfl, made, unused, kept⟩
      refine ⟨before, addition, after, rfl, made, unused, fun reference resolved => ?_⟩
      have nonempty : reference ≠ "" := by
        obtain ⟨other, member, rfl⟩ := exists_of_ids_build resolved
        refine named other ?_
        rw [List.append_cons]
        exact List.mem_append_left _ member
      have held := kept reference nonempty
      rw [resolve?_of_ne _ nonempty, resolve?_of_ne _ nonempty] at held
      exact held resolved
  · intro addition id nonempty other
    rw [isSome_declared?_iff, isSome_declared?_iff, build_append, isSome_entries_apply_iff,
      or_iff_right other, resolve?_of_ne _ nonempty]

/-- Of two references that share an identifier, one is added again under another one: the
other still resolves to the identifier, whose asset is gone. -/
theorem build_isolation_shared :
    let additions : List Addition := [.given "a" ⟨5⟩, .given "b" ⟨5⟩]
    let moved : Addition := .given "a" ⟨6⟩
    (build (additions ++ [moved])).resolve? "b" = some ⟨5⟩ ∧
      (build (additions ++ [moved])).declared? ⟨5⟩ = none := by
  intro additions moved
  have named : ∀ addition ∈ additions, addition.reference ≠ "" := by decide
  have movedNamed : ∀ addition ∈ additions ++ [moved], addition.reference ≠ "" := by decide
  constructor
  · exact (build_isolation movedNamed).1 [.given "a" ⟨5⟩] (.given "b" ⟨5⟩) [moved] rfl (by decide)
  · have resolved : (build additions).resolve? moved.reference = some ⟨5⟩ :=
      (build_isolation named).1 [] (.given "a" ⟨5⟩) [.given "b" ⟨5⟩] rfl (by decide)
    have known := (build_isolation named).2.2 moved ⟨5⟩ (by decide) (by decide)
    rw [← Option.not_isSome_iff_eq_none, known]
    exact fun kept => kept.2 resolved

end Catalog

end SceneForge
