import SceneForge.Proofs.Catalog.Loading
import SceneForge.Proofs.Material.Tables

/-!
# What a catalog declares

A catalog that was read or started empty and then got any additions declares, for each asset,
what was declared last under its identifier, laid over what was declared last under the
identifier of its blueprint. Every table of declarations in it was made at once from names and
values; additions put such tables in, replace them and remove them, and change none.
-/

namespace SceneForge

open Text (utf8)

/-- The value of the first name with an identifier. -/
def firstValue? (values : List (String × PropertyValue)) (id : StringId) : Option PropertyValue :=
  (values.find? fun named => StringId.ofName named.1 == id).map (·.2)

/-- The properties that names and values declare. -/
def declaredProperties (values : List (String × PropertyValue)) : List MaterialProperty :=
  values.map fun (name, value) => .declared (.ofName name) value

theorem property?_declaredProperties (values : List (String × PropertyValue)) (id : StringId) :
    PropertyTable.property? (declaredProperties values) id =
      (firstValue? values id).map (.declared id) := by
  induction values with
  | nil => rfl
  | cons first rest ih =>
      have head : declaredProperties (first :: rest) =
          .declared (.ofName first.1) first.2 :: declaredProperties rest := rfl
      rw [head, PropertyTable.property?, firstValue?, List.find?_cons, List.find?_cons]
      by_cases same : StringId.ofName first.1 = id
      · subst same
        simp [MaterialProperty.declared]
      · have other : (MaterialProperty.declared (.ofName first.1) first.2).id ≠ id := same
        rw [beq_eq_false_iff_ne.mpr same, beq_eq_false_iff_ne.mpr other]
        exact ih

theorem isSome_firstValue?_iff {values : List (String × PropertyValue)} {id : StringId} :
    (firstValue? values id).isSome ↔ ∃ named ∈ values, StringId.ofName named.1 = id := by
  simp [firstValue?, List.find?_isSome]

theorem ofDeclarations_declaredProperties_nil :
    PropertyTable.ofDeclarations (declaredProperties []) = [] :=
  PropertyTable.ofDeclarations_nil

namespace Addition

/-- The blueprint that an added asset builds on. -/
def blueprint? : Addition → Option String
  | derived _ | given _ _ => none
  | material _ blueprint _ => blueprint

/-- What an added asset declares itself. -/
def values : Addition → List (String × PropertyValue)
  | derived _ | given _ _ => []
  | material _ _ properties => properties

end Addition

/-- The names that a listed asset declares with what they denote, in the order of their bytes. -/
structure SourceAsset.Denotes (asset : SourceAsset) (assets : SourceAssets)
    (values : List (String × PropertyValue)) : Prop where
  ordered : values.Pairwise fun a b => utf8 a.1 < utf8 b.1
  denoted : ∀ named ∈ values, ∃ declaration, asset.properties.get? named.1 = some declaration ∧
    declaration.Denotes assets named.2
  complete : ∀ name declaration, asset.properties.get? name = some declaration →
    ∃ value, (name, value) ∈ values

namespace Catalog

/-- The catalogs that additions start from, with the assets that they list. -/
inductive Start : Catalog → SourceAssets → Prop where
  | empty : Start empty SortedMap.empty
  | read {text : String} {catalog : Catalog} {assets : SourceAssets}
      (listed : readAssets text = .ok assets) (accepted : read text = .ok catalog) :
      Start catalog assets

/-- What additions to listed assets declare last under an identifier: a blueprint, and names
with values. -/
inductive Owns (assets : SourceAssets) (additions : List Addition) (id : AssetId) :
    Option String → List (String × PropertyValue) → Prop where
  | added {before after : List Addition} {addition : Addition}
      (split : additions = before ++ addition :: after) (same : addition.id = id)
      (last : ∀ later ∈ after, later.id ≠ id) :
      Owns assets additions id addition.blueprint? addition.values
  | listed {reference : String} {asset : SourceAsset} {values : List (String × PropertyValue)}
      (unused : ∀ addition ∈ additions, addition.id ≠ id)
      (found : assets.get? reference = some asset) (same : asset.idFor reference = id)
      (denotes : asset.Denotes assets values) : Owns assets additions id asset.blueprint values

/-- What a blueprint declares itself: nothing if there is none or if the catalog does not know
it. -/
inductive Inherits (assets : SourceAssets) (additions : List Addition) (catalog : Catalog) :
    Option String → List (String × PropertyValue) → Prop where
  | alone : Inherits assets additions catalog none []
  | unknown {reference : String}
      (unknown : ∀ id, catalog.ids.get? reference = some id → catalog.declared? id = none) :
      Inherits assets additions catalog (some reference) []
  | known {reference : String} {id : AssetId} {further : Option String}
      {values : List (String × PropertyValue)} (resolved : catalog.ids.get? reference = some id)
      (present : (catalog.declared? id).isSome) (owns : Owns assets additions id further values) :
      Inherits assets additions catalog (some reference) values

/-- All entries hold the table of what was declared last under their identifiers. -/
def Faithful (assets : SourceAssets) (additions : List Addition) (catalog : Catalog) : Prop :=
  ∀ id entry, catalog.entries.get? id = some entry → ∃ values,
    Owns assets additions id entry.blueprint values ∧
      entry.properties = .ofDeclarations (declaredProperties values)

section Reading

variable {assets : SourceAssets} {asset : SourceAsset} {catalog : Catalog}

/-- The properties that stand for those of an asset are the ones that its names with their values
declare. -/
theorem exists_denotes_of_values {properties : List MaterialProperty}
    (values : assets.Values asset properties) :
    ∃ named, asset.Denotes assets named ∧ properties = declaredProperties named := by
  have paired : ∃ named : List (String × PropertyValue),
      List.Forall₂ (fun declared value => value.1 = declared.1 ∧ declared.2.Denotes assets value.2)
        asset.properties.entries named ∧ properties = declaredProperties named := by
    rw [SourceAssets.Values] at values
    generalize asset.properties.entries = declarations at values
    induction values with
    | nil => exact ⟨[], .nil, rfl⟩
    | @cons declared property _ _ head _ ih =>
        obtain ⟨value, denotes, rfl⟩ := head
        obtain ⟨named, alike, rfl⟩ := ih
        exact ⟨(declared.1, value) :: named, .cons ⟨rfl, denotes⟩ alike, rfl⟩
  obtain ⟨named, alike, same⟩ := paired
  have names : named.map (·.1) = asset.properties.entries.map (·.1) := by
    rw [← List.forall₂_eq_eq_eq, List.forall₂_map_left_iff, List.forall₂_map_right_iff]
    exact alike.flip.imp fun _ _ both => both.1
  refine ⟨named, ⟨?_, fun value member => ?_, fun name declaration found => ?_⟩, same⟩
  · have sorted := asset.properties.sorted
    rw [← List.pairwise_map (f := fun entry : String × Declaration => entry.1)
      (R := fun a b => compare a b = .lt), ← names, List.pairwise_map] at sorted
    exact sorted.imp fun less => Text.utf8_lt_utf8_iff.mpr (Text.compare_eq_lt_iff.mp less)
  · obtain ⟨⟨name, declaration⟩, declared, rfl, denotes⟩ := exists_of_forall₂ alike.flip member
    exact ⟨declaration, SortedMap.get?_eq_some_iff.mpr declared, denotes⟩
  · obtain ⟨value, member, rfl, -⟩ := exists_of_forall₂ alike (SortedMap.get?_eq_some_iff.mp found)
    exact ⟨value.2, member⟩

/-- A catalog of listed assets holds their declarations. -/
theorem faithful_of_listed (listed : assets.Listed catalog) : Faithful assets [] catalog := by
  intro id entry present
  obtain ⟨asset, found, same⟩ := listed.only id entry present
  obtain ⟨properties, values, there⟩ := listed.found _ asset found
  rw [same, present] at there
  obtain ⟨named, denotes, rfl⟩ := exists_denotes_of_values values
  refine ⟨named, ?_, congrArg CatalogEntry.properties (Option.some.inj there)⟩
  rw [congrArg CatalogEntry.blueprint (Option.some.inj there)]
  exact .listed (fun _ none => absurd none (List.not_mem_nil)) found same denotes

theorem Start.faithful (start : Start catalog assets) : Faithful assets [] catalog := by
  cases start with
  | empty =>
      intro id entry present
      cases present
  | read listed accepted =>
      obtain ⟨others, same, -, loaded⟩ := listed_of_read accepted
      cases listed.symm.trans same
      exact faithful_of_listed loaded

end Reading

section Steps

variable {assets : SourceAssets} {additions : List Addition} {catalog : Catalog} {id : AssetId}
  {entry : CatalogEntry}

theorem entries_insert_self (reference : String) (id : AssetId) :
    (catalog.insert reference id).entries.get? id = some ⟨reference, none, []⟩ :=
  SortedMap.get?_insert_self _ _ _

theorem entries_of_entries_insert {reference : String} {given : AssetId} (other : id ≠ given)
    (present : (catalog.insert reference given).entries.get? id = some entry) :
    catalog.entries.get? id = some entry := by
  rw [insert, SortedMap.get?_insert_of_ne _ _ other] at present
  split at present
  next =>
    rw [SortedMap.get?_erase] at present
    split at present
    next => cases present
    next => exact present
  next => exact present

theorem entries_declare_self (present : catalog.entries.get? id = some entry)
    (blueprint : Option String) (properties : List MaterialProperty) :
    (catalog.declare id blueprint properties).entries.get? id =
      some ⟨entry.reference, blueprint, .ofDeclarations properties⟩ := by
  rw [declare, present]
  exact SortedMap.get?_insert_self _ _ _

theorem entries_declare_of_ne {given : AssetId} (other : id ≠ given) (blueprint : Option String)
    (properties : List MaterialProperty) :
    (catalog.declare given blueprint properties).entries.get? id = catalog.entries.get? id := by
  rw [declare]
  split
  next => rfl
  next => exact SortedMap.get?_insert_of_ne _ _ other

/-- The entry that an addition makes. -/
theorem entries_apply_self (addition : Addition) :
    (addition.apply catalog).entries.get? addition.id =
      some ⟨addition.reference, addition.blueprint?,
        .ofDeclarations (declaredProperties addition.values)⟩ := by
  cases addition with
  | derived reference =>
      rw [Addition.values, ofDeclarations_declaredProperties_nil]
      exact entries_insert_self reference _
  | given reference id =>
      rw [Addition.values, ofDeclarations_declaredProperties_nil]
      exact entries_insert_self reference id
  | material reference blueprint properties =>
      exact entries_declare_self (entries_insert_self reference _) blueprint _

/-- An addition changes no entry of another identifier, though it may remove one. -/
theorem entries_of_entries_apply {addition : Addition} (other : id ≠ addition.id)
    (present : (addition.apply catalog).entries.get? id = some entry) :
    catalog.entries.get? id = some entry := by
  cases addition with
  | derived reference => exact entries_of_entries_insert other present
  | given reference given => exact entries_of_entries_insert other present
  | material reference blueprint properties =>
      have kept := @entries_declare_of_ne (catalog.withAsset reference) id _ other blueprint
        (declaredProperties properties)
      exact entries_of_entries_insert other (kept.symm.trans present)

/-- What was declared under an identifier stays so until something is added under it. -/
theorem Owns.append {blueprint : Option String} {values : List (String × PropertyValue)}
    (owns : Owns assets additions id blueprint values) {newest : Addition} (other : newest.id ≠ id) :
    Owns assets (additions ++ [newest]) id blueprint values := by
  cases owns with
  | @added before after addition split same last =>
      refine .added (split ▸ List.append_assoc before (addition :: after) [newest]) same ?_
      intro later member
      rcases List.mem_append.mp member with earlier | added
      · exact last later earlier
      · rwa [List.mem_singleton.mp added]
  | listed unused found same denotes =>
      refine .listed (fun addition member => ?_) found same denotes
      rcases List.mem_append.mp member with earlier | added
      · exact unused addition earlier
      · rwa [List.mem_singleton.mp added]

/-- What the newest addition declares is what was declared last under its identifier. -/
theorem Owns.eq_of_append_self {newest : Addition} {blueprint : Option String}
    {values : List (String × PropertyValue)}
    (owns : Owns assets (additions ++ [newest]) newest.id blueprint values) :
    blueprint = newest.blueprint? ∧ values = newest.values := by
  cases owns with
  | @added before after addition split same last =>
      obtain rfl | ⟨after, other, rfl⟩ := after.eq_nil_or_concat'
      · obtain ⟨-, same⟩ := List.append_inj' split rfl
        cases same
        exact ⟨rfl, rfl⟩
      · rw [← List.cons_append, ← List.append_assoc] at split
        obtain ⟨-, same⟩ := List.append_inj' split rfl
        cases same
        exact absurd rfl (last newest (by simp))
  | listed unused => exact absurd rfl (unused newest (by simp))

/-- An addition keeps all entries faithful. -/
theorem Faithful.apply (faithful : Faithful assets additions catalog) (newest : Addition) :
    Faithful assets (additions ++ [newest]) (newest.apply catalog) := by
  intro id entry present
  by_cases same : id = newest.id
  · subst same
    rw [entries_apply_self] at present
    cases present
    exact ⟨newest.values, .added rfl rfl (by simp), rfl⟩
  · obtain ⟨values, owns, made⟩ := faithful id entry (entries_of_entries_apply same present)
    exact ⟨values, owns.append (Ne.symm same), made⟩

/-- So do any additions. -/
theorem Start.faithful_foldl {start : Catalog} (origin : Start start assets)
    (additions : List Addition) :
    Faithful assets additions (additions.foldl Addition.apply start) := by
  induction additions using List.reverseRecOn with
  | nil => exact origin.faithful
  | append_singleton additions newest ih =>
      rw [List.foldl_append]
      exact ih.apply newest

end Steps

section Tables

variable {assets : SourceAssets} {additions : List Addition} {catalog : Catalog} {id : AssetId}
  {entry : CatalogEntry}

/-- What an entry inherits is the table of what its blueprint declares itself. -/
theorem Faithful.inherited (faithful : Faithful assets additions catalog) (entry : CatalogEntry) :
    ∃ values, Inherits assets additions catalog entry.blueprint values ∧
      catalog.inherited entry = .ofDeclarations (declaredProperties values) := by
  rw [Catalog.inherited]
  cases entry.blueprint with
  | none => exact ⟨[], .alone, ofDeclarations_declaredProperties_nil.symm⟩
  | some reference =>
      cases resolved : catalog.ids.get? reference with
      | none =>
          refine ⟨[], .unknown fun id found => ?_,
            by simp [resolved, ofDeclarations_declaredProperties_nil]⟩
          rw [resolved] at found
          cases found
      | some blueprint =>
          cases present : catalog.entries.get? blueprint with
          | none =>
              refine ⟨[], .unknown fun id found => ?_,
                by simp [resolved, present, ofDeclarations_declaredProperties_nil]⟩
              cases resolved.symm.trans found
              rw [declared?, present]
              rfl
          | some base =>
              obtain ⟨values, owns, made⟩ := faithful blueprint base present
              refine ⟨values, .known resolved ?_ owns, by simp [resolved, present, made]⟩
              rw [isSome_declared?_iff, present]
              rfl

/-- What a catalog declares under an identifier with an entry, whatever was added, replaced and
removed before. The table is in order and marks nothing. It has what was declared last under the
identifier, and else what was declared last under that of the blueprint; of several names with
one identifier, the first in the order of the declaration counts. -/
theorem declared?_table {start : Catalog} (origin : Start start assets) (additions : List Addition)
    (present : ((additions.foldl Addition.apply start).entries.get? id).isSome) :
    ∃ table blueprint own inherited,
      (additions.foldl Addition.apply start).declared? id = some table ∧
      Owns assets additions id blueprint own ∧
      Inherits assets additions (additions.foldl Addition.apply start) blueprint inherited ∧
      table.Ascending ∧ (∀ property ∈ table, property.overwritten = false) ∧
      ∀ key,
        ((∃ property ∈ table, property.id = key) ↔
          (∃ named ∈ own, StringId.ofName named.1 = key) ∨
            ∃ named ∈ inherited, StringId.ofName named.1 = key) ∧
        table.property? key =
          ((firstValue? own key).or (firstValue? inherited key)).map (.declared key) := by
  have faithful := origin.faithful_foldl additions
  generalize additions.foldl Addition.apply start = catalog at present faithful
  obtain ⟨entry, found⟩ := Option.isSome_iff_exists.mp present
  obtain ⟨own, owns, made⟩ := faithful id entry found
  obtain ⟨base, inherits, inherited⟩ := faithful.inherited entry
  obtain ⟨ownAscending, ownFound⟩ := PropertyTable.ofDeclarations_spec (declaredProperties own)
  obtain ⟨ascending, baseFound⟩ := PropertyTable.ofDeclarations_spec (declaredProperties base)
  have properties (key : StringId) :
      ((catalog.inherited entry).overlay entry.properties).property? key =
        ((firstValue? own key).or (firstValue? base key)).map (.declared key) := by
    rw [inherited, made, PropertyTable.property?_overlay ascending ownAscending, ownFound, baseFound,
      property?_declaredProperties, property?_declaredProperties, Option.map_or]
  have ordered : ((catalog.inherited entry).overlay entry.properties).Ascending := by
    rw [inherited]
    exact ascending.overlay _
  refine ⟨_, entry.blueprint, own, base, by rw [declared?, found]; rfl, owns, inherits, ordered, ?_, ?_⟩
  · intro property member
    have known := PropertyTable.property?_eq_some_of_mem ordered member
    rw [properties] at known
    obtain ⟨value, -, same⟩ := Option.map_eq_some_iff.mp known
    exact (congrArg MaterialProperty.overwritten same).symm
  · intro key
    refine ⟨?_, properties key⟩
    rw [← PropertyTable.isSome_property?_iff, properties, Option.isSome_map, Option.isSome_or,
      Bool.or_eq_true, isSome_firstValue?_iff, isSome_firstValue?_iff]

/-- Of two names with one identifier, the one that is declared first counts, and it counts
before what the blueprint declares. -/
theorem declared?_table_collision :
    let base : Addition := .material "base" none [("liquid", .integer 1)]
    let asset : Addition :=
      .material "asset" (some "base") [("costarring", .integer 2), ("liquid", .integer 3)]
    ∃ table, ([base, asset].foldl Addition.apply empty).declared? (.ofReference "asset") = some table ∧
      table.Ascending ∧ table.property? (.ofName "liquid") =
        some (.declared (.ofName "liquid") (.integer 2)) := by
  intro base asset
  have present : (([base, asset].foldl Addition.apply empty).entries.get?
      (.ofReference "asset")).isSome := by decide +kernel
  obtain ⟨table, blueprint, own, inherited, declared, owns, -, ascending, -, properties⟩ :=
    declared?_table .empty [base, asset] present
  obtain ⟨rfl, rfl⟩ := @Owns.eq_of_append_self _ [base] asset _ _ owns
  have first : firstValue? asset.values (.ofName "liquid") = some (.integer 2) := by decide +kernel
  refine ⟨table, declared, ascending, ?_⟩
  rw [(properties (.ofName "liquid")).2, first]
  rfl

end Tables

end Catalog

end SceneForge
