import SceneForge.Catalog.Reading
import SceneForge.Proofs.Catalog.Building
import SceneForge.Proofs.Material
import SceneForge.Proofs.Text.Order

/-!
# Catalogs read from texts

Which texts that list assets are accepted as catalogs, what an accepted one is a catalog of,
and which of several problems is reported. Reading goes through the assets twice. The first
pass enters every asset under its identifier and fails at the first asset whose identifier
an earlier one has; the second pass fills in what the assets declare, when all references
are known already, and fails at the first property without a value.
-/

namespace SceneForge

open Text (utf8)

/-- The assets that a text lists, by reference. -/
abbrev SourceAssets := SortedMap String SourceAsset

namespace SourceAssets

variable (assets : SourceAssets)

/-- A reference is listed, and its asset has an identifier: its own or the derived one. -/
def HasId (reference : String) (id : AssetId) : Prop :=
  ∃ asset, assets.get? reference = some asset ∧ asset.idFor reference = id

/-- No two assets share an identifier. -/
def Distinct : Prop :=
  ∀ first second id, assets.HasId first id → assets.HasId second id → first = second

/-- The identifier of a listed reference; the empty one stands for no asset. -/
def resolve? (reference : String) : Option AssetId :=
  if reference.isEmpty then some .invalid
  else (assets.get? reference).map (·.idFor reference)

/-- The asset with a reference declares a property. -/
def Declares (reference name : String) (declaration : Declaration) : Prop :=
  ∃ asset, assets.get? reference = some asset ∧ asset.properties.get? name = some declaration

/-- Two assets share an identifier, the first one before the second in the order of bytes. -/
def Clash (first second : String) (id : AssetId) : Prop :=
  utf8 first < utf8 second ∧ assets.HasId first id ∧ assets.HasId second id

end SourceAssets

namespace Declaration

variable (assets : SourceAssets) (declaration : Declaration)

/-- The values of a declaration whose textures are looked up among all assets: none, or
one. -/
inductive Denotes : PropertyValue → Prop where
  | plain {type : ValueType} {value : PropertyValue}
      (known : ValueType.ofName? declaration.type = some type)
      (read : AuthoredValue.ofJson type declaration.value = .ok (.plain value)) : Denotes value
  | texture {type : ValueType} {reference : String} {id : AssetId}
      (known : ValueType.ofName? declaration.type = some type)
      (read : AuthoredValue.ofJson type declaration.value = .ok (.texture reference))
      (listed : assets.resolve? reference = some id) : Denotes (.texture id)

/-- The problem of a declaration without a value. -/
inductive Faulty (name : String) : FieldError → Prop where
  | unknownType (unknown : ValueType.ofName? declaration.type = none) :
      Faulty name (.unknownName "ValueType" declaration.type (ValueType.all.map (·.name)))
  | malformed {type : ValueType} {fault : FieldFault}
      (known : ValueType.ofName? declaration.type = some type)
      (failed : AuthoredValue.ofJson type declaration.value = .error fault) :
      Faulty name (.invalid name fault)
  | unresolved {type : ValueType} {reference : String}
      (known : ValueType.ofName? declaration.type = some type)
      (read : AuthoredValue.ofJson type declaration.value = .ok (.texture reference))
      (unlisted : assets.resolve? reference = none) : Faulty name (.unresolved name reference)

/-- A value has the type that is declared. -/
theorem Denotes.type_eq {assets : SourceAssets} {declaration : Declaration} {value : PropertyValue}
    (denotes : declaration.Denotes assets value) :
    ValueType.ofName? declaration.type = some value.type := by
  cases denotes with
  | plain known read => rw [known, AuthoredValue.type_of_ofJson_plain read]
  | texture known read _ =>
      rw [known, AuthoredValue.type_of_ofJson_texture read]
      rfl

end Declaration

namespace SourceAssets

variable (assets : SourceAssets)

/-- The assets of the first clash: of the references with an identifier that an earlier one
has, the second is the least. -/
def FirstClash (first second : String) (id : AssetId) : Prop :=
  assets.Clash first second id ∧
    ∀ other later shared, assets.Clash other later shared → ¬ utf8 later < utf8 second

/-- The first declaration without a value, in the order of assets and then of properties. -/
def FirstFault (reference name : String) (error : FieldError) : Prop :=
  (∃ declaration, assets.Declares reference name declaration ∧
    declaration.Faulty assets name error) ∧
  ∀ other property declaration fault, assets.Declares other property declaration →
    declaration.Faulty assets property fault →
    ¬ (utf8 other < utf8 reference ∨ other = reference ∧ utf8 property < utf8 name)

/-- The properties that stand for those of an asset, each with its value. -/
def Values (asset : SourceAsset) (properties : List MaterialProperty) : Prop :=
  List.Forall₂ (fun declared property => ∃ value,
    declared.2.Denotes assets value ∧ property = .declared (.ofName declared.1) value)
    asset.properties.entries properties

/-- A catalog is one of the assets. -/
structure Listed (catalog : Catalog) : Prop where
  size : catalog.size = assets.size
  resolve : ∀ reference, catalog.resolve? reference = assets.resolve? reference
  /-- Every asset is found under its identifier, with its blueprint and the values of what it
  declares. -/
  found : ∀ reference asset, assets.get? reference = some asset →
    ∃ properties, assets.Values asset properties ∧
      catalog.entries.get? (asset.idFor reference) =
        some ⟨reference, asset.blueprint, .ofDeclarations properties⟩
  /-- Nothing else is found. -/
  only : ∀ id entry, catalog.entries.get? id = some entry → assets.HasId entry.reference id

end SourceAssets

namespace Catalog

section Values

variable {assets : SourceAssets} {catalog : Catalog} {name : String} {declaration : Declaration}

theorem declaredValue_of_unknown (unknown : ValueType.ofName? declaration.type = none) :
    catalog.declaredValue name declaration =
      .error (.unknownName "ValueType" declaration.type (ValueType.all.map (·.name))) := by
  rw [declaredValue, unknown]

theorem declaredValue_of_error {type : ValueType} {fault : FieldFault}
    (known : ValueType.ofName? declaration.type = some type)
    (failed : AuthoredValue.ofJson type declaration.value = .error fault) :
    catalog.declaredValue name declaration = .error (.invalid name fault) := by
  rw [declaredValue, known]
  simp only [AssetContext.propertyValue, failed]
  rfl

theorem declaredValue_of_plain {type : ValueType} {value : PropertyValue}
    (known : ValueType.ofName? declaration.type = some type)
    (read : AuthoredValue.ofJson type declaration.value = .ok (.plain value)) :
    catalog.declaredValue name declaration = .ok value := by
  rw [declaredValue, known]
  simp only [AssetContext.propertyValue, read]
  rfl

theorem declaredValue_of_texture {type : ValueType} {reference : String}
    (known : ValueType.ofName? declaration.type = some type)
    (read : AuthoredValue.ofJson type declaration.value = .ok (.texture reference)) :
    catalog.declaredValue name declaration =
      match catalog.resolve? reference with
      | some id => .ok (.texture id)
      | none => .error (.unresolved name reference) := by
  rw [declaredValue, known]
  simp only [AssetContext.propertyValue, read]
  let looked : Extraction Unit PropertyValue := .texture <$> catalog.context.resolveIn name reference
  change (looked.run.run ()).1 = _
  simp only [looked, AssetContext.resolveIn, context, resolve]
  cases catalog.resolve? reference <;> rfl

variable (known : ∀ reference, catalog.resolve? reference = assets.resolve? reference)
include known

theorem declaredValue_of_denotes {value : PropertyValue} (denotes : declaration.Denotes assets value) :
    catalog.declaredValue name declaration = .ok value := by
  cases denotes with
  | plain type read => exact declaredValue_of_plain type read
  | texture type read listed => rw [declaredValue_of_texture type read, known, listed]

theorem declaredValue_of_faulty {error : FieldError} (faulty : declaration.Faulty assets name error) :
    catalog.declaredValue name declaration = .error error := by
  cases faulty with
  | unknownType unknown => exact declaredValue_of_unknown unknown
  | malformed type failed => exact declaredValue_of_error type failed
  | unresolved type read unlisted => rw [declaredValue_of_texture type read, known, unlisted]

omit known in
/-- A declaration has a value or a problem. -/
theorem denotes_or_faulty (assets : SourceAssets) (name : String) (declaration : Declaration) :
    (∃ value, declaration.Denotes assets value) ∨ ∃ error, declaration.Faulty assets name error := by
  cases type : ValueType.ofName? declaration.type with
  | none => exact .inr ⟨_, .unknownType type⟩
  | some expected =>
      cases read : AuthoredValue.ofJson expected declaration.value with
      | error fault => exact .inr ⟨_, .malformed type read⟩
      | ok authored =>
          cases authored with
          | plain value => exact .inl ⟨value, .plain type read⟩
          | texture reference =>
              cases resolved : assets.resolve? reference with
              | none => exact .inr ⟨_, .unresolved type read resolved⟩
              | some id => exact .inl ⟨.texture id, .texture type read resolved⟩

/-- Once the references are known, a declaration is read as what it denotes. -/
theorem declaredValue_eq_ok_iff {value : PropertyValue} :
    catalog.declaredValue name declaration = .ok value ↔ declaration.Denotes assets value := by
  refine ⟨fun read => ?_, declaredValue_of_denotes known⟩
  rcases denotes_or_faulty assets name declaration with ⟨other, denotes⟩ | ⟨error, faulty⟩
  · rw [declaredValue_of_denotes known denotes] at read
    cases read
    exact denotes
  · rw [declaredValue_of_faulty known faulty] at read
    cases read

/-- Once the references are known, a declaration fails with its problem. -/
theorem declaredValue_eq_error_iff {error : FieldError} :
    catalog.declaredValue name declaration = .error error ↔
      declaration.Faulty assets name error := by
  refine ⟨fun failed => ?_, declaredValue_of_faulty known⟩
  rcases denotes_or_faulty assets name declaration with ⟨value, denotes⟩ | ⟨other, faulty⟩
  · rw [declaredValue_of_denotes known denotes] at failed
    cases failed
  · rw [declaredValue_of_faulty known faulty] at failed
    cases failed
    exact faulty

omit known in
/-- Nothing with a value has a problem. -/
theorem not_faulty_of_denotes {value : PropertyValue} {error : FieldError}
    (denotes : declaration.Denotes assets value) : ¬ declaration.Faulty assets name error := by
  rintro (unknown | ⟨type, failed⟩ | ⟨type, read, unlisted⟩) <;>
    rcases denotes with ⟨same, plain⟩ | ⟨same, texture, listed⟩ <;> simp_all

end Values

section Pass

variable {assets : SourceAssets} {catalog next : Catalog} {reference : String} {asset : SourceAsset}
  {done rest : List (String × SourceAsset)}

/-- What the first pass leads to once it has seen some of the assets. -/
structure Entered (done : List (String × SourceAsset)) (catalog : Catalog) : Prop where
  ids : ∀ reference id, catalog.ids.get? reference = some id ↔
    ∃ asset, (reference, asset) ∈ done ∧ asset.idFor reference = id
  entries : ∀ id entry, catalog.entries.get? id = some entry ↔
    ∃ reference asset, (reference, asset) ∈ done ∧ asset.idFor reference = id ∧
      entry = ⟨reference, none, []⟩
  size : catalog.size = done.length

theorem entered_empty : Entered [] empty where
  ids reference id := by simp [empty]
  entries id entry := by simp [empty]
  size := rfl

/-- An asset is entered if its identifier is free. -/
theorem insertNew_eq_ok_iff {id : AssetId} :
    catalog.insertNew reference id = .ok next ↔
      catalog.entries.get? id = none ∧ catalog.insert reference id = next := by
  rw [insertNew]
  cases catalog.entries.get? id <;> simp

/-- An asset is rejected if another one has its identifier. -/
theorem insertNew_eq_error_iff {id : AssetId} {error : CatalogError} :
    catalog.insertNew reference id = .error error ↔
      ∃ entry, catalog.entries.get? id = some entry ∧
        error = .duplicateId entry.reference reference id := by
  rw [insertNew]
  cases catalog.entries.get? id <;> simp [eq_comm]

/-- Entering an asset under a new reference and a free identifier. -/
theorem Entered.insert (entered : Entered done catalog)
    (new : ∀ other, (reference, other) ∉ done)
    (free : catalog.entries.get? (asset.idFor reference) = none) :
    Entered (done ++ [(reference, asset)]) (catalog.insert reference (asset.idFor reference)) := by
  have unknown : catalog.ids.get? reference = none := by
    rw [Option.eq_none_iff_forall_ne_some]
    intro id found
    obtain ⟨other, member, -⟩ := (entered.ids reference id).mp found
    exact new other member
  have inserted : catalog.insert reference (asset.idFor reference) =
      { catalog with
        ids := catalog.ids.insert reference (asset.idFor reference)
        entries := catalog.entries.insert (asset.idFor reference) ⟨reference, none, []⟩ } := by
    rw [Catalog.insert, unknown]
  rw [inserted]
  refine ⟨fun other id => ?_, fun id entry => ?_, ?_⟩
  · rw [SortedMap.get?_insert]
    split
    next same =>
      subst same
      simp [new]
    next different => simp [entered.ids, different]
  · rw [SortedMap.get?_insert]
    split
    next same =>
      subst same
      have unused (other : String) (source : SourceAsset) (member : (other, source) ∈ done) :
          source.idFor other ≠ asset.idFor reference := fun shared => by
        rw [(entered.entries _ _).mpr ⟨other, source, member, shared, rfl⟩] at free
        cases free
      constructor
      · rintro ⟨⟩
        exact ⟨reference, asset, by simp, rfl, rfl⟩
      · rintro ⟨other, source, member, shared, rfl⟩
        rcases List.mem_append.mp member with earlier | last
        · exact absurd shared (unused other source earlier)
        · obtain ⟨rfl, rfl⟩ := Prod.mk.inj (List.mem_singleton.mp last)
          rfl
    next different =>
      rw [entered.entries]
      constructor
      · rintro ⟨other, source, member, shared, rfl⟩
        exact ⟨other, source, List.mem_append_left _ member, shared, rfl⟩
      · rintro ⟨other, source, member, shared, rfl⟩
        rcases List.mem_append.mp member with earlier | last
        · exact ⟨other, source, earlier, shared, rfl⟩
        · obtain ⟨rfl, rfl⟩ := Prod.mk.inj (List.mem_singleton.mp last)
          exact absurd shared.symm different
  · rw [List.length_append, ← entered.size]
    exact SortedMap.size_insert_of_none _ free

/-- The first pass at one asset. -/
def enter (catalog : Catalog) (listed : String × SourceAsset) : Except CatalogError Catalog :=
  catalog.insertNew listed.1 (listed.2.idFor listed.1)

/-- In the assets' order, no reference comes twice. -/
theorem not_mem_before (split : assets.entries = done ++ (reference, asset) :: rest)
    (other : SourceAsset) : (reference, other) ∉ done := fun member => by
  have less := ((SortedMap.mem_before_iff split).mp member).2
  simp at less

theorem entered_of_foldlM (split : assets.entries = done ++ rest)
    (passed : done.foldlM enter empty = .ok catalog) : Entered done catalog := by
  refine foldlM_induct Entered entered_empty ?_ split passed
  rintro done ⟨reference, asset⟩ rest catalog next split entered inserted
  obtain ⟨free, rfl⟩ := insertNew_eq_ok_iff.mp inserted
  exact entered.insert (not_mem_before split) free

/-- Assets that were entered have different identifiers. -/
theorem Entered.eq_of_idFor_eq (entered : Entered done catalog) {first second : String}
    {one other : SourceAsset} (member : (first, one) ∈ done) (another : (second, other) ∈ done)
    (shared : one.idFor first = other.idFor second) : first = second := by
  have found := (entered.entries _ _).mpr ⟨first, one, member, shared, rfl⟩
  rw [(entered.entries _ _).mpr ⟨second, other, another, rfl, rfl⟩] at found
  cases found
  rfl

/-- If all assets can be entered, their identifiers are distinct. -/
theorem Entered.distinct (entered : Entered assets.entries catalog) : assets.Distinct := by
  rintro first second id ⟨one, found, rfl⟩ ⟨other, another, shared⟩
  rw [SortedMap.get?_eq_some_iff] at found another
  exact entered.eq_of_idFor_eq found another shared.symm

/-- The first pass fails at the first clash. -/
theorem firstClash_of_foldlM {error : CatalogError}
    (failed : assets.entries.foldlM enter empty = .error error) :
    ∃ first second id, assets.FirstClash first second id ∧
      error = .duplicateId first second id := by
  obtain ⟨done, ⟨second, asset⟩, rest, catalog, split, passed, rejected⟩ :=
    foldlM_eq_error_iff.mp failed
  have entered := entered_of_foldlM split passed
  have earlier {reference : String} {source : SourceAsset} :
      (reference, source) ∈ done ↔
        assets.get? reference = some source ∧ utf8 reference < utf8 second := by
    rw [SortedMap.mem_before_iff split, SortedMap.get?_eq_some_iff, Text.utf8_lt_utf8_iff,
      Text.compare_eq_lt_iff]
  have last : assets.get? second = some asset := by
    rw [SortedMap.get?_eq_some_iff, split]
    exact List.mem_append_right _ (List.mem_cons_self ..)
  obtain ⟨entry, taken, rfl⟩ := insertNew_eq_error_iff.mp rejected
  obtain ⟨first, source, member, shared, rfl⟩ := (entered.entries _ _).mp taken
  obtain ⟨found, before⟩ := earlier.mp member
  refine ⟨first, second, asset.idFor second,
    ⟨⟨before, ⟨source, found, shared⟩, ⟨asset, last, rfl⟩⟩, ?_⟩, rfl⟩
  rintro other later id ⟨order, ⟨one, otherFound, rfl⟩, ⟨two, laterFound, shared⟩⟩ less
  -- A clash before the second asset would be among those entered already.
  have same := entered.eq_of_idFor_eq (earlier.mpr ⟨otherFound, List.lt_trans order less⟩)
    (earlier.mpr ⟨laterFound, less⟩) shared.symm
  rw [same] at order
  exact List.lt_irrefl _ order

/-- What the second pass leads to once it has seen some of the assets. -/
structure Filled (assets : SourceAssets) (done : List (String × SourceAsset))
    (catalog : Catalog) : Prop where
  ids : ∀ reference id, catalog.ids.get? reference = some id ↔ assets.HasId reference id
  size : catalog.size = assets.size
  only : ∀ id entry, catalog.entries.get? id = some entry → assets.HasId entry.reference id
  entries : ∀ reference asset, assets.get? reference = some asset →
    ∃ entry, catalog.entries.get? (asset.idFor reference) = some entry ∧
      entry.reference = reference
  filled : ∀ reference asset, (reference, asset) ∈ done →
    ∃ properties, assets.Values asset properties ∧
      catalog.entries.get? (asset.idFor reference) =
        some ⟨reference, asset.blueprint, .ofDeclarations properties⟩

/-- The second pass starts with what the first one leads to. -/
theorem Entered.filled (entered : Entered assets.entries catalog) : Filled assets [] catalog where
  ids reference id := by
    rw [entered.ids]
    simp only [SourceAssets.HasId, SortedMap.get?_eq_some_iff]
  size := entered.size
  only id entry found := by
    obtain ⟨reference, asset, member, same, rfl⟩ := (entered.entries id entry).mp found
    exact ⟨asset, SortedMap.get?_eq_some_iff.mpr member, same⟩
  entries reference asset found :=
    ⟨_, (entered.entries _ _).mpr
      ⟨reference, asset, SortedMap.get?_eq_some_iff.mp found, rfl, rfl⟩, rfl⟩
  filled _ _ member := nomatch member

/-- In the second pass, all references are known. -/
theorem Filled.resolve (filled : Filled assets done catalog) (reference : String) :
    catalog.resolve? reference = assets.resolve? reference := by
  rw [resolve?, SourceAssets.resolve?]
  split
  next => rfl
  next =>
    refine Option.ext fun id => ?_
    rw [filled.ids, SourceAssets.HasId, Option.map_eq_some_iff]

/-- The second pass at one declaration. -/
def declaredProperty (catalog : Catalog) (reference : String) (declared : String × Declaration) :
    Except CatalogError MaterialProperty := do
  let value ← (catalog.declaredValue declared.1 declared.2).mapError (.property reference declared.1)
  return .declared (.ofName declared.1) value

/-- The second pass at one asset. -/
def fill (catalog : Catalog) (listed : String × SourceAsset) : Except CatalogError Catalog :=
  catalog.addDeclarations listed.1 listed.2

section Known

variable (known : ∀ reference, catalog.resolve? reference = assets.resolve? reference)
include known

theorem declaredProperty_eq_ok_iff {declared : String × Declaration} {property : MaterialProperty} :
    catalog.declaredProperty reference declared = .ok property ↔
      ∃ value, declared.2.Denotes assets value ∧
        property = .declared (.ofName declared.1) value := by
  rw [declaredProperty, bind_eq_ok_iff]
  refine exists_congr fun value => ?_
  rw [mapError_eq_ok_iff, declaredValue_eq_ok_iff known]
  exact and_congr_right fun _ => ⟨fun same => (Except.ok.inj same).symm, fun same => same ▸ rfl⟩

theorem declaredProperty_eq_error_iff {declared : String × Declaration} {error : CatalogError} :
    catalog.declaredProperty reference declared = .error error ↔
      ∃ fault, declared.2.Faulty assets declared.1 fault ∧
        error = .property reference declared.1 fault := by
  rw [declaredProperty, bind_eq_error_iff, or_iff_left nofun, mapError_eq_error_iff]
  refine exists_congr fun fault => ?_
  rw [declaredValue_eq_error_iff known, eq_comm (a := error)]

/-- The declarations of an asset are filled in if all of them have a value. -/
theorem addDeclarations_eq_ok_iff {id : AssetId} (listed : catalog.ids.get? reference = some id) :
    catalog.addDeclarations reference asset = .ok next ↔
      ∃ properties, assets.Values asset properties ∧
        catalog.declare id asset.blueprint properties = next := by
  have whole : catalog.addDeclarations reference asset =
      asset.properties.entries.mapM (catalog.declaredProperty reference) >>= fun properties =>
        .ok (catalog.declare id asset.blueprint properties) := by
    rw [addDeclarations, listed]
    rfl
  simp only [whole, bind_eq_ok_iff, mapM_eq_ok_iff, declaredProperty_eq_ok_iff known,
    Except.ok.injEq, SourceAssets.Values]

/-- The declarations of an asset fail at the first one without a value. -/
theorem addDeclarations_eq_error_iff {error : CatalogError} :
    catalog.addDeclarations reference asset = .error error ↔
      ∃ before declared after fault,
        asset.properties.entries = before ++ declared :: after ∧
        (∀ other ∈ before, ∃ value, other.2.Denotes assets value) ∧
        declared.2.Faulty assets declared.1 fault ∧
        error = .property reference declared.1 fault := by
  have whole : catalog.addDeclarations reference asset = .error error ↔
      asset.properties.entries.mapM (catalog.declaredProperty reference) = .error error := by
    change (asset.properties.entries.mapM (catalog.declaredProperty reference) >>= _) = _ ↔ _
    rw [bind_eq_error_iff, or_iff_left]
    rintro ⟨properties, -, impossible⟩
    split at impossible <;> cases impossible
  rw [whole, mapM_eq_error_iff]
  constructor
  · rintro ⟨before, declared, after, split, earlier, failed⟩
    obtain ⟨fault, faulty, rfl⟩ := (declaredProperty_eq_error_iff known).mp failed
    refine ⟨before, declared, after, fault, split, fun other member => ?_, faulty, rfl⟩
    obtain ⟨property, read⟩ := earlier other member
    obtain ⟨value, denotes, -⟩ := (declaredProperty_eq_ok_iff known).mp read
    exact ⟨value, denotes⟩
  · rintro ⟨before, declared, after, fault, split, earlier, faulty, rfl⟩
    refine ⟨before, declared, after, split, fun other member => ?_,
      (declaredProperty_eq_error_iff known).mpr ⟨fault, faulty, rfl⟩⟩
    obtain ⟨value, denotes⟩ := earlier other member
    exact ⟨_, (declaredProperty_eq_ok_iff known).mpr ⟨value, denotes, rfl⟩⟩

end Known

/-- Assets that are found under their identifiers have different ones. -/
theorem Filled.distinct (filled : Filled assets done catalog) : assets.Distinct := by
  rintro first second id ⟨one, found, rfl⟩ ⟨other, another, shared⟩
  obtain ⟨entry, present, rfl⟩ := filled.entries _ _ found
  obtain ⟨same, again, rfl⟩ := filled.entries _ _ another
  rw [shared, present] at again
  cases again
  rfl

/-- The second pass at one asset fills it in and keeps the others. -/
theorem Filled.declare (filled : Filled assets done catalog)
    (found : assets.get? reference = some asset) (new : ∀ other, (reference, other) ∉ done)
    {properties : List MaterialProperty} (values : assets.Values asset properties) :
    Filled assets (done ++ [(reference, asset)])
      (catalog.declare (asset.idFor reference) asset.blueprint properties) := by
  obtain ⟨entry, present, rfl⟩ := filled.entries _ _ found
  have declared : catalog.declare (asset.idFor entry.reference) asset.blueprint properties =
      { catalog with
        entries := catalog.entries.insert (asset.idFor entry.reference)
          ⟨entry.reference, asset.blueprint, .ofDeclarations properties⟩ } := by
    rw [Catalog.declare, present]
  rw [declared]
  refine ⟨filled.ids, ?_, fun id other => ?_, fun other source listed => ?_,
    fun other source member => ?_⟩
  · exact (SortedMap.size_insert_of_some _ present).trans filled.size
  · rw [SortedMap.get?_insert]
    split
    next same =>
      rintro ⟨⟩
      exact ⟨asset, found, same.symm⟩
    next => exact filled.only id other
  · rw [SortedMap.get?_insert]
    split
    next shared =>
      refine ⟨_, rfl, ?_⟩
      exact filled.distinct _ _ _ ⟨asset, found, rfl⟩ ⟨source, listed, shared⟩
    next => exact filled.entries other source listed
  · rw [SortedMap.get?_insert]
    rcases List.mem_append.mp member with earlier | last
    · obtain ⟨others, theirs, there⟩ := filled.filled other source earlier
      split
      next shared =>
        have same := filled.distinct _ _ _ (filled.only _ _ there) ⟨asset, found, shared.symm⟩
        exact absurd (same ▸ earlier) (new source)
      next => exact ⟨others, theirs, there⟩
    · obtain ⟨rfl, rfl⟩ := Prod.mk.inj (List.mem_singleton.mp last)
      exact ⟨properties, values, if_pos rfl⟩

theorem filled_of_foldlM {start : Catalog} (entered : Entered assets.entries start)
    (split : assets.entries = done ++ rest) (passed : done.foldlM fill start = .ok catalog) :
    Filled assets done catalog := by
  refine foldlM_induct (Filled assets) entered.filled ?_ split passed
  rintro done ⟨reference, asset⟩ rest catalog next split filled ran
  have found : assets.get? reference = some asset := by
    rw [SortedMap.get?_eq_some_iff, split]
    exact List.mem_append_right _ (List.mem_cons_self ..)
  have listed := (filled.ids reference _).mpr ⟨asset, found, rfl⟩
  obtain ⟨properties, values, rfl⟩ := (addDeclarations_eq_ok_iff filled.resolve listed).mp ran
  exact filled.declare found (not_mem_before split) values

/-- What an asset declares has values if the asset has been filled in. -/
theorem Filled.denotes (filled : Filled assets done catalog) (member : (reference, asset) ∈ done)
    {name : String} {declaration : Declaration}
    (declared : asset.properties.get? name = some declaration) :
    ∃ value, declaration.Denotes assets value := by
  obtain ⟨properties, values, -⟩ := filled.filled reference asset member
  obtain ⟨property, -, value, denotes, -⟩ :=
    exists_of_forall₂ values (SortedMap.get?_eq_some_iff.mp declared)
  exact ⟨value, denotes⟩

/-- The second pass fails at the first fault. -/
theorem firstFault_of_foldlM {start : Catalog} (entered : Entered assets.entries start)
    {error : CatalogError} (failed : assets.entries.foldlM fill start = .error error) :
    ∃ reference name fault, assets.FirstFault reference name fault ∧
      error = .property reference name fault := by
  obtain ⟨done, ⟨reference, asset⟩, rest, catalog, split, passed, failed⟩ :=
    foldlM_eq_error_iff.mp failed
  have filled := filled_of_foldlM entered split passed
  have found : assets.get? reference = some asset := by
    rw [SortedMap.get?_eq_some_iff, split]
    exact List.mem_append_right _ (List.mem_cons_self ..)
  obtain ⟨before, ⟨name, declaration⟩, after, fault, properties, earlier, faulty, rfl⟩ :=
    (addDeclarations_eq_error_iff filled.resolve).mp failed
  have declared : asset.properties.get? name = some declaration := by
    rw [SortedMap.get?_eq_some_iff, properties]
    exact List.mem_append_right _ (List.mem_cons_self ..)
  refine ⟨reference, name, fault, ⟨⟨declaration, ⟨asset, found, declared⟩, faulty⟩, ?_⟩, rfl⟩
  rintro other property declaration' fault' ⟨source, listed, theirs⟩ faulty'
  rintro (less | ⟨rfl, less⟩)
  · rw [Text.utf8_lt_utf8_iff, ← Text.compare_eq_lt_iff] at less
    rw [SortedMap.get?_eq_some_iff] at listed
    have member := (SortedMap.mem_before_iff split).mpr ⟨listed, less⟩
    obtain ⟨value, denotes⟩ := filled.denotes member theirs
    exact not_faulty_of_denotes denotes faulty'
  · rw [Text.utf8_lt_utf8_iff, ← Text.compare_eq_lt_iff] at less
    cases listed.symm.trans found
    rw [SortedMap.get?_eq_some_iff] at theirs
    have member := (SortedMap.mem_before_iff properties).mpr ⟨theirs, less⟩
    obtain ⟨value, denotes⟩ := earlier _ member
    exact not_faulty_of_denotes denotes faulty'

/-- After both passes, the catalog is one of the assets. -/
theorem Filled.listed (filled : Filled assets assets.entries catalog) : assets.Listed catalog where
  size := filled.size
  resolve := filled.resolve
  found reference asset found :=
    filled.filled reference asset (SortedMap.get?_eq_some_iff.mp found)
  only := filled.only

end Pass

section Whole

variable {text : String} {assets : SourceAssets}

/-- How reading a text that lists assets can end. -/
theorem read_cases (listed : readAssets text = .ok assets) :
    (∃ catalog, read text = .ok catalog ∧ assets.Distinct ∧ assets.Listed catalog ∧
      ∀ reference name declaration, assets.Declares reference name declaration →
        ∃ value, declaration.Denotes assets value) ∨
    (∃ first second id, read text = .error (.duplicateId first second id) ∧
      assets.FirstClash first second id) ∨
    ∃ reference name fault, read text = .error (.property reference name fault) ∧
      assets.Distinct ∧ assets.FirstFault reference name fault := by
  have passes : read text =
      assets.entries.foldlM enter empty >>= fun catalog => assets.entries.foldlM fill catalog := by
    rw [read, listed]
    rfl
  rw [passes]
  cases first : assets.entries.foldlM enter empty with
  | error error =>
      obtain ⟨one, other, id, clash, rfl⟩ := firstClash_of_foldlM first
      exact .inr (.inl ⟨one, other, id, rfl, clash⟩)
  | ok start =>
      have entered := entered_of_foldlM (List.append_nil assets.entries).symm first
      cases second : assets.entries.foldlM fill start with
      | error error =>
          obtain ⟨reference, name, fault, faulty, rfl⟩ := firstFault_of_foldlM entered second
          exact .inr (.inr ⟨reference, name, fault, second, entered.distinct, faulty⟩)
      | ok catalog =>
          have filled := filled_of_foldlM entered (List.append_nil assets.entries).symm second
          refine .inl ⟨catalog, second, entered.distinct, filled.listed, ?_⟩
          rintro reference name declaration ⟨asset, found, declared⟩
          exact filled.denotes (SortedMap.get?_eq_some_iff.mp found) declared

/-- An accepted catalog is one of the assets that its text lists. -/
theorem listed_of_read {catalog : Catalog} (accepted : read text = .ok catalog) :
    ∃ assets : SourceAssets, readAssets text = .ok assets ∧ assets.Distinct ∧
      assets.Listed catalog := by
  obtain ⟨assets, listed, -⟩ := bind_eq_ok_iff.mp accepted
  have listed := mapError_eq_ok_iff.mp listed
  rcases read_cases listed with ⟨_, same, distinct, loaded, -⟩ | ⟨_, _, _, rejected, -⟩ |
    ⟨_, _, _, rejected, -⟩
  · cases accepted.symm.trans same
    exact ⟨assets, listed, distinct, loaded⟩
  all_goals cases accepted.symm.trans rejected

/-- The properties that a catalog knows of an asset are declared ones, with the values that
they denote. -/
theorem declares_of_declared? {catalog : Catalog} (listed : assets.Listed catalog) {id : AssetId}
    {table : PropertyTable} {property : MaterialProperty}
    (known : catalog.declared? id = some table) (member : property ∈ table) :
    ∃ reference name declaration, assets.Declares reference name declaration ∧
      declaration.Denotes assets property.value ∧
      property = .declared (.ofName name) property.value := by
  have own {id : AssetId} {entry : CatalogEntry} (present : catalog.entries.get? id = some entry)
      (member : property ∈ entry.properties) :
      ∃ reference name declaration, assets.Declares reference name declaration ∧
        declaration.Denotes assets property.value ∧
        property = .declared (.ofName name) property.value := by
    obtain ⟨asset, found, rfl⟩ := listed.only id entry present
    obtain ⟨properties, values, there⟩ := listed.found _ asset found
    rw [there] at present
    rw [← congrArg CatalogEntry.properties (Option.some.inj present)] at member
    obtain ⟨⟨name, declaration⟩, declared, value, denotes, rfl⟩ :=
      exists_of_forall₂ values.flip (PropertyTable.mem_of_mem_ofDeclarations member)
    exact ⟨entry.reference, name, declaration,
      ⟨asset, found, SortedMap.get?_eq_some_iff.mpr declared⟩, denotes, rfl⟩
  obtain ⟨entry, present, rfl⟩ := Option.map_eq_some_iff.mp known
  rcases PropertyTable.mem_of_mem_overlay member with mine | inherited
  · exact own present mine
  · rw [Catalog.inherited] at inherited
    cases blueprint : (do
      let id ← catalog.ids.get? (← entry.blueprint)
      catalog.entries.get? id) with
    | none =>
        rw [blueprint] at inherited
        cases inherited
    | some base =>
        rw [blueprint] at inherited
        obtain ⟨reference, -, found⟩ := Option.bind_eq_some_iff.mp blueprint
        obtain ⟨other, -, found⟩ := Option.bind_eq_some_iff.mp found
        exact own found inherited

/-- Loading a catalog. A text that lists assets is accepted exactly if their identifiers are
distinct and all declarations have a value, textures being looked up among all assets. The
catalog then has as many assets as are listed, resolves the listed references and no others,
finds every asset with what it declares, and declares values of the declared types only. A
text with a shared identifier is rejected with the first clash, another one with the first
declaration without a value. -/
theorem read_spec (listed : readAssets text = .ok assets) :
    ((∃ catalog, read text = .ok catalog) ↔
      assets.Distinct ∧ ∀ reference name declaration, assets.Declares reference name declaration →
        ∃ value, declaration.Denotes assets value) ∧
    (∀ catalog, read text = .ok catalog →
      catalog.size = assets.size ∧
      (∀ reference ≠ "",
        catalog.resolve? reference = (assets.get? reference).map (·.idFor reference) ∧
        (assets.get? reference = none → ∀ field,
          ((catalog.context.resolveIn field reference : Extraction Unit AssetId).run.run ()).1 =
            .error (.unresolved field reference))) ∧
      (∀ reference asset, assets.get? reference = some asset →
        ((catalog.declared? (asset.idFor reference)).isSome ∧
          ∃ properties, assets.Values asset properties ∧
            catalog.entries.get? (asset.idFor reference) =
              some ⟨reference, asset.blueprint, .ofDeclarations properties⟩)) ∧
      ∀ id table property, catalog.declared? id = some table → property ∈ table →
        ∃ reference name declaration, assets.Declares reference name declaration ∧
          property.id = .ofName name ∧ declaration.Denotes assets property.value ∧
          ValueType.ofName? declaration.type = some property.value.type) ∧
    ∀ error, read text = .error error →
      (¬ assets.Distinct → ∃ first second id, assets.FirstClash first second id ∧
        error = .duplicateId first second id) ∧
      (assets.Distinct → ∃ reference name fault, assets.FirstFault reference name fault ∧
        error = .property reference name fault) := by
  have clashing {first second : String} {id : AssetId} (clash : assets.FirstClash first second id)
      (distinct : assets.Distinct) : False := by
    obtain ⟨⟨before, one, other⟩, -⟩ := clash
    rw [distinct first second id one other] at before
    exact List.lt_irrefl _ before
  refine ⟨⟨?_, ?_⟩, fun catalog succeeded => ?_, fun error failed => ?_⟩
  · rintro ⟨catalog, succeeded⟩
    rcases read_cases listed with ⟨_, -, distinct, -, valued⟩ | ⟨_, _, _, failed, -⟩ |
      ⟨_, _, _, failed, -⟩
    · exact ⟨distinct, valued⟩
    all_goals rw [failed] at succeeded; cases succeeded
  · rintro ⟨distinct, valued⟩
    rcases read_cases listed with ⟨catalog, succeeded, -⟩ | ⟨_, _, _, -, clash⟩ |
      ⟨reference, name, fault, -, -, ⟨declaration, declared, faulty⟩, -⟩
    · exact ⟨catalog, succeeded⟩
    · exact absurd distinct (clashing clash)
    · obtain ⟨value, denotes⟩ := valued reference name declaration declared
      exact absurd faulty (not_faulty_of_denotes denotes)
  · rcases read_cases listed with ⟨_, same, -, loaded, -⟩ | ⟨_, _, _, failed, -⟩ |
      ⟨_, _, _, failed, -⟩
    · cases same.symm.trans succeeded
      refine ⟨loaded.size, fun reference named => ⟨?_, fun unlisted field => ?_⟩,
        fun reference asset found => ⟨?_, loaded.found reference asset found⟩,
        fun id table property known member => ?_⟩
      · rw [loaded.resolve, SourceAssets.resolve?, if_neg (by simpa using named)]
      · have unresolved : catalog.resolve? reference = none := by
          rw [loaded.resolve, SourceAssets.resolve?, if_neg (by simpa using named), unlisted]
          rfl
        simp only [AssetContext.resolveIn, context, resolve, unresolved]
        rfl
      · obtain ⟨properties, -, there⟩ := loaded.found reference asset found
        rw [isSome_declared?_iff, there]
        rfl
      · obtain ⟨reference, name, declaration, declared, denotes, same⟩ :=
          declares_of_declared? loaded known member
        exact ⟨reference, name, declaration, declared, congrArg MaterialProperty.id same, denotes,
          denotes.type_eq⟩
    all_goals rw [failed] at succeeded; cases succeeded
  · rcases read_cases listed with ⟨_, succeeded, -⟩ | ⟨first, second, id, same, clash⟩ |
      ⟨reference, name, fault, same, distinct, first⟩
    · rw [succeeded] at failed
      cases failed
    · cases same.symm.trans failed
      exact ⟨fun _ => ⟨first, second, id, clash, rfl⟩, fun distinct => (clashing clash distinct).elim⟩
    · cases same.symm.trans failed
      exact ⟨fun shared => absurd distinct shared, fun _ => ⟨reference, name, fault, first, rfl⟩⟩

/-- A text in which two assets share an identifier, while the first of them declares a property
of an unknown type. -/
def sharedText : String :=
  "\x7b\"Assets\":\x7b\"a\":\x7b\"Id\":5,\"Properties\":\x7b\"P\":\x7b\"ValueType\":\"?\",\"Value\":1\x7d\x7d\x7d," ++
    "\"b\":\x7b\"Id\":5\x7d\x7d\x7d"

/-- The shared identifier for which a text is rejected, with the assets that share it. -/
def clash? : Except CatalogError Catalog → Option (String × String × AssetId)
  | .error (.duplicateId first second id) => some (first, second, id)
  | _ => none

theorem eq_duplicateId_of_clash? {outcome : Except CatalogError Catalog} {first second : String}
    {id : AssetId} (clash : clash? outcome = some (first, second, id)) :
    outcome = .error (.duplicateId first second id) := by
  rw [clash?.eq_def] at clash
  split at clash
  next =>
    cases clash
    rfl
  next => cases clash

/-- The shared identifier is reported, not the property. -/
theorem read_spec_shared :
    ∃ assets : SourceAssets, readAssets sharedText = .ok assets ∧ assets.FirstClash "a" "b" ⟨5⟩ := by
  have rejected : read sharedText = .error (.duplicateId "a" "b" ⟨5⟩) :=
    eq_duplicateId_of_clash? (by decide +kernel)
  cases listed : readAssets sharedText with
  | error category =>
      rw [read, listed] at rejected
      cases rejected
  | ok assets =>
      refine ⟨assets, rfl, ?_⟩
      have reported := (read_spec listed).2.2 _ rejected
      by_cases distinct : SourceAssets.Distinct assets
      · obtain ⟨_, _, _, -, impossible⟩ := reported.2 distinct
        cases impossible
      · obtain ⟨first, second, id, clash, same⟩ := reported.1 distinct
        cases same
        exact clash

end Whole

end Catalog

end SceneForge
