import SceneForge.Proofs.Catalog.Loading

/-!
# Catalogs with one asset more

A text may list one asset more than another one. If the reference of that asset is new and
none of the other assets builds on it, a catalog of the longer text resolves all other
references as before, and every asset that was found before is found with the same
declarations, its blueprint's included.
-/

namespace SceneForge

namespace SourceAssets

variable {assets more : SourceAssets} {reference other : String} {asset : SourceAsset}

/-- There may be an asset more under a new reference, on which none of the others builds. -/
structure Gains (assets : SourceAssets) (reference : String) (more : SourceAssets) : Prop where
  new : assets.get? reference = none
  others : ∀ other ≠ reference, more.get? other = assets.get? other
  unused : ∀ other asset, assets.get? other = some asset → asset.blueprint ≠ some reference

theorem gains_insert {added : SourceAsset} (new : assets.get? reference = none)
    (unused : ∀ other asset, assets.get? other = some asset → asset.blueprint ≠ some reference) :
    assets.Gains reference (assets.insert reference added) :=
  ⟨new, fun _ different => SortedMap.get?_insert_of_ne _ _ different, unused⟩

namespace Gains

variable (gains : assets.Gains reference more)
include gains

theorem ne_of_listed (listed : assets.get? other = some asset) : other ≠ reference := by
  rintro rfl
  rw [gains.new] at listed
  cases listed

theorem listed (listed : assets.get? other = some asset) : more.get? other = some asset :=
  (gains.others other (gains.ne_of_listed listed)).trans listed

theorem hasId_iff (different : other ≠ reference) {id : AssetId} :
    more.HasId other id ↔ assets.HasId other id := by
  rw [HasId, HasId, gains.others other different]

/-- A reference is resolved as before, unless it is the new one, which was unknown. -/
theorem resolve?_eq_or (other : String) :
    more.resolve? other = assets.resolve? other ∨
      other = reference ∧ assets.resolve? other = none := by
  rw [resolve?, resolve?]
  split
  next => exact .inl rfl
  next =>
    by_cases same : other = reference
    · subst same
      exact .inr ⟨rfl, by rw [gains.new, Option.map_none]⟩
    · exact .inl (by rw [gains.others other same])

/-- What a declaration denotes, it still denotes. -/
theorem denotes {declaration : Declaration} {value : PropertyValue}
    (denotes : declaration.Denotes assets value) : declaration.Denotes more value := by
  cases denotes with
  | plain known read => exact .plain known read
  | texture known read listed =>
      refine .texture known read ?_
      rcases gains.resolve?_eq_or _ with same | ⟨-, unlisted⟩
      · exact same.trans listed
      · rw [unlisted] at listed
        cases listed

theorem values {properties : List MaterialProperty} (values : assets.Values asset properties) :
    more.Values asset properties :=
  values.imp fun _ _ ⟨value, denotes, same⟩ => ⟨value, gains.denotes denotes, same⟩

end Gains

end SourceAssets

/-- A declaration denotes one value only. -/
theorem Declaration.Denotes.unique {assets : SourceAssets} {declaration : Declaration}
    {value second : PropertyValue} (denotes : declaration.Denotes assets value)
    (denotesToo : declaration.Denotes assets second) : value = second := by
  cases denotes with
  | plain known read =>
      cases denotesToo with
      | plain knownToo readToo =>
          cases known.symm.trans knownToo
          cases read.symm.trans readToo
          rfl
      | texture knownToo readToo _ =>
          cases known.symm.trans knownToo
          cases read.symm.trans readToo
  | texture known read listed =>
      cases denotesToo with
      | plain knownToo readToo =>
          cases known.symm.trans knownToo
          cases read.symm.trans readToo
      | texture knownToo readToo listedToo =>
          cases known.symm.trans knownToo
          cases read.symm.trans readToo
          cases listed.symm.trans listedToo
          rfl

/-- The properties of an asset have one value each. -/
theorem SourceAssets.Values.unique {assets : SourceAssets} {asset : SourceAsset}
    {properties others : List MaterialProperty} (values : assets.Values asset properties)
    (valuesToo : assets.Values asset others) : properties = others := by
  refine List.right_unique_forall₂' ?_ values valuesToo
  rintro declared _ _ ⟨value, denotes, rfl⟩ ⟨second, denotesToo, rfl⟩
  rw [denotes.unique denotesToo]

namespace Catalog

/-- An accepted catalog has been filled in with all assets that its text lists. -/
theorem filled_of_read {text : String} {assets : SourceAssets} {catalog : Catalog}
    (listed : readAssets text = .ok assets) (accepted : read text = .ok catalog) :
    Filled assets assets.entries catalog := by
  obtain ⟨same, parsed, passes⟩ := bind_eq_ok_iff.mp accepted
  cases listed.symm.trans (mapError_eq_ok_iff.mp parsed)
  obtain ⟨start, first, second⟩ := bind_eq_ok_iff.mp passes
  have entered := entered_of_foldlM (List.append_nil assets.entries).symm first
  exact filled_of_foldlM entered (List.append_nil assets.entries).symm second

/-- A catalog knows what another one knows, and may know one reference more. -/
structure Extends (other catalog : Catalog) (reference : String) : Prop where
  resolve : ∀ name, other.resolve? name = catalog.resolve? name ∨
    name = reference ∧ catalog.resolve? name = none
  declared : ∀ name id, catalog.resolve? name = some id → id.isValid →
    other.declared? id = catalog.declared? id

section Gained

variable {assets more : SourceAssets} {reference : String} {catalog other : Catalog} {id : AssetId}
  {entry : CatalogEntry} (gains : assets.Gains reference more)
  (filled : Filled assets assets.entries catalog) (filledToo : Filled more more.entries other)
include gains filled filledToo

/-- What was found under an identifier still is. -/
theorem found_of_gains (found : catalog.entries.get? id = some entry) :
    other.entries.get? id = some entry := by
  obtain ⟨asset, listed, rfl⟩ := filled.only id entry found
  obtain ⟨properties, values, there⟩ := filled.listed.found _ asset listed
  obtain ⟨others, valuesToo, thereToo⟩ := filledToo.listed.found _ asset (gains.listed listed)
  rw [thereToo, ← (gains.values values).unique valuesToo, ← there, found]

/-- A blueprint of a known asset has the identifier that it had. -/
theorem ids_of_gains {blueprint : String} (different : blueprint ≠ reference) :
    other.ids.get? blueprint = catalog.ids.get? blueprint := by
  refine Option.ext fun id => ?_
  rw [filledToo.ids, filled.ids, gains.hasId_iff different]

/-- What a known asset has of its blueprint, it still has. -/
theorem inherited_of_gains (found : catalog.entries.get? id = some entry) :
    other.inherited entry = catalog.inherited entry := by
  rw [inherited, inherited]
  cases builds : entry.blueprint with
  | none => rfl
  | some blueprint =>
      obtain ⟨asset, listed, rfl⟩ := filled.only id entry found
      obtain ⟨properties, -, there⟩ := filled.listed.found _ asset listed
      have own := congrArg CatalogEntry.blueprint (Option.some.inj (there.symm.trans found))
      have different : blueprint ≠ reference := by
        rintro rfl
        exact gains.unused _ asset listed (own.trans builds)
      dsimp only [Option.bind_eq_bind, Option.bind_some]
      rw [ids_of_gains gains filled filledToo different]
      cases known : catalog.ids.get? blueprint with
      | none => rfl
      | some base =>
          obtain ⟨source, listedToo, rfl⟩ := (filled.ids blueprint base).mp known
          obtain ⟨declared, -, found⟩ := filled.listed.found blueprint source listedToo
          rw [Option.bind_some, Option.bind_some, found,
            found_of_gains gains filled filledToo found]

/-- Among all other references and the assets behind them nothing changes. -/
theorem extends_of_gains : other.Extends catalog reference where
  resolve name := by
    rw [filledToo.resolve, filled.resolve]
    exact gains.resolve?_eq_or name
  declared name id resolved valid := by
    rw [resolve?] at resolved
    split at resolved
    next =>
      cases resolved
      cases valid
    next =>
      obtain ⟨asset, listed, rfl⟩ := (filled.ids name id).mp resolved
      obtain ⟨properties, -, found⟩ := filled.listed.found name asset listed
      rw [declared?, declared?, found, found_of_gains gains filled filledToo found,
        Option.map_some, Option.map_some, inherited_of_gains gains filled filledToo found]

end Gained

end Catalog

end SceneForge
