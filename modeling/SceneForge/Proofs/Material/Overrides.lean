import SceneForge.ItemKind
import SceneForge.Proofs.Compile.Steady
import SceneForge.Proofs.Material.Tables
import SceneForge.Scene.Encoding

/-!
# Declared tables with overrides

What an item that uses a material makes of the table that the material declares. Overriding
goes through the names that the item sets, one after the other, and keeps of the table all but
the values and marks of the properties that are named. So the table stays in order and
bisection goes on finding what is named, and the last value under an identifier stays.
-/

namespace SceneForge

variable {σ : Type}

/-- A question to the context itself never fails. -/
theorem asked_answer {ε α : Type} {asking : StateM σ α} {state last : σ} {value : α}
    (answered : (asking.run state).run = (value, last)) :
    asked (liftM asking : ExceptT ε (StateM σ) α) state = (.ok value, last) :=
  congrArg (fun outcome : α × σ => (Except.ok outcome.1, outcome.2)) answered

namespace PropertyTable

variable {table : PropertyTable} {id : StringId}

/-- A table with a value that is set under an identifier. -/
def override (table : PropertyTable) (id : StringId) (value : PropertyValue) : PropertyTable :=
  table.map fun property => if property.id = id then ⟨property.id, value, true⟩ else property

theorem ids_override (table : PropertyTable) (id : StringId) (value : PropertyValue) :
    (table.override id value).map (·.id) = table.map (·.id) := by
  rw [override, List.map_map]
  refine List.map_congr_left fun property _ => ?_
  rw [Function.comp_apply]
  split <;> rfl

theorem ascending_iff : table.Ascending ↔ (table.map (·.id)).Pairwise fun a b => a.raw < b.raw := by
  rw [Ascending, List.pairwise_map]

/-- Setting the value in place changes no other property. -/
theorem set_eq_override {before after : PropertyTable} {property : MaterialProperty}
    (ascending : Ascending (before ++ property :: after)) (read : PropertyValue) :
    (before ++ property :: after).set before.length ⟨property.id, read, true⟩ =
      override (before ++ property :: after) property.id read := by
  rw [Ascending, List.pairwise_append, List.pairwise_cons] at ascending
  obtain ⟨-, ⟨above, -⟩, below⟩ := ascending
  have kept (part : PropertyTable) (apart : ∀ other ∈ part, other.id ≠ property.id) :
      override part property.id read = part := by
    refine (List.map_congr_left fun other member => ?_).trans (List.map_id part)
    rw [if_neg (apart other member)]
    rfl
  have first := kept before fun other earlier =>
    StringId.ne_of_raw_lt (below other earlier property List.mem_cons_self)
  have second := kept after fun other later => (StringId.ne_of_raw_lt (above other later)).symm
  rw [override] at first second
  rw [override, List.map_append, List.map_cons, first, second, if_pos rfl]
  simp

/-- An override names a property of a table. -/
def names (table : PropertyTable) (override : String × Json.Value) : Bool :=
  (table.map (·.id)).contains (.ofName override.1)

theorem names_iff {override : String × Json.Value} :
    table.names override ↔ (table.property? (.ofName override.1)).isSome := by
  rw [names, List.contains_iff_mem, List.mem_map, isSome_property?_iff]


end PropertyTable

namespace AssetContext

variable {context : AssetContext σ} {table : PropertyTable} {name : String} {value : Json.Value}
  {state last : σ}

/-- A value that is read for a type has this type. -/
theorem type_of_propertyValue {type : ValueType} {field : String} {read : PropertyValue}
    (reads : asked (context.propertyValue type field value) state = (.ok read, last)) :
    read.type = type := by
  obtain ⟨authored, _, found, reads⟩ := asked_bind_eq_ok_iff.mp reads
  rw [asked_lift] at found
  have ofJson := mapError_eq_ok_iff.mp (congrArg Prod.fst found)
  cases authored with
  | plain plain =>
      obtain ⟨rfl, -⟩ := asked_pure_eq_ok_iff.mp reads
      exact AuthoredValue.type_of_ofJson_plain ofJson
  | texture reference =>
      obtain ⟨id, _, -, reads⟩ := asked_bind_eq_ok_iff.mp reads
      obtain ⟨rfl, -⟩ := asked_pure_eq_ok_iff.mp reads
      exact (AuthoredValue.type_of_ofJson_texture ofJson).symm

/-- A name that no property has changes nothing, and its value is not looked at. -/
theorem override_of_unnamed (ascending : table.Ascending)
    (unnamed : table.property? (.ofName name) = none) (value : Json.Value) :
    context.override table name value = pure table := by
  have located := PropertyTable.located_search ascending (.ofName name)
  rw [AssetContext.override]
  generalize table.search (.ofName name) = place at located
  cases located with
  | found split same =>
      cases unnamed.symm.trans (PropertyTable.property?_of_split ascending split same)
  | missing => rfl

/-- The value under the name of a property is read for its type, and set. -/
theorem override_of_named (ascending : table.Ascending) {property : MaterialProperty}
    (named : table.property? (.ofName name) = some property) (value : Json.Value) :
    context.override table name value = (do
      let read ← context.propertyValue property.value.type name value
      return table.override (.ofName name) read) := by
  have located := PropertyTable.located_search ascending (.ofName name)
  rw [AssetContext.override]
  generalize table.search (.ofName name) = place at located
  cases located with
  | @found before after present split same =>
      cases named.symm.trans (PropertyTable.property?_of_split ascending split same)
      subst split
      have first : (before ++ property :: after)[before.length]? = some property := by simp
      rw [← same]
      simp only [first, PropertyTable.set_eq_override ascending]
  | missing split below above =>
      cases named.symm.trans (PropertyTable.property?_of_bounds split below above)

/-- A table with overrides, one after the other. -/
def overlay (context : AssetContext σ) (table : PropertyTable) (overrides : Json.Object) :
    Extraction σ PropertyTable :=
  overrides.foldlM (fun table override => context.override table override.1 override.2) table

theorem overlay_cons (table : PropertyTable) (override : String × Json.Value) (rest : Json.Object) :
    context.overlay table (override :: rest) =
      context.override table override.1 override.2 >>= fun next => context.overlay next rest :=
  List.foldlM_cons

theorem overlay_append (table : PropertyTable) (before after : Json.Object) :
    context.overlay table (before ++ after) =
      context.overlay table before >>= fun between => context.overlay between after :=
  List.foldlM_append

/-- Overrides that name no property have no effect, whatever their values are. -/
theorem overlay_named (ascending : table.Ascending) (overrides : Json.Object) :
    context.overlay table overrides = context.overlay table (overrides.filter table.names) := by
  induction overrides generalizing table with
  | nil => rfl
  | cons override rest ih =>
      cases found : table.property? (.ofName override.1) with
      | none =>
          have unnamed : ¬ table.names override := by simp [PropertyTable.names_iff, found]
          rw [overlay_cons, override_of_unnamed ascending found, pure_bind, ih ascending,
            List.filter_cons_of_neg unnamed]
      | some property =>
          have named : table.names override := by simp [PropertyTable.names_iff, found]
          rw [List.filter_cons_of_pos named, overlay_cons, overlay_cons,
            override_of_named ascending found, bind_assoc, bind_assoc]
          congr 1
          funext read
          -- What is named depends on the identifiers only, and these stay.
          have same := table.ids_override (.ofName override.1) read
          have rest := ih (PropertyTable.ascending_iff.mpr
            (same ▸ PropertyTable.ascending_iff.mp ascending))
          have alike : (table.override (.ofName override.1) read).names = table.names := by
            funext other
            rw [PropertyTable.names, PropertyTable.names, same]
          rw [pure_bind, pure_bind, rest, alike]

/-- What a value comes to that is set for a property once the overrides before it are done. -/
def Comes (context : AssetContext σ) (table : PropertyTable) (state : σ) (before : Json.Object)
    (override : String × Json.Value) (property : MaterialProperty)
    (outcome : Except FieldError PropertyValue) (last : σ) : Prop :=
  ∃ overlaid between, asked (context.overlay table before) state = (.ok overlaid, between) ∧
    asked (context.propertyValue property.value.type override.1 override.2) between = (outcome, last)

/-- What overrides make of a property: it stays if none has its identifier, and else the last of
those that do sets it. -/
inductive Overlaid (context : AssetContext σ) (table : PropertyTable) (state : σ)
    (overrides : Json.Object) (property : MaterialProperty) : MaterialProperty → Prop where
  | kept (unset : ∀ override ∈ overrides, StringId.ofName override.1 ≠ property.id) :
      Overlaid context table state overrides property property
  | set {before after : Json.Object} {override : String × Json.Value} {read : PropertyValue}
      {last : σ} (split : overrides = before ++ override :: after)
      (named : .ofName override.1 = property.id)
      (final : ∀ later ∈ after, StringId.ofName later.1 ≠ property.id)
      (comes : Comes context table state before override property (.ok read) last) :
      Overlaid context table state overrides property ⟨property.id, read, true⟩

namespace Overlaid

variable {start : σ} {overrides : Json.Object} {override : String × Json.Value}
  {property result : MaterialProperty}

theorem id_eq (overlaid : Overlaid context table start overrides property result) :
    result.id = property.id := by
  cases overlaid <;> rfl

theorem type_eq (overlaid : Overlaid context table start overrides property result) :
    result.value.type = property.value.type := by
  cases overlaid with
  | kept => rfl
  | set _ _ _ comes =>
      obtain ⟨_, _, -, reads⟩ := comes
      exact type_of_propertyValue reads

/-- An override under another identifier does not matter. -/
theorem append (overlaid : Overlaid context table start overrides property result)
    (other : StringId.ofName override.1 ≠ property.id) :
    Overlaid context table start (overrides ++ [override]) property result := by
  cases overlaid with
  | kept unset =>
      refine .kept fun earlier member => ?_
      rcases List.mem_append.mp member with earlier | newest
      · exact unset _ earlier
      · rwa [List.mem_singleton.mp newest]
  | @set before after last _ _ split named final comes =>
      refine .set (split ▸ List.append_assoc before (last :: after) [override]) named ?_ comes
      intro later member
      rcases List.mem_append.mp member with later | newest
      · exact final _ later
      · rwa [List.mem_singleton.mp newest]

end Overlaid

section Passes

variable {start : σ} {overrides : Json.Object} {override : String × Json.Value}
  {between result : PropertyTable} {error : FieldError}

theorem ids_of_overlaid (overlaid : List.Forall₂ (Overlaid context table start overrides) table result) :
    result.map (·.id) = table.map (·.id) := by
  rw [← List.forall₂_eq_eq_eq, List.forall₂_map_left_iff, List.forall₂_map_right_iff]
  exact overlaid.flip.imp fun _ _ => Overlaid.id_eq

theorem types_of_overlaid
    (overlaid : List.Forall₂ (Overlaid context table start overrides) table result) :
    result.map (·.value.type) = table.map (·.value.type) := by
  rw [← List.forall₂_eq_eq_eq, List.forall₂_map_left_iff, List.forall₂_map_right_iff]
  exact overlaid.flip.imp fun _ _ => Overlaid.type_eq

/-- A table with overrides is in order. -/
theorem ascending_of_overlaid (ascending : table.Ascending)
    (overlaid : List.Forall₂ (Overlaid context table start overrides) table between) :
    between.Ascending := by
  rw [PropertyTable.ascending_iff, ids_of_overlaid overlaid]
  exact PropertyTable.ascending_iff.mp ascending

/-- Whatever was overridden before, a name that the declared table does not have changes nothing. -/
theorem override_overlaid_of_unnamed (ascending : table.Ascending)
    (overlaid : List.Forall₂ (Overlaid context table start overrides) table between)
    (unnamed : table.property? (.ofName name) = none) (value : Json.Value) :
    context.override between name value = pure between := by
  refine override_of_unnamed (ascending_of_overlaid ascending overlaid) ?_ value
  rw [PropertyTable.property?_eq_none_iff] at unnamed ⊢
  intro result member
  obtain ⟨property, declared, same⟩ := exists_of_forall₂ overlaid.flip member
  rw [same.id_eq]
  exact unnamed property declared

/-- And a value is read for the declared type. -/
theorem override_overlaid_of_named (ascending : table.Ascending)
    (overlaid : List.Forall₂ (Overlaid context table start overrides) table between)
    {property : MaterialProperty} (named : table.property? (.ofName name) = some property)
    (value : Json.Value) :
    context.override between name value = (do
      let read ← context.propertyValue property.value.type name value
      return between.override (.ofName name) read) := by
  have rising := ascending_of_overlaid ascending overlaid
  obtain ⟨declared, same⟩ := PropertyTable.mem_of_property? named
  obtain ⟨present, member, alike⟩ := exists_of_forall₂ overlaid declared
  have found := PropertyTable.property?_eq_some_of_mem rising member
  rw [alike.id_eq, same] at found
  rw [override_of_named rising found, alike.type_eq]

/-- One more override. -/
theorem overlaid_override (ascending : table.Ascending)
    (earlier : asked (context.overlay table overrides) start = (.ok between, state))
    (overlaid : List.Forall₂ (Overlaid context table start overrides) table between)
    (overrode : asked (context.override between override.1 override.2) state = (.ok result, last)) :
    List.Forall₂ (Overlaid context table start (overrides ++ [override])) table result := by
  obtain ⟨length, each⟩ := List.forall₂_iff_zip.mp overlaid
  cases found : table.property? (.ofName override.1) with
  | none =>
      rw [override_overlaid_of_unnamed ascending overlaid found] at overrode
      obtain ⟨rfl, -⟩ := asked_pure_eq_ok_iff.mp overrode
      refine List.forall₂_iff_zip.mpr ⟨length, fun {property other} member => ?_⟩
      refine (each member).append fun named => ?_
      exact PropertyTable.property?_eq_none_iff.mp found property (List.of_mem_zip member).1 named.symm
  | some declared =>
      rw [override_overlaid_of_named ascending overlaid found] at overrode
      obtain ⟨read, _, reads, overrode⟩ := asked_bind_eq_ok_iff.mp overrode
      obtain ⟨rfl, rfl⟩ := asked_pure_eq_ok_iff.mp overrode
      rw [PropertyTable.override, List.forall₂_map_right_iff]
      refine List.forall₂_iff_zip.mpr ⟨length, fun {property other} member => ?_⟩
      have same := (each member).id_eq
      split
      next named =>
        -- In this place, the table has the property that was found.
        have known := PropertyTable.property?_eq_some_of_mem ascending (List.of_mem_zip member).1
        rw [← same, named, found] at known
        cases known
        have comes : Comes context table start overrides override declared (.ok read) last :=
          ⟨between, state, earlier, reads⟩
        rw [same]
        exact .set rfl (named.symm.trans same) (List.forall_mem_nil _) comes
      next unnamed => exact (each member).append fun named => unnamed (same.trans named.symm)

/-- A pass of overrides leaves the table with each property kept or set last. -/
theorem overlaid_overlay (ascending : table.Ascending)
    (overlaid : asked (context.overlay table overrides) start = (.ok result, last)) :
    List.Forall₂ (Overlaid context table start overrides) table result := by
  induction overrides using List.reverseRecOn generalizing result last with
  | nil =>
      obtain ⟨rfl, -⟩ := asked_pure_eq_ok_iff.mp overlaid
      exact List.forall₂_same.mpr fun property _ => .kept (by simp)
  | append_singleton overrides override ih =>
      rw [overlay_append, asked_bind_eq_ok_iff] at overlaid
      obtain ⟨between, after, earlier, overrode⟩ := overlaid
      rw [overlay_cons, asked_bind_eq_ok_iff] at overrode
      obtain ⟨next, _, overrode, done⟩ := overrode
      obtain ⟨rfl, rfl⟩ := asked_pure_eq_ok_iff.mp done
      exact overlaid_override ascending earlier (ih earlier) overrode

/-- The first override of a property whose value is refused, with the error; those of properties
before it are accepted. -/
structure Refuses (context : AssetContext σ) (table : PropertyTable) (start : σ)
    (overrides before : Json.Object) (override : String × Json.Value) (error : FieldError) (last : σ) :
    Prop where
  split : ∃ after, overrides = before ++ override :: after
  refused : ∃ property ∈ table, property.id = .ofName override.1 ∧
    Comes context table start before override property (.error error) last
  accepted : ∀ earlier other rest, before = earlier ++ other :: rest →
    ∀ property ∈ table, property.id = .ofName other.1 →
      ∃ read after, Comes context table start earlier other property (.ok read) after

/-- After a pass, the values of all overrides of properties have been read. -/
theorem comes_of_overlay (ascending : table.Ascending)
    (overlaid : asked (context.overlay table overrides) start = (.ok result, last))
    {before after : Json.Object} (split : overrides = before ++ override :: after)
    {property : MaterialProperty} (declared : property ∈ table)
    (named : property.id = .ofName override.1) :
    ∃ read after, Comes context table start before override property (.ok read) after := by
  rw [split, overlay_append, asked_bind_eq_ok_iff] at overlaid
  obtain ⟨between, state, earlier, overlaid⟩ := overlaid
  rw [overlay_cons, asked_bind_eq_ok_iff] at overlaid
  obtain ⟨_, _, overrode, -⟩ := overlaid
  have found := PropertyTable.property?_eq_some_of_mem ascending declared
  rw [named] at found
  rw [override_overlaid_of_named ascending (overlaid_overlay ascending earlier) found] at overrode
  obtain ⟨read, next, reads, -⟩ := asked_bind_eq_ok_iff.mp overrode
  exact ⟨read, next, between, state, earlier, reads⟩

/-- A pass fails exactly at the first override of a property whose value is refused. -/
theorem asked_overlay_eq_error_iff (ascending : table.Ascending) :
    asked (context.overlay table overrides) start = (.error error, last) ↔
      ∃ before override, Refuses context table start overrides before override error last := by
  constructor
  · intro fails
    induction overrides using List.reverseRecOn generalizing last with
    | nil => cases fails
    | append_singleton overrides override ih =>
        rw [overlay_append, asked_bind_eq_error_iff] at fails
        rcases fails with fails | ⟨between, state, earlier, fails⟩
        · obtain ⟨before, first, ⟨after, rfl⟩, refused, accepted⟩ := ih fails
          exact ⟨before, first, ⟨after ++ [override], by simp⟩, refused, accepted⟩
        · have overlaid := overlaid_overlay ascending earlier
          rw [overlay_cons, asked_bind_eq_error_iff] at fails
          obtain fails | ⟨_, _, -, done⟩ := fails
          · cases found : table.property? (.ofName override.1) with
            | none =>
                rw [override_overlaid_of_unnamed ascending overlaid found] at fails
                cases fails
            | some property =>
                rw [override_overlaid_of_named ascending overlaid found] at fails
                obtain fails | ⟨_, _, -, done⟩ := asked_bind_eq_error_iff.mp fails
                · obtain ⟨declared, named⟩ := PropertyTable.mem_of_property? found
                  refine ⟨overrides, override, ⟨[], rfl⟩,
                    ⟨property, declared, named, between, state, earlier, fails⟩, ?_⟩
                  exact fun _ _ _ split _ => comes_of_overlay ascending earlier split
                · cases done
          · cases done
  · rintro ⟨before, override, ⟨after, rfl⟩, ⟨property, declared, named, comes⟩, -⟩
    obtain ⟨between, state, earlier, fails⟩ := comes
    have found := PropertyTable.property?_eq_some_of_mem ascending declared
    rw [named] at found
    have refused :
        asked (context.override between override.1 override.2) state = (.error error, last) := by
      rw [override_overlaid_of_named ascending (overlaid_overlay ascending earlier) found]
      exact asked_bind_of_error fails
    rw [overlay_append, asked_bind_of_ok earlier, overlay_cons]
    exact asked_bind_of_error refused

end Passes

/-- A table as a pass of overrides leaves it: the declared one with its identifiers and types, and
each property kept or set last. -/
structure Overlays (context : AssetContext σ) (table : PropertyTable) (start : σ)
    (overrides : Json.Object) (result : PropertyTable) : Prop where
  ids : result.map (·.id) = table.map (·.id)
  types : result.map (·.value.type) = table.map (·.value.type)
  each : List.Forall₂ (Overlaid context table start overrides) table result

theorem overlays_of_asked {start : σ} {overrides : Json.Object} {result : PropertyTable}
    (ascending : table.Ascending)
    (overlaid : asked (context.overlay table overrides) start = (.ok result, last)) :
    Overlays context table start overrides result :=
  have each := overlaid_overlay ascending overlaid
  ⟨ids_of_overlaid each, types_of_overlaid each, each⟩

/-- The table that is declared for a material, or for a blueprint if there is no material; none
counts as an empty one. -/
def Tabled (context : AssetContext σ) (material blueprint : AssetId) (state : σ)
    (table : PropertyTable) (last : σ) : Prop :=
  ∃ declared,
    ((context.declared (if material.isValid then material else blueprint)).run state).run =
      (declared, last) ∧ table = declared.getD []

end AssetContext

namespace Fields

variable {context : AssetContext σ} {fields : Fields} {state last : σ}

/-- The references of an item to a material and to a blueprint resolve. -/
def Resolves (fields : Fields) (context : AssetContext σ) (state : σ) (material blueprint : AssetId)
    (last : σ) : Prop :=
  ∃ between, asked (fields.asset "Material" context) state = (.ok material, between) ∧
    asked (fields.asset "MaterialBlueprint" context) between = (.ok blueprint, last)

/-- References that resolve again resolve to the same if the context answers consistently. -/
theorem Resolves.same {states : σ → Prop} (steady : context.Steady states) (inside : states state)
    {material blueprint material' blueprint' : AssetId} {last' : σ}
    (first : fields.Resolves context state material blueprint last)
    (second : fields.Resolves context last material' blueprint' last') :
    material' = material ∧ blueprint' = blueprint := by
  obtain ⟨between, one, other⟩ := first
  obtain ⟨between', one', other'⟩ := second
  have between_inside := (steady.asset fields "Material").stays inside one
  have last_inside := (steady.asset fields "MaterialBlueprint").stays between_inside other
  have between'_inside := (steady.asset fields "Material").stays last_inside one'
  have materials := (steady.asset fields "Material").same last_inside inside one' one
  have blueprints :=
    (steady.asset fields "MaterialBlueprint").same between'_inside between_inside other' other
  exact ⟨Except.ok.inj materials, Except.ok.inj blueprints⟩

/-- Of a material and a blueprint there is one if there are not both and not none. -/
theorem isValid_ne_iff {material blueprint : AssetId} :
    material.isValid ≠ blueprint.isValid ↔
      ¬(material.isValid && blueprint.isValid) ∧ ¬(!material.isValid && !blueprint.isValid) := by
  cases material.isValid <;> cases blueprint.isValid <;> decide

/-- The overrides of an item with one material are overlaid on its declared table. -/
theorem asked_overrides_of_one {overrides : Json.Object} {material blueprint : AssetId}
    {after start : σ} {table : PropertyTable}
    (set : fields.get? "SetMaterialProperties" = some (.object overrides))
    (resolves : fields.Resolves context state material blueprint after)
    (one : material.isValid ≠ blueprint.isValid)
    (tabled : context.Tabled material blueprint after table start) :
    asked (fields.overrides context) state = asked (context.overlay table overrides) start := by
  obtain ⟨between, first, second⟩ := resolves
  obtain ⟨declared, looked, rfl⟩ := tabled
  rw [Fields.overrides.eq_def]
  simp only [set]
  rw [asked_bind_of_ok first, asked_bind_of_ok second]
  obtain ⟨notBoth, notNone⟩ := isValid_ne_iff.mp one
  rw [if_neg notBoth, if_neg notNone]
  exact asked_bind_of_ok (asked_answer looked)

/-- Where the properties of an item come from. -/
theorem overrides_cases {result : PropertyTable}
    (made : asked (fields.overrides context) state = (.ok result, last)) :
    fields.get? "SetMaterialProperties" = none ∧ result = [] ∨
      ∃ overrides material blueprint after,
        fields.get? "SetMaterialProperties" = some (.object overrides) ∧
        fields.Resolves context state material blueprint after ∧
        (material.isValid = false ∧ blueprint.isValid = false ∧ result = [] ∨
          material.isValid ≠ blueprint.isValid ∧ ∃ table start,
            context.Tabled material blueprint after table start ∧
            asked (context.overlay table overrides) start = (.ok result, last)) := by
  have whole := made
  rw [Fields.overrides.eq_def] at made
  dsimp only at made
  split at made
  next absent =>
    obtain ⟨rfl, -⟩ := asked_pure_eq_ok_iff.mp made
    exact .inl ⟨absent, rfl⟩
  next overrides set =>
    obtain ⟨material, between, first, made⟩ := asked_bind_eq_ok_iff.mp made
    obtain ⟨blueprint, after, second, made⟩ := asked_bind_eq_ok_iff.mp made
    have resolves : fields.Resolves context state material blueprint after := ⟨between, first, second⟩
    refine .inr ⟨overrides, material, blueprint, after, set, resolves, ?_⟩
    split at made
    next => cases made
    next notBoth =>
      split at made
      next none =>
        obtain ⟨rfl, -⟩ := asked_pure_eq_ok_iff.mp made
        exact .inl (by simpa using none)
      next notNone =>
        have one := isValid_ne_iff.mpr ⟨notBoth, notNone⟩
        have tabled : context.Tabled material blueprint after _ _ := ⟨_, rfl, rfl⟩
        rw [asked_overrides_of_one set resolves one tabled] at whole
        exact .inr ⟨one, _, _, tabled, whole⟩
  next => cases made

/-- A list whose elements are to be countable has not too many. -/
theorem asked_requireCountable_eq_ok {α : Type} {field : String} {fault : FieldFault} {list : List α}
    (counted : asked (liftM (requireCountable field fault list) : Extraction σ Unit) state =
      (.ok (), last)) : list.length < 2 ^ 32 := by
  rw [asked_lift, requireCountable] at counted
  split at counted
  next few => exact few
  next => cases counted

/-- What the use of a material consists of. -/
theorem asked_materialUse_eq_ok {use : MaterialUse}
    (made : asked (fields.materialUse context) state = (.ok use, last)) :
    ∃ between after, fields.Resolves context state use.material use.blueprint between ∧
      use.material.isValid ≠ use.blueprint.isValid ∧
      asked (fields.overrides context) between = (.ok use.properties, after) ∧
      use.properties.length < 2 ^ 32 := by
  obtain ⟨material, named, first, made⟩ := asked_bind_eq_ok_iff.mp made
  obtain ⟨blueprint, between, second, made⟩ := asked_bind_eq_ok_iff.mp made
  obtain ⟨technique, same, technical, made⟩ := asked_bind_eq_ok_iff.mp made
  rw [asked_lift] at technical
  cases congrArg Prod.snd technical
  dsimp only at made
  split at made
  · cases made
  next notNone =>
    split at made
    · cases made
    next notBoth =>
      obtain ⟨properties, after, overridden, made⟩ := asked_bind_eq_ok_iff.mp made
      obtain ⟨_, _, counted, made⟩ := asked_bind_eq_ok_iff.mp made
      obtain ⟨rfl, -⟩ := asked_pure_eq_ok_iff.mp made
      exact ⟨between, after, ⟨named, first, second⟩, isValid_ne_iff.mpr ⟨notBoth, notNone⟩,
        overridden, asked_requireCountable_eq_ok counted⟩

/-- The properties of an item that uses a material. If its references resolve to a material or to
a blueprint, but not to both, and the declared table is in order, what the item has is this table,
where the last override under an identifier has set the value that is read of it for the declared
type; overrides under other identifiers have no effect at all. Overriding fails at the first
override of a property whose value is refused, and only there. The use of a material has exactly
one material or blueprint, such a table or, without overrides, none, and a count that is the number
of its properties. The references are resolved a second time for the overrides; a context that
answers consistently then gives the same. -/
theorem overrides_overlay (context : AssetContext σ) (fields : Fields) (state : σ) :
    (∀ overrides material blueprint after table start,
      fields.get? "SetMaterialProperties" = some (.object overrides) →
      fields.Resolves context state material blueprint after →
      material.isValid ≠ blueprint.isValid →
      context.Tabled material blueprint after table start → table.Ascending →
        asked (fields.overrides context) state =
          asked (context.overlay table (overrides.filter table.names)) start ∧
        (∀ result last, asked (fields.overrides context) state = (.ok result, last) →
          context.Overlays table start overrides result) ∧
        ∀ error last, asked (fields.overrides context) state = (.error error, last) ↔
          ∃ before override, context.Refuses table start overrides before override error last) ∧
    ∀ use last, asked (fields.materialUse context) state = (.ok use, last) →
      use.material.isValid ≠ use.blueprint.isValid ∧
      (fields.get? "SetMaterialProperties" = none ∧ use.properties = [] ∨
        ∃ overrides between material blueprint after,
          fields.get? "SetMaterialProperties" = some (.object overrides) ∧
          fields.Resolves context state use.material use.blueprint between ∧
          fields.Resolves context between material blueprint after ∧
          (∀ states, context.Steady states → states state →
            material = use.material ∧ blueprint = use.blueprint) ∧
          (material.isValid = false ∧ blueprint.isValid = false ∧ use.properties = [] ∨
            material.isValid ≠ blueprint.isValid ∧ ∃ table start,
              context.Tabled material blueprint after table start ∧
              (table.Ascending → context.Overlays table start overrides use.properties))) ∧
      ∃ count : UInt32, count.toNat = use.properties.length ∧
        use.encode = Bytes.ofUInt32 use.material.raw ++ Bytes.ofUInt32 use.technique.raw ++
          Bytes.ofUInt32 use.blueprint.raw ++ Bytes.ofUInt32 count ++
          use.properties.flatMap MaterialProperty.encode := by
  constructor
  · intro overrides material blueprint after table start set resolves one tabled ascending
    rw [asked_overrides_of_one set resolves one tabled]
    refine ⟨?_, fun result last overlaid => ?_, fun error last => ?_⟩
    · rw [AssetContext.overlay_named ascending]
    · exact AssetContext.overlays_of_asked ascending overlaid
    · exact AssetContext.asked_overlay_eq_error_iff ascending
  · intro use last made
    obtain ⟨between, _, resolves, one, overridden, countable⟩ := asked_materialUse_eq_ok made
    refine ⟨one, ?_, UInt32.ofNat use.properties.length, UInt32.toNat_ofNat_of_lt' countable, rfl⟩
    rcases overrides_cases overridden with
      absent | ⟨overrides, material, blueprint, after, set, again, rest⟩
    · exact .inl absent
    · refine .inr ⟨overrides, between, material, blueprint, after, set, resolves, again,
        fun states steady inside => resolves.same steady inside again, rest.imp_right ?_⟩
      rintro ⟨one, table, start, tabled, overlaid⟩
      exact ⟨one, table, start, tabled,
        fun ascending => AssetContext.overlays_of_asked ascending overlaid⟩

/-- A property that is set under two names that have one identifier, with a name that is not
declared in between. -/
theorem overrides_overlay_collision :
    let table : PropertyTable := [.declared (.ofName "costarring") (.integer 1)]
    let context : AssetContext Unit := ⟨fun _ => pure (.ok ⟨7⟩), fun _ => pure (some table)⟩
    let overrides : Json.Object := [("costarring", .number (.integer 2)), ("hazy", .null),
      ("liquid", .number (.integer 3))]
    let fields : Fields := [("Material", .string "M"), ("SetMaterialProperties", .object overrides)]
    (asked (fields.overrides context) ()).1.toOption =
        some [⟨.ofName "costarring", .integer 3, true⟩] ∧
      context.Overlays table () overrides [⟨.ofName "costarring", .integer 3, true⟩] := by
  intro table context overrides fields
  have resolves : fields.Resolves context () ⟨7⟩ .invalid () := ⟨(), rfl, rfl⟩
  have spec := (overrides_overlay context fields ()).1 overrides ⟨7⟩ .invalid () table () rfl resolves
    (by decide) ⟨some table, rfl, rfl⟩ (List.pairwise_singleton _ _)
  have made : (asked (fields.overrides context) ()).1.toOption =
      some [⟨.ofName "costarring", .integer 3, true⟩] := by decide +kernel
  refine ⟨made, ?_⟩
  cases outcome : (asked (fields.overrides context) ()).1 with
  | error error =>
      rw [outcome] at made
      cases made
  | ok result =>
      rw [outcome] at made
      cases made
      exact spec.2.1 _ () (Prod.ext outcome rfl)

end Fields

end SceneForge
