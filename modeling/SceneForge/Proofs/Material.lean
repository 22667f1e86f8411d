import Mathlib.Data.List.InsertIdx
import Mathlib.Data.List.SplitBy
import SceneForge.Material.Authored
import SceneForge.Material.Table
import SceneForge.Proofs.Binary.Arithmetic
import SceneForge.Proofs.Results

/-!
# Properties of tables and of authored values

Where the properties of a table come from, and of which type the value is that was authored
for a type.
-/

namespace SceneForge

open Binary

namespace PropertyTable

variable {property : MaterialProperty}

/-- A table of declarations holds declared properties only. -/
theorem mem_of_mem_ofDeclarations {properties : List MaterialProperty}
    (member : property ∈ ofDeclarations properties) : property ∈ properties := by
  obtain ⟨group, grouped, first⟩ := List.mem_filterMap.mp member
  have sorted := List.mem_flatten.mpr ⟨group, grouped, List.mem_of_mem_head? first⟩
  rw [List.flatten_splitBy] at sorted
  exact List.mem_mergeSort.mp sorted

/-- Putting a property into a table adds nothing else. -/
theorem mem_of_mem_put {table : PropertyTable} {added : MaterialProperty}
    (member : property ∈ table.put added) : property = added ∨ property ∈ table := by
  rw [put] at member
  split at member
  next index _ => exact (List.mem_or_eq_of_mem_set member).symm
  next index _ => exact List.eq_or_mem_of_mem_insertIdx member

/-- What a table has after another was put into it comes from one of both. -/
theorem mem_of_mem_overlay {table own : PropertyTable} (member : property ∈ table.overlay own) :
    property ∈ own ∨ property ∈ table := by
  induction own generalizing table with
  | nil => exact .inr member
  | cons first rest ih =>
      rcases ih member with own | put
      · exact .inl (List.mem_cons_of_mem _ own)
      · rcases mem_of_mem_put put with rfl | base
        · exact .inl (List.mem_cons_self ..)
        · exact .inr base

/-- What a search finds has the identifier that is looked for. -/
theorem idAt_of_search_found {table : PropertyTable} {id : StringId} {index : Nat}
    (found : table.search id = .found index) : table.idAt index = id := by
  rw [search] at found
  split at found
  next => cases found
  next =>
    dsimp only at found
    split at found
    next => cases found
    next same =>
      cases found
      exact Std.LawfulEqOrd.eq_of_compare same
    next => cases found

end PropertyTable

/-- Values of a type hold numbers that are no integers. -/
def ValueType.IsFloat : ValueType → Prop
  | float | float2 | float3 | float4 => True
  | boolean | integer | integer2 | integer3 | integer4 | texture => False

namespace PropertyValue

/-- The numbers that a value holds: its components if they are no integers. -/
def numbers : PropertyValue → List Single
  | float x => [x]
  | float2 x y => [x, y]
  | float3 x y z => [x, y, z]
  | float4 x y z w => [x, y, z, w]
  | boolean _ | integer _ | integer2 _ _ | integer3 _ _ _ | integer4 _ _ _ _ | texture _ => []

end PropertyValue

namespace AuthoredValue

variable {type : ValueType} {value : Json.Value}

/-- A value that needs no assets has the type for which it was authored. -/
theorem type_of_ofJson_plain {plain : PropertyValue} (read : ofJson type value = .ok (.plain plain)) :
    plain.type = type := by
  cases type with
  | boolean =>
      obtain ⟨flag, -, same⟩ := bind_eq_ok_iff.mp read
      cases same
      rfl
  | texture =>
      cases value <;> cases read
  | _ =>
      obtain ⟨words, -, same⟩ := bind_eq_ok_iff.mp read
      cases same
      exact PropertyValue.type_ofWords _ words

/-- Only for the type of textures, a value is a reference. -/
theorem type_of_ofJson_texture {reference : String}
    (read : ofJson type value = .ok (.texture reference)) : type = .texture := by
  cases type with
  | texture => rfl
  | _ =>
      obtain ⟨_, -, same⟩ := bind_eq_ok_iff.mp read
      cases same

theorem components_eq_ok {count : Nat} {numbers : List Double}
    (read : components count value = .ok numbers) :
    (∀ x ∈ numbers, x.isFinite) ∧ numbers.length = count := by
  rw [components] at read
  split at read
  next => cases read
  next =>
    split at read
    next => cases read
    next finite =>
      split at read
      next => cases read
      next length =>
        cases read
        exact ⟨by simpa using finite, by simpa using length⟩

/-- The numbers of a value are the words that it was made of. -/
theorem numbers_ofWords (isFloat : type.IsFloat) {numbers : List Single}
    (length : numbers.length = type.componentCount) :
    (PropertyValue.ofWords type (.ofList (numbers.map Single.bits))).numbers = numbers := by
  cases type with
  | float =>
      obtain ⟨x, rfl⟩ := List.length_eq_one_iff.mp length
      rfl
  | float2 =>
      obtain ⟨x, y, rfl⟩ := List.length_eq_two.mp length
      rfl
  | float3 =>
      obtain ⟨x, y, z, rfl⟩ := List.length_eq_three.mp length
      rfl
  | float4 =>
      obtain ⟨x, rest, rfl⟩ := List.exists_cons_of_length_eq_add_one length
      obtain ⟨y, z, w, rfl⟩ := List.length_eq_three.mp (Nat.succ.inj length)
      rfl
  | _ => cases isFloat

/-- The numbers of a value are the authored ones narrowed. -/
theorem numbers_of_ofJson {plain : PropertyValue} (read : ofJson type value = .ok (.plain plain))
    (isFloat : type.IsFloat) :
    ∃ numbers, components type.componentCount value = .ok numbers ∧
      List.Forall₂ Double.Narrows numbers plain.numbers := by
  have narrowed : ∃ numbers, components type.componentCount value = .ok numbers ∧
      plain = .ofWords type (.ofList ((numbers.map Double.toSingle).map Single.bits)) := by
    cases type with
    | float | float2 | float3 | float4 =>
        obtain ⟨words, singles, same⟩ := bind_eq_ok_iff.mp read
        obtain ⟨numbers, components, made⟩ := bind_eq_ok_iff.mp singles
        cases made
        cases same
        exact ⟨numbers, components, by rw [List.map_map]; rfl⟩
    | _ => cases isFloat
  obtain ⟨numbers, components, rfl⟩ := narrowed
  obtain ⟨finite, length⟩ := components_eq_ok components
  refine ⟨numbers, components, ?_⟩
  rw [numbers_ofWords isFloat (by rwa [List.length_map]), List.forall₂_map_right_iff, List.forall₂_same]
  exact fun x member => Double.narrows_toSingle (finite x member)

end AuthoredValue

end SceneForge
