import Mathlib.Order.Bounds.Basic
import SceneForge.Proofs.Compile.Written

/-!
# The registry of items and the decoder

The compiler looks kinds of items up in a registry, by name or by type; the decoder goes
through the types one by one. Both know the same types. What is extracted for a kind is
decoded from its bytes, it uses a material exactly if the decoder treats the type so, and
the registered size is the least that the decoder accepts.
-/

namespace SceneForge

namespace ItemKind

/-- The types of the registered kinds are those that have a layout. -/
theorem map_typeId_all : all.map typeId = TypeId.known := by decide

theorem mem_all (kind : ItemKind) : kind ∈ all := by
  cases kind <;> decide

theorem typeId_mem_known (kind : ItemKind) : kind.typeId ∈ TypeId.known := by
  rw [← map_typeId_all]
  exact List.mem_map_of_mem kind.mem_all

/-- No name collides with that of an earlier kind, so that every kind is found by its type. -/
theorem ofTypeId?_typeId (kind : ItemKind) : ofTypeId? kind.typeId = some kind := by
  cases kind <;> decide

/-- Exactly the kind with a type is found by it. -/
theorem ofTypeId?_eq_some_iff {id : StringId} {kind : ItemKind} :
    ofTypeId? id = some kind ↔ kind.typeId = id := by
  constructor
  · intro found
    have typed := List.find?_some found
    simpa using typed
  · rintro rfl
    exact kind.ofTypeId?_typeId

/-- A type is not found exactly if it has no layout. -/
theorem ofTypeId?_eq_none_iff {id : StringId} : ofTypeId? id = none ↔ id ∉ TypeId.known := by
  rw [← map_typeId_all, ofTypeId?, List.find?_eq_none, List.mem_map]
  simp

/-- Exactly the kind with a name is found by it, whatever other names have its type. -/
theorem ofName?_eq_some_iff {name : String} {kind : ItemKind} :
    ofName? name = some kind ↔ kind.name = name := by
  rw [ofName?, Option.filter_eq_some_iff, ofTypeId?_eq_some_iff, beq_iff_eq, typeId]
  constructor
  · rintro ⟨-, named⟩
    exact named
  · rintro rfl
    exact ⟨rfl, rfl⟩

/-- A name is found exactly if it is registered. -/
theorem isSome_ofName?_iff {name : String} :
    (ofName? name).isSome ↔ name ∈ all.map ItemKind.name := by
  rw [Option.isSome_iff_exists, List.mem_map]
  constructor
  · rintro ⟨kind, found⟩
    exact ⟨kind, kind.mem_all, ofName?_eq_some_iff.mp found⟩
  · rintro ⟨kind, -, named⟩
    exact ⟨kind, ofName?_eq_some_iff.mpr named⟩

end ItemKind

namespace Payload

/-- Payloads are decoded as of unknown type exactly if the type has no layout. -/
theorem decode_eq_unknown_iff {typeId : StringId} {bytes content : Bytes} :
    decode typeId bytes = .ok (.unknown content) ↔ typeId ∉ TypeId.known ∧ bytes = content :=
  decode_eq_ok_iff

/-- Bytes that spell a payload of a known type spell a material exactly if the type uses one. -/
theorem Spells.usesMaterial_iff {typeId : StringId} {bytes : Bytes} {payload : Payload}
    (spelled : Spells typeId bytes payload) (known : typeId ∈ TypeId.known) :
    TypeId.usesMaterial typeId ↔ ∃ use, payload = .material use := by
  cases payload with
  | material use => exact ⟨fun _ => ⟨use, rfl⟩, fun _ => spelled.1⟩
  | unknown content => exact absurd known spelled.1
  | _ =>
      rw [spelled.1]
      exact ⟨fun uses => absurd uses (by decide), nofun⟩

end Payload

namespace ItemKind

/-- The registered size of a kind is the least number of bytes that a payload of its type can
have. -/
theorem isLeast_fixedSize (kind : ItemKind) :
    IsLeast {length | ∃ bytes payload, Payload.decode kind.typeId bytes = .ok payload ∧
      bytes.length = length} kind.fixedSize := by
  have accepted (length : Nat) : (∃ bytes payload, Payload.decode kind.typeId bytes = .ok payload ∧
      bytes.length = length) ↔ ∃ bytes, Payload.Fits kind.typeId bytes ∧ bytes.length = length := by
    simp only [Payload.decode_eq_ok_iff, exists_and_right, Payload.exists_spells_iff_fits]
  simp only [accepted]
  constructor
  · -- Zero bytes stand for empty lists and for the first kind of light.
    refine ⟨List.replicate kind.fixedSize 0, ?_, List.length_replicate⟩
    cases kind <;> simp +decide [Payload.Fits]
  · rintro _ ⟨bytes, fits, rfl⟩
    cases kind <;> simp +decide [Payload.Fits] at fits <;>
      simp only [fixedSize, Payload.lightSize, Payload.sunlightSize, Payload.meshSize,
        Payload.skeletonSize, Payload.materialSize] <;> omega

/-- What the decoder makes of the payloads of a registered kind. -/
structure Served (kind : ItemKind) : Prop where
  /-- What is extracted, from whatever state of a context, is decoded from its bytes. -/
  decode_encode : ∀ {σ : Type} {context : AssetContext σ} {fields : Fields} {state last : σ}
    {payload : Payload}, asked (kind.extract fields context) state = (.ok payload, last) →
      Payload.decode kind.typeId payload.encode = .ok payload
  /-- What is extracted uses a material exactly if the type is one of those that do. -/
  usesMaterial_iff : ∀ {σ : Type} {context : AssetContext σ} {fields : Fields} {state last : σ}
    {payload : Payload}, asked (kind.extract fields context) state = (.ok payload, last) →
      (TypeId.usesMaterial kind.typeId ↔ ∃ use, payload = .material use)
  /-- There are fields from which a payload is extracted. -/
  extractable : ∃ (context : AssetContext Unit) (fields : Fields) (payload : Payload),
    answer (kind.extract fields context) = .ok payload
  /-- No fewer bytes than the registered size are accepted, and some bytes of this size are. -/
  isLeast_fixedSize : IsLeast {length | ∃ bytes payload,
    Payload.decode kind.typeId bytes = .ok payload ∧ bytes.length = length} kind.fixedSize

/-- From fields that name a mesh and a material a payload of every kind is extracted. -/
theorem exists_extract (kind : ItemKind) :
    ∃ (context : AssetContext Unit) (fields : Fields) (payload : Payload),
      answer (kind.extract fields context) = .ok payload := by
  refine ⟨⟨fun _ => pure (.ok ⟨1⟩), fun _ => pure none⟩,
    [("Mesh", .string "cube"), ("Material", .string "glass")], ?_⟩
  refine exists_of_isOk ?_
  cases kind <;> decide +kernel

/-- Every registered kind is served by the decoder. -/
theorem served (kind : ItemKind) : kind.Served where
  decode_encode extracted := Payload.decode_eq_ok_iff.mpr (encode_spelled extracted)
  usesMaterial_iff extracted := (encode_spelled extracted).usesMaterial_iff kind.typeId_mem_known
  extractable := kind.exists_extract
  isLeast_fixedSize := kind.isLeast_fixedSize

/-- The registry and the decoder agree. A kind is found by its own name alone, so that names are
found exactly if they are registered; a type is found exactly if its payloads are never decoded
as of unknown type, and not found exactly if they always are; and what is found by a type has
this type and is served by the decoder. -/
theorem registry_agrees :
    (∀ name kind, ofName? name = some kind ↔ kind.name = name) ∧
    (∀ name, (ofName? name).isSome ↔ name ∈ all.map ItemKind.name) ∧
    (∀ id, (ofTypeId? id).isSome ↔
      ∀ bytes content, Payload.decode id bytes ≠ .ok (.unknown content)) ∧
    (∀ id, ofTypeId? id = none ↔ ∀ bytes, Payload.decode id bytes = .ok (.unknown bytes)) ∧
    (∀ id kind, ofTypeId? id = some kind ↔ kind.typeId = id) ∧
    ∀ kind : ItemKind, kind.Served := by
  refine ⟨fun _ _ => ofName?_eq_some_iff, fun _ => isSome_ofName?_iff, fun id => ?_, fun id => ?_,
    fun _ _ => ofTypeId?_eq_some_iff, served⟩
  · rw [← Option.ne_none_iff_isSome, ne_eq, ofTypeId?_eq_none_iff, not_not]
    simp only [ne_eq, Payload.decode_eq_unknown_iff, not_and]
    exact ⟨fun known _ _ unknown => absurd known unknown,
      fun never => by_contra fun unknown => never [] [] unknown rfl⟩
  · rw [ofTypeId?_eq_none_iff]
    simp only [Payload.decode_eq_unknown_iff, and_true, forall_const]

/-- A name that only resembles a registered one is refused. -/
example : ofName? "MeshSceneItem " = none ∧ ofName? "meshsceneitem" = none := by decide +kernel

end ItemKind

end SceneForge
