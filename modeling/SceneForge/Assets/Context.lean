import SceneForge.Fields
import SceneForge.Material.Table

/-!
# Asset knowledge

What compiling needs to know of assets: the identifier behind a reference, and the
properties that a material or a blueprint declares. Who answers may keep a state, so
that the same question can get another answer the next time; reading a field that
names an asset threads this state.
-/

namespace SceneForge

/-- A reference without an identifier, in the words of whoever was asked for it. -/
structure UnresolvedReference where
  text : String
  deriving DecidableEq

/-- The wording of the error. -/
def UnresolvedReference.message (unresolved : UnresolvedReference) : String :=
  s!"Unresolved asset reference \"{unresolved.text}\""

/-- A source of asset knowledge with states of type `σ`. -/
structure AssetContext (σ : Type) where
  /-- The identifier behind a reference; the empty one is to stand for no asset. -/
  resolve : (reference : String) → StateM σ (Except UnresolvedReference AssetId)
  /-- The declared properties of an asset. -/
  declared : (id : AssetId) → StateM σ (Option PropertyTable)

/-- A reading of fields that may ask about assets. -/
abbrev Extraction (σ α : Type) := ExceptT FieldError (StateM σ) α

namespace AssetContext

variable {σ : Type}

/-- The identifier behind a reference in a field; the error names the reference as the
context does. -/
def resolveIn (context : AssetContext σ) (field reference : String) : Extraction σ AssetId := do
  match ← (context.resolve reference : StateM σ (Except UnresolvedReference AssetId)) with
  | .ok id => return id
  | .error unresolved => throw (.unresolved field unresolved.text)

end AssetContext

namespace Fields

variable {σ : Type}

/-- Reads a reference to an asset; an absent one stands for no asset. -/
def asset (fields : Fields) (field : String) (context : AssetContext σ) :
    Extraction σ AssetId := do
  match ← fields.string? field with
  | some reference => context.resolveIn field reference
  | none => return .invalid

/-- Reads a reference to an asset that must be there and not be empty. -/
def mandatoryAsset (fields : Fields) (field : String) (context : AssetContext σ) :
    Extraction σ AssetId := do
  match ← fields.string? field with
  | none => throw (.missing field)
  | some "" => throw (.invalid field .emptyReference)
  | some reference => context.resolveIn field reference

/-- Reads references to assets. -/
def assets (fields : Fields) (field : String) (context : AssetContext σ) :
    Extraction σ (List AssetId) :=
  match fields.get? field with
  | none => return []
  | some (.array elements) =>
      elements.mapM fun
        | .string reference => context.resolveIn field reference
        | element => throw (.invalid field (.notReference element))
  | some _ => throw (.invalid field .notReferences)

end Fields

end SceneForge
