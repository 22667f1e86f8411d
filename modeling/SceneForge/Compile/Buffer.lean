import SceneForge.Document
import SceneForge.FormatError
import SceneForge.ItemKind

/-!
# Scene buffers from documents

A document is written node by node. Before the payload of an item stands its size,
so every item is extracted twice: once for its size and once for its bytes. If the
asset knowledge has changed in between and the sizes differ, writing fails.
-/

namespace SceneForge

/-- Why a document cannot be written. -/
inductive BufferError where
  | node (index : Nat) (error : FieldError)
  | item (index : Nat) (kind : ItemKind) (error : FieldError)
  | unknownItem (index : Nat) (name : String)
  | sizeMismatch (kind : ItemKind) (declared written : Nat)
  | format (error : FormatError)

/-- The wording of a problem, as far as it is this library's. -/
def BufferError.message? : BufferError → Option String
  | .node index error => some s!"Node {index}: {error.message}"
  | .item index kind error => some s!"Node {index}, item \"{kind.name}\": {error.message}"
  | .unknownItem index name => some s!"Node {index}: scene item type \"{name}\" is unknown"
  | .sizeMismatch kind declared written =>
      some s!"Item \"{kind.name}\" declared {declared} bytes but wrote {written}"
  | .format error => error.message?

/-- Writing with asset knowledge of state `σ`. -/
abbrev Writing (σ α : Type) := ExceptT BufferError (StateM σ) α

/-- Reads the transform of a node. -/
def Fields.transform (fields : Fields) : Except FieldError Transform := do
  let identity := Transform.identity
  return {
    position := ← fields.vector "Position" identity.position
    rotation := ← fields.rotation "Rotation" identity.rotation
    scale := ← fields.vector "Scale" identity.scale }

namespace Writing

variable {σ : Type}

/-- The bytes of a number of things, which has to fit 32 bits. -/
def count (number : Nat) : Writing σ Bytes :=
  if number < 2 ^ 32 then return Bytes.ofUInt32 (UInt32.ofNat number)
  else throw (.format (.tooLarge number))

/-- Extracts the payload of an item of the node with an index. -/
def payload (context : AssetContext σ) (index : Nat) (kind : ItemKind) (fields : Fields) :
    Writing σ Payload :=
  ExceptT.adapt (BufferError.item index kind) (kind.extract fields context)

/-- Writes an item. -/
def item (context : AssetContext σ) (index : Nat) (kind : ItemKind) (fields : Fields) :
    Writing σ Bytes := do
  let declared := (← payload context index kind fields).size
  let header := Bytes.ofUInt32 kind.typeId.raw ++ (← count declared)
  let content := (← payload context index kind fields).encode
  if content.length ≠ declared then throw (.sizeMismatch kind declared content.length)
  return header ++ content

/-- Writes an item as it is authored. -/
def authoredItem (context : AssetContext σ) (index : Nat) (name : String) (value : Json.Value) :
    Writing σ Bytes :=
  match ItemKind.ofName? name with
  | none => throw (.unknownItem index name)
  | some kind =>
      match value with
      | .object fields => item context index kind fields
      | _ => throw (.item index kind (.invalid name .notObject))

/-- The transform of a node; without properties it changes nothing. -/
def transform (index : Nat) (properties : Option Json.Value) : Writing σ Transform :=
  match properties with
  | none => return .identity
  | some (.object fields) =>
      ((Fields.transform fields).mapError (BufferError.node index) : Except BufferError Transform)
  | some _ => throw (.node index (.invalid "Properties" .notObject))

/-- Writes a node. -/
def node (context : AssetContext σ) (index : Nat) (node : SourceNode) : Writing σ Bytes := do
  let transform ← transform index node.properties
  let header := transform.encode ++ (← count node.items.length)
  let items ← node.items.mapM fun (name, value) => authoredItem context index name value
  return header ++ items.flatten

/-- Writes nodes, of which the first has the given index. -/
def nodes (context : AssetContext σ) (index : Nat) : (nodes : List SourceNode) → Writing σ Bytes
  | [] => return []
  | first :: rest => do
      let bytes ← node context index first
      return bytes ++ (← nodes context (index + 1) rest)

/-- Writes a document. -/
def document (context : AssetContext σ) (document : Document) : Writing σ Bytes := do
  let header := Bytes.ofUInt32 Scene.standardMarker ++ (← count document.nodes.length)
  return header ++ (← nodes context 0 document.nodes)

end Writing

end SceneForge
