import SceneForge.Json.Record

/-!
# Scene documents

A scene is authored as a JSON object. Its nodes stand in the object itself, or in a
body inside it beside a format mark, which then has to be right. A node has
properties and items; all items are kept in the order in which they are written,
also those with the same name.
-/

namespace SceneForge

open Json (Category Tree Value)

/-- A node as it is authored. -/
structure SourceNode where
  properties : Option Value
  items : List (String × Value)

/-- A document: nodes, of which there is at least one. -/
structure Document where
  nodes : List SourceNode

/-- Why a text is no document. -/
inductive DocumentError where
  /-- The text is no JSON. -/
  | json (category : Category)
  | notObject
  /-- Some part is not of the expected shape. -/
  | shape
  | formatType (found : Option String)
  | formatVersion (found : Option Value)
  | noBody
  | noNodeArray
  | noNodes

namespace DocumentError

/-- An optional part of a document, for messages. -/
def describedOption : Option String → String
  | none => "None"
  | some text => s!"Some({text})"

/-- The wording of a problem, as far as it is this library's. -/
def message? : DocumentError → Option String
  | json _ | shape => none
  | notObject => some "document root must be an object"
  | formatType found =>
      some s!"format type must be \"SceneAsset\", found {describedOption (found.map Text.quoted)}"
  | formatVersion found =>
      some s!"format version must be 1, found {describedOption (found.map Value.described)}"
  | noBody => some "missing \"SceneAsset\" object"
  | noNodeArray => some "missing \"Nodes\" array"
  | noNodes => some "scene has no nodes"

end DocumentError

namespace Document

/-- The fields of a node. -/
def nodeFields : List (Tree.Field SourceNode) :=
  [ ⟨"Properties", fun budget tree node => do
      return { node with properties := ← Tree.readOption Tree.value budget tree }⟩,
    ⟨"Items", fun budget tree node => do
      return { node with items := ← Tree.readMap Tree.value budget tree }⟩ ]

/-- Reads the nodes, which may be null. -/
def readNodes : (budget : Nat) → (tree : Tree) → Except Category (Option (List SourceNode)) :=
  Tree.readOption (Tree.readList (Tree.readRecord nodeFields ⟨none, []⟩))

/-- Reads a body. Its nodes may be absent if it is written as an object, but not if
it is written as an array. -/
def readBody (budget : Nat) (tree : Tree) : Except Category (Option (List SourceNode)) := do
  let field : Tree.Field (Option (Option (List SourceNode))) :=
    ⟨"Nodes", fun budget tree _ => some <$> readNodes budget tree⟩
  match ← Tree.readRecord [field] none budget tree, tree with
  | none, .array .. => throw .mismatch
  | nodes, _ => return nodes.join

/-- What the outermost object may hold. -/
structure Root where
  format : Option Value
  /-- The nodes of the body, if there is one. -/
  body : Option (Option (List SourceNode))
  nodes : Option (List SourceNode)

/-- The fields of the outermost object. -/
def rootFields : List (Tree.Field Root) :=
  [ ⟨"Format", fun budget tree root => do
      return { root with format := ← Tree.readOption Tree.value budget tree }⟩,
    ⟨"SceneAsset", fun budget tree root => do
      return { root with body := ← Tree.readOption readBody budget tree }⟩,
    ⟨"Nodes", fun budget tree root => do
      return { root with nodes := ← readNodes budget tree }⟩ ]

/-- The member of a value, if the value is an object that has it. -/
def member? (value : Value) (key : String) : Option Value :=
  match value with
  | .object members => Json.Object.get? members key
  | _ => none

/-- The version that a value spells, as a number or as a text. -/
def version? : Option Value → Option Nat
  | some (.number number) => number.toNat?
  | some (.string text) => Decimal.natBelow? (2 ^ 64) text
  | _ => none

/-- Checks the format mark. -/
def checkFormat (format : Value) : Except DocumentError Unit :=
  let type := match member? format "Type" with
    | some (.string type) => some type
    | _ => none
  if type ≠ some "SceneAsset" then .error (.formatType type)
  else
    let version := member? format "Version"
    if version? version ≠ some 1 then .error (.formatVersion version) else .ok ()

/-- The nodes of a document. -/
def selectNodes (root : Root) : Except DocumentError (Option (List SourceNode)) :=
  match root.format with
  | none => .ok root.nodes
  | some format => do
      checkFormat format
      match root.body with
      | none => throw .noBody
      | some nodes => return nodes

/-- The document that a text spells. The whole text has to be JSON before any shape
is looked at, and all shapes have to be right before the format mark is. -/
def read (text : String) : Except DocumentError Document := do
  match ← (Value.read text).mapError DocumentError.json with
  | .object _ =>
      let tree := (Tree.read text).tree
      let root ← (Tree.readRecord rootFields ⟨none, none, none⟩ Tree.nestingLimit tree).mapError
        fun _ => DocumentError.shape
      match ← selectNodes root with
      | none => throw .noNodeArray
      | some [] => throw .noNodes
      | some nodes => return ⟨nodes⟩
  | _ => throw .notObject

end Document

end SceneForge
