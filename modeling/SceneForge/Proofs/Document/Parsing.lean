import Mathlib.Tactic.SplitIfs
import SceneForge.Document
import SceneForge.Proofs.Json.Readers

/-!
# Parsing documents

Which texts are documents, and what their nodes are. A text is refused as no JSON exactly if it
spells no tree within the limits of the reader. The nodes of a document are those of one array
in the tree, one for each element. An item is kept for each member of a node's items, repeated
names included, while the values of items and of properties merge their repeated keys.
-/

namespace SceneForge

open Json (Category Token Tree Value)

/-- An error that is about the shape of a document and not about its text. -/
def DocumentError.IsSchema : DocumentError → Prop
  | .json _ => False
  | _ => True

/-- A text is JSON, as far as it can be read: at most 127 containers are nested in it, its numbers
are in the range of doubles, and the surrogate halves in its strings stand in pairs. -/
def IsJson (text : String) : Prop :=
  ∃ tree : Tree, tree.Spelled text ∧ tree.depth ≤ Tree.nestingLimit ∧
    ∀ token ∈ tree.tokens, token.Valued

namespace Document

/-- The names of the fields of a node, in the order of its elements if it is written as an array. -/
def nodeNames : List String := ["Properties", "Items"]

/-- The properties that a node's tree gives. -/
inductive GivesProperties (element : Tree) : Option Value → Prop
  | absent (lacks : element.Lacks nodeNames "Properties") : GivesProperties element none
  | null (gives : element.Gives nodeNames "Properties" .null) : GivesProperties element none
  | present {part : Tree} {value : Value} (gives : element.Gives nodeNames "Properties" part)
      (not_null : part ≠ .null) (denotes : part.Denotes value) : GivesProperties element (some value)

/-- The items that a node's tree gives: one for every member of an object. -/
inductive GivesItems (element : Tree) : List (String × Value) → Prop
  | absent (lacks : element.Lacks nodeNames "Items") : GivesItems element []
  | present {members : List Tree.Member} {items : List (String × Value)}
      (gives : element.Gives nodeNames "Items" (.object members none))
      (all : List.Forall₂ (fun member item => member.1 = .ok item.1 ∧ member.2.Denotes item.2)
        members items) : GivesItems element items

/-- The node that a tree depicts. -/
structure Depicts (element : Tree) (node : SourceNode) : Prop where
  properties : GivesProperties element node.properties
  items : GivesItems element node.items

/-- The names of the fields of a document. -/
def rootNames : List String := ["Format", "SceneAsset", "Nodes"]

/-- A document without a format mark. -/
inductive Unmarked (root : Tree) : Prop
  | absent (lacks : root.Lacks rootNames "Format")
  | null (gives : root.Gives rootNames "Format" .null)

/-- The elements of the array that holds the nodes of a document. -/
inductive Holds (root : Tree) : List Tree → Prop
  | bare {elements : List Tree} (unmarked : Unmarked root)
      (nodes : root.Gives rootNames "Nodes" (.array elements none)) : Holds root elements
  | wrapped {format body : Tree} {elements : List Tree}
      (marked : root.Gives rootNames "Format" format) (not_null : format ≠ .null)
      (wrapped : root.Gives rootNames "SceneAsset" body)
      (nodes : body.Gives ["Nodes"] "Nodes" (.array elements none)) : Holds root elements

section Nodes

variable {budget : Nat} {tree element : Tree} {node : SourceNode}

theorem givesProperties_of_readRecord
    (reads : Tree.readRecord nodeFields ⟨none, []⟩ budget element = .ok node) :
    GivesProperties element node.properties := by
  have others : ∀ other ∈ nodeFields, other.name ≠ "Properties" →
      Tree.Untouched SourceNode.properties [other] :=
    List.forall_mem_cons.mpr ⟨fun different => absurd rfl different,
      List.forall_mem_singleton.mpr fun _ => Tree.untouched_of_set fun _ _ => rfl⟩
  obtain ⟨inner, -, ⟨lacks, same⟩ | ⟨part, first, next, gives, read, same⟩⟩ :=
    Tree.readRecord_field (List.mem_cons_self ..) (by decide) others reads
  · rw [same]
    exact .absent lacks
  · obtain ⟨properties, found, set⟩ := bind_eq_ok_iff.mp read
    cases set
    rw [same]
    rcases Tree.readOption_eq_ok_iff.mp found with ⟨rfl, rfl⟩ | ⟨not_null, value, rfl, denoted⟩
    · exact .null gives
    · exact .present gives not_null (Tree.value_eq_ok_iff.mp denoted).2

theorem givesItems_of_readRecord
    (reads : Tree.readRecord nodeFields ⟨none, []⟩ budget element = .ok node) :
    GivesItems element node.items := by
  have others : ∀ other ∈ nodeFields, other.name ≠ "Items" →
      Tree.Untouched SourceNode.items [other] :=
    List.forall_mem_cons.mpr ⟨fun _ => Tree.untouched_of_set fun _ _ => rfl,
      List.forall_mem_singleton.mpr fun different => absurd rfl different⟩
  obtain ⟨inner, -, ⟨lacks, same⟩ | ⟨part, first, next, gives, read, same⟩⟩ :=
    Tree.readRecord_field (.tail _ (.head _)) (by decide) others reads
  · rw [same]
    exact .absent lacks
  · obtain ⟨items, found, set⟩ := bind_eq_ok_iff.mp read
    cases set
    rw [same]
    obtain ⟨budget, members, -, rfl, all⟩ := Tree.readMap_eq_ok_iff.mp found
    exact .present gives (all.imp fun member item read =>
      ⟨read.1, (Tree.value_eq_ok_iff.mp read.2).2⟩)

/-- The nodes that are read are depicted by the elements of an array. -/
theorem depicts_of_readNodes {nodes : List SourceNode}
    (reads : readNodes budget tree = .ok (some nodes)) :
    ∃ elements, tree = .array elements none ∧ List.Forall₂ Depicts elements nodes := by
  rcases Tree.readOption_eq_ok_iff.mp reads with ⟨-, impossible⟩ | ⟨-, found, same, read⟩
  · cases impossible
  · cases same
    obtain ⟨inner, elements, -, rfl, all⟩ := Tree.readList_eq_ok_iff.mp read
    exact ⟨elements, rfl, all.imp fun element node read =>
      ⟨givesProperties_of_readRecord read, givesItems_of_readRecord read⟩⟩

/-- The nodes that are read from a body are those that its tree gives. -/
theorem gives_of_readBody {nodes : List SourceNode}
    (reads : readBody budget tree = .ok (some nodes)) :
    ∃ part inner, tree.Gives ["Nodes"] "Nodes" part ∧ readNodes inner part = .ok (some nodes) := by
  obtain ⟨found, read, chosen⟩ := bind_eq_ok_iff.mp reads
  have present : found = some (some nodes) := by
    match found, tree, chosen with
    | some (some found), _, chosen =>
        cases chosen
        rfl
    | none, .array .., chosen => cases chosen
  rw [present] at read
  rcases Tree.readRecord_singleton read with ⟨-, impossible⟩ | ⟨part, inner, first, gives, read⟩
  · cases impossible
  · refine ⟨part, inner, gives, ?_⟩
    cases found : readNodes inner part with
    | error problem =>
        dsimp only at read
        rw [found] at read
        cases read
    | ok other =>
        dsimp only at read
        rw [found] at read
        cases read
        rfl

end Nodes

/-! ## The outermost object -/

section Roots

variable {budget : Nat} {tree : Tree} {root : Root}

/-- What the format mark is read from. -/
theorem format_of_readRecord
    (reads : Tree.readRecord rootFields ⟨none, none, none⟩ budget tree = .ok root) :
    (root.format = none ∧ Unmarked tree) ∨
      ∃ format, root.format.isSome ∧ tree.Gives rootNames "Format" format ∧ format ≠ .null := by
  have others : ∀ other ∈ rootFields, other.name ≠ "Format" → Tree.Untouched Root.format [other] :=
    List.forall_mem_cons.mpr ⟨fun different => absurd rfl different,
      List.forall_mem_cons.mpr ⟨fun _ => Tree.untouched_of_set fun _ _ => rfl,
        List.forall_mem_singleton.mpr fun _ => Tree.untouched_of_set fun _ _ => rfl⟩⟩
  obtain ⟨inner, -, ⟨lacks, same⟩ | ⟨part, first, next, gives, read, same⟩⟩ :=
    Tree.readRecord_field (List.mem_cons_self ..) (by decide) others reads
  · exact .inl ⟨same, .absent lacks⟩
  · obtain ⟨format, found, set⟩ := bind_eq_ok_iff.mp read
    cases set
    rcases Tree.readOption_eq_ok_iff.mp found with ⟨rfl, rfl⟩ | ⟨not_null, value, rfl, -⟩
    · exact .inl ⟨same, .null gives⟩
    · exact .inr ⟨part, by rw [same]; rfl, gives, not_null⟩

/-- What the body is read from. -/
theorem body_of_readRecord
    (reads : Tree.readRecord rootFields ⟨none, none, none⟩ budget tree = .ok root)
    {nodes : List SourceNode} (present : root.body = some (some nodes)) :
    ∃ body inner, tree.Gives rootNames "SceneAsset" body ∧
      readBody inner body = .ok (some nodes) := by
  have others : ∀ other ∈ rootFields, other.name ≠ "SceneAsset" → Tree.Untouched Root.body [other] :=
    List.forall_mem_cons.mpr ⟨fun _ => Tree.untouched_of_set fun _ _ => rfl,
      List.forall_mem_cons.mpr ⟨fun different => absurd rfl different,
        List.forall_mem_singleton.mpr fun _ => Tree.untouched_of_set fun _ _ => rfl⟩⟩
  obtain ⟨inner, -, ⟨-, same⟩ | ⟨part, first, next, gives, read, same⟩⟩ :=
    Tree.readRecord_field (.tail _ (.head _)) (by decide) others reads
  · rw [present] at same
    cases same
  · obtain ⟨body, found, set⟩ := bind_eq_ok_iff.mp read
    cases set
    rw [present] at same
    rcases Tree.readOption_eq_ok_iff.mp found with ⟨-, rfl⟩ | ⟨-, value, rfl, given⟩
    · cases same
    · cases same
      exact ⟨part, inner, gives, given⟩

/-- What the nodes beside a body are read from. -/
theorem nodes_of_readRecord
    (reads : Tree.readRecord rootFields ⟨none, none, none⟩ budget tree = .ok root)
    {nodes : List SourceNode} (present : root.nodes = some nodes) :
    ∃ part inner, tree.Gives rootNames "Nodes" part ∧ readNodes inner part = .ok (some nodes) := by
  have others : ∀ other ∈ rootFields, other.name ≠ "Nodes" → Tree.Untouched Root.nodes [other] :=
    List.forall_mem_cons.mpr ⟨fun _ => Tree.untouched_of_set fun _ _ => rfl,
      List.forall_mem_cons.mpr ⟨fun _ => Tree.untouched_of_set fun _ _ => rfl,
        List.forall_mem_singleton.mpr fun different => absurd rfl different⟩⟩
  obtain ⟨inner, -, ⟨-, same⟩ | ⟨part, first, next, gives, read, same⟩⟩ :=
    Tree.readRecord_field (.tail _ (.tail _ (.head _))) (by decide) others reads
  · rw [present] at same
    cases same
  · obtain ⟨given, found, set⟩ := bind_eq_ok_iff.mp read
    cases set
    rw [present] at same
    exact ⟨part, inner, gives, same ▸ found⟩

/-- The nodes that are selected are depicted by the array that holds the nodes. -/
theorem holds_of_selectNodes {nodes : List SourceNode}
    (reads : Tree.readRecord rootFields ⟨none, none, none⟩ budget tree = .ok root)
    (selects : selectNodes root = .ok (some nodes)) :
    ∃ elements, Holds tree elements ∧ List.Forall₂ Depicts elements nodes := by
  rcases format_of_readRecord reads with ⟨absent, unmarked⟩ | ⟨format, present, marked, not_null⟩
  · rw [selectNodes, absent] at selects
    obtain ⟨part, inner, gives, read⟩ := nodes_of_readRecord reads (Except.ok.inj selects)
    obtain ⟨elements, rfl, depicted⟩ := depicts_of_readNodes read
    exact ⟨elements, .bare unmarked gives, depicted⟩
  · obtain ⟨value, known⟩ := Option.isSome_iff_exists.mp present
    rw [selectNodes, known] at selects
    obtain ⟨-, -, chosen⟩ := bind_eq_ok_iff.mp selects
    have wrapped : root.body = some (some nodes) := by
      cases body : root.body with
      | none =>
          rw [body] at chosen
          cases chosen
      | some nodes =>
          rw [body] at chosen
          cases chosen
          rfl
    obtain ⟨body, inner, gives, read⟩ := body_of_readRecord reads wrapped
    obtain ⟨part, inner, nodesGiven, read⟩ := gives_of_readBody read
    obtain ⟨elements, rfl, depicted⟩ := depicts_of_readNodes read
    exact ⟨elements, .wrapped marked not_null gives nodesGiven, depicted⟩

end Roots

/-! ## Texts -/

section Texts

variable {text : String}

theorem isJson_iff : IsJson text ↔ ∃ value, Value.read text = .ok value := by
  simp only [Json.Value.read_eq_ok_iff]
  constructor
  · rintro ⟨tree, spelled, shallow, valued⟩
    obtain ⟨value, denotes⟩ := (Tree.exists_denotes_iff spelled.whole).mpr valued
    exact ⟨value, tree, spelled, shallow, denotes⟩
  · rintro ⟨value, tree, spelled, shallow, denotes⟩
    exact ⟨tree, spelled, shallow, (Tree.exists_denotes_iff spelled.whole).mp ⟨value, denotes⟩⟩

theorem isSchema_of_checkFormat {format : Value} {error : DocumentError}
    (fails : checkFormat format = .error error) : error.IsSchema := by
  rw [checkFormat] at fails
  dsimp only at fails
  split_ifs at fails
  all_goals
    cases fails
    trivial

theorem isSchema_of_selectNodes {root : Root} {error : DocumentError}
    (fails : selectNodes root = .error error) : error.IsSchema := by
  cases format : root.format with
  | none =>
      rw [selectNodes, format] at fails
      cases fails
  | some value =>
      rw [selectNodes, format] at fails
      rcases bind_eq_error_iff.mp fails with fails | ⟨-, -, fails⟩
      · exact isSchema_of_checkFormat fails
      · cases body : root.body with
        | none =>
            rw [body] at fails
            cases fails
            trivial
        | some nodes =>
            rw [body] at fails
            cases fails

/-- Once the text is known to be JSON, only its shape is wrong with it. -/
theorem isSchema_of_read {error : DocumentError} {value : Value} (json : Value.read text = .ok value)
    (fails : read text = .error error) : error.IsSchema := by
  rw [read, json] at fails
  rcases bind_eq_error_iff.mp fails with impossible | ⟨_, same, fails⟩
  · cases impossible
  · cases same
    cases value with
    | object object =>
        rcases bind_eq_error_iff.mp fails with fails | ⟨root, -, fails⟩
        · obtain ⟨category, -, rfl⟩ := mapError_eq_error_iff.mp fails
          trivial
        · rcases bind_eq_error_iff.mp fails with fails | ⟨nodes, -, fails⟩
          · exact isSchema_of_selectNodes fails
          · match nodes, fails with
            | none, fails | some [], fails =>
                cases fails
                trivial
            | some (_ :: _), fails => cases fails
    | null | bool | number | string | array =>
        cases fails
        trivial

/-- A text is refused as no JSON exactly if it is none. -/
theorem read_eq_json_iff {category : Category} :
    read text = .error (.json category) ↔ Value.read text = .error category := by
  cases json : Value.read text with
  | error problem =>
      rw [read, json]
      simp [Except.mapError, bind, Except.bind]
  | ok value =>
      refine ⟨fun fails => ?_, nofun⟩
      exact (isSchema_of_read json fails).elim

/-- The nodes of a document that is read are at least one, and are depicted by the array that
holds the nodes in the document's tree. -/
theorem holds_of_read {document : Document} (reads : read text = .ok document) :
    document.nodes ≠ [] ∧ ∃ tree elements, Tree.Spelled tree text ∧ Holds tree elements ∧
      List.Forall₂ Depicts elements document.nodes := by
  obtain ⟨value, json, shaped⟩ := bind_eq_ok_iff.mp reads
  obtain ⟨tree, spelled, -⟩ := Json.Value.read_eq_ok_iff.mp (mapError_eq_ok_iff.mp json)
  cases value with
  | object object =>
      obtain ⟨root, read, chosen⟩ := bind_eq_ok_iff.mp shaped
      obtain ⟨nodes, selects, ending⟩ := bind_eq_ok_iff.mp chosen
      have read := mapError_eq_ok_iff.mp read
      rw [spelled.read] at read
      match nodes, ending with
      | some (first :: rest), ending =>
          cases ending
          obtain ⟨elements, holds, depicted⟩ := holds_of_selectNodes read selects
          exact ⟨List.cons_ne_nil first rest, tree, elements, spelled, holds, depicted⟩
      | some [], ending | none, ending => cases ending
  | null | bool | number | string | array => cases shaped

/-- What parsing a document answers. It refuses a text as no JSON exactly if it is none, and any
other text for its shape. A document has at least one node, and one for each element of the array
that holds the nodes, in order, with an item for each member of the element's items, in order,
and with the properties that the element gives. -/
theorem read_faithful (text : String) :
    ((∃ category, read text = .error (.json category)) ↔ ¬ IsJson text) ∧
      (∀ error, read text = .error error → IsJson text → error.IsSchema) ∧
      ∀ document, read text = .ok document →
        document.nodes ≠ [] ∧ ∃ tree elements, Tree.Spelled tree text ∧ Holds tree elements ∧
          List.Forall₂ Depicts elements document.nodes := by
  refine ⟨?_, fun error fails json => ?_, fun document => holds_of_read⟩
  · simp only [read_eq_json_iff, isJson_iff]
    cases Value.read text <;> simp
  · obtain ⟨value, json⟩ := isJson_iff.mp json
    exact isSchema_of_read json fails

/-- Both items of one name are kept, and the repeated key inside the first takes its last value. -/
theorem read_faithful_repeated :
    ∃ text document, read text = .ok document ∧
      document.nodes = [⟨none,
        [("Mesh", .object [("A", .number (.integer 3)), ("B", .null)]), ("Mesh", .null)]⟩] ∧
      ∃ tree elements, Tree.Spelled tree text ∧ Holds tree elements ∧
        List.Forall₂ Depicts elements document.nodes := by
  have tree : Tree.read
      "\x7b\"Nodes\":[\x7b\"Items\":\x7b\"Mesh\":\x7b\"A\":1,\"B\":null,\"A\":3\x7d,\"Mesh\":null\x7d\x7d]\x7d" =
      ⟨.object [(.ok "Nodes", .array [.object [(.ok "Items", .object
        [(.ok "Mesh", .object [(.ok "A", .number (.ok (.integer 1))), (.ok "B", .null),
          (.ok "A", .number (.ok (.integer 3)))] none), (.ok "Mesh", .null)] none)] none] none)] none,
        false⟩ := by rfl
  have reads : read
      "\x7b\"Nodes\":[\x7b\"Items\":\x7b\"Mesh\":\x7b\"A\":1,\"B\":null,\"A\":3\x7d,\"Mesh\":null\x7d\x7d]\x7d" =
      .ok ⟨[⟨none, [("Mesh", .object [("A", .number (.integer 3)), ("B", .null)]), ("Mesh", .null)]⟩]⟩ := by
    rw [read, Value.read, tree]
    rfl
  exact ⟨_, _, reads, rfl, ((read_faithful _).2.2 _ reads).2⟩

/-- A text is JSON by the grammar, and within the limits for nesting and for numbers. -/
def WellFormed (text : String) : Prop :=
  ∃ tree : Tree, tree.Spelled text ∧ tree.depth ≤ Tree.nestingLimit ∧
    ∀ problem, .number (.error problem) ∉ tree.tokens

/-- Half a surrogate pair is well-formed by the grammar, and refused. -/
theorem lone_surrogate_refused :
    ¬ ∀ text, (∃ category, read text = .error (.json category)) ↔ ¬ WellFormed text := by
  intro claimed
  have read : Tree.read "\x7b\"Nodes\":[\x7b\x7d],\"x\":\"\\ud800\"\x7d" =
      ⟨.object [(.ok "Nodes", .array [.object [] none] none), (.ok "x", .string (.error .malformed))]
        none, false⟩ := by rfl
  have whole : Tree.Whole (.object [(.ok "Nodes", .array [.object [] none] none),
      (.ok "x", .string (.error .malformed))] none) := by
    refine .object (List.forall_mem_cons.mpr ⟨.array (List.forall_mem_singleton.mpr (.object nofun)), ?_⟩)
    exact List.forall_mem_singleton.mpr (.string _)
  refine (claimed _).mp ⟨.malformed, ?_⟩ ⟨_, (Tree.read_eq_iff whole).mp read, by decide, ?_⟩
  · rfl
  · simp [Tree.tokens, Tree.elementTokens, Tree.memberTokens, Tree.listed, List.intercalate]

end Texts

end Document

end SceneForge
