import SceneForge.Compile.Compiler
import SceneForge.Proofs.Json.Readers

/-!
# The two forms of a document

The nodes of a document may stand in the document itself, or in a body beside a format mark of
the right type and version. Both forms compile to the same buffer or fail with the same error,
whatever stands for the nodes. The nodes are one level deeper in a body, which makes no
difference as long as they are not nested so deeply that only one of the forms can be read.
-/

namespace SceneForge

open Json (Category Token Tree Value)

namespace Document

/-- The version that the format mark has to spell: the number one, or a text that reads as it. -/
inductive MarksVersion : Tree → Prop
  | number : MarksVersion (.number (.ok (.integer 1)))
  | text {text : String} (one : Decimal.natBelow? (2 ^ 64) text = some 1) :
      MarksVersion (.string (.ok text))

/-- A document that holds its nodes itself. -/
def bare (nodes : String) : String := "\x7b\"Nodes\":" ++ nodes ++ "\x7d"

/-- A document that holds its nodes in a body. -/
def wrapped (version nodes : String) : String :=
  "\x7b\"Format\":\x7b\"Type\":\"SceneAsset\",\"Version\":" ++ version ++
    "\x7d,\"SceneAsset\":\x7b\"Nodes\":" ++ nodes ++ "\x7d\x7d"

section Trees

variable {tree mark : Tree} {nodes version : String}

/-- The tree of a document that holds its nodes itself. -/
def bareTree (tree : Tree) : Tree := .object [(.ok "Nodes", tree)] none

/-- The tree of a format mark. -/
def markTree (mark : Tree) : Tree :=
  .object [(.ok "Type", .string (.ok "SceneAsset")), (.ok "Version", mark)] none

/-- The tree of a document that holds its nodes in a body. -/
def wrappedTree (mark tree : Tree) : Tree :=
  .object [(.ok "Format", markTree mark), (.ok "SceneAsset", bareTree tree)] none

theorem spelled_bare (spelled : tree.Spelled nodes) : (bareTree tree).Spelled (bare nodes) where
  whole := .object (List.forall_mem_singleton.mpr spelled.whole)
  spells := by
    have opening : Token.Spells [.openObject, .string (.ok "Nodes"), .colon] "\x7b\"Nodes\":".toList :=
      Token.spells_of_scan (by rfl) (by simp [Token.Faultless])
    have closing : Token.Spells [.closeObject] "\x7d".toList :=
      Token.spells_of_scan (by rfl) (by simp [Token.Faultless])
    unfold bare
    rw [String.toList_append, String.toList_append]
    have spells := (opening.append spelled.spells).append closing
    simpa [bareTree, Tree.tokens_object, Tree.listed, Tree.memberPart, List.intercalate] using spells

theorem spelled_wrapped (marked : mark.Spelled version) (spelled : tree.Spelled nodes) :
    (wrappedTree mark tree).Spelled (wrapped version nodes) where
  whole := by
    have markWhole : (markTree mark).Whole :=
      .object (List.forall_mem_cons.mpr ⟨.string _, List.forall_mem_singleton.mpr marked.whole⟩)
    exact .object (List.forall_mem_cons.mpr
      ⟨markWhole, List.forall_mem_singleton.mpr (spelled_bare spelled).whole⟩)
  spells := by
    have opening : Token.Spells [.openObject, .string (.ok "Format"), .colon, .openObject,
        .string (.ok "Type"), .colon, .string (.ok "SceneAsset"), .comma, .string (.ok "Version"), .colon]
        "\x7b\"Format\":\x7b\"Type\":\"SceneAsset\",\"Version\":".toList :=
      Token.spells_of_scan (by rfl) (by simp [Token.Faultless])
    have between : Token.Spells [.closeObject, .comma, .string (.ok "SceneAsset"), .colon,
        .openObject, .string (.ok "Nodes"), .colon] "\x7d,\"SceneAsset\":\x7b\"Nodes\":".toList :=
      Token.spells_of_scan (by rfl) (by simp [Token.Faultless])
    have closing : Token.Spells [.closeObject, .closeObject] "\x7d\x7d".toList :=
      Token.spells_of_scan (by rfl) (by simp [Token.Faultless])
    unfold wrapped
    rw [String.toList_append, String.toList_append, String.toList_append, String.toList_append]
    have spells := (((opening.append marked.spells).append between).append spelled.spells).append closing
    simpa [wrappedTree, bareTree, markTree, Tree.tokens, Tree.memberTokens, Tree.listed,
      List.intercalate] using spells

end Trees

section Reading

variable {tree mark : Tree} {text : String} {budget : Nat}

/-- The document of nodes that are read at most `budget` containers deep, if all of its other parts
are right. -/
def ofNodes (budget : Nat) (tree : Tree) : Except DocumentError Document := do
  let _ ← (tree.value budget).mapError DocumentError.json
  let nodes ← (readNodes budget tree).mapError fun _ => DocumentError.shape
  match nodes with
  | none => throw .noNodeArray
  | some [] => throw .noNodes
  | some nodes => return ⟨nodes⟩

theorem value_bareTree :
    (bareTree tree).value (budget + 1) = (tree.value budget).map fun value => .object [("Nodes", value)] := by
  cases value : tree.value budget <;>
    simp [bareTree, Tree.value, Tree.memberValues, value, Json.Object.insert, bind, Except.bind, Except.map]

theorem readRecord_bareTree :
    Tree.readRecord rootFields ⟨none, none, none⟩ (budget + 1) (bareTree tree) =
      (readNodes budget tree).map fun nodes => ⟨none, none, nodes⟩ := by
  cases nodes : readNodes budget tree <;>
    simp [bareTree, Tree.readRecord, Tree.readMembers, rootFields, nodes, bind, Except.bind, Except.map,
      pure, Except.pure]

/-- The value of a format mark. -/
def markValue (version : Value) : Value :=
  .object [("Type", .string "SceneAsset"), ("Version", version)]

theorem value_markTree {version : Value} (marks : mark.value budget = .ok version) :
    (markTree mark).value (budget + 1) = .ok (markValue version) := by
  simp [markTree, Tree.value, Tree.memberValues, marks, Json.Object.insert, bind, Except.bind, Except.map,
    markValue]

theorem value_wrappedTree {version : Value} (marks : mark.value budget = .ok version) :
    (wrappedTree mark tree).value (budget + 2) = (tree.value budget).map fun value =>
      .object [("Format", markValue version), ("SceneAsset", .object [("Nodes", value)])] := by
  rw [wrappedTree, Tree.value]
  cases value : tree.value budget <;>
    simp [Tree.memberValues, value_markTree marks, value_bareTree, value, Json.Object.insert, bind,
      Except.bind, Except.map]

theorem readBody_bareTree :
    readBody (budget + 1) (bareTree tree) = readNodes budget tree := by
  cases nodes : readNodes budget tree <;>
    simp [readBody, bareTree, Tree.readRecord, Tree.readMembers, nodes, bind, Except.bind, Except.map,
      pure, Except.pure, Functor.map]

theorem readRecord_wrappedTree {version : Value} (marks : mark.value budget = .ok version) :
    Tree.readRecord rootFields ⟨none, none, none⟩ (budget + 2) (wrappedTree mark tree) =
      (readNodes budget tree).map fun nodes => ⟨some (markValue version), some nodes, none⟩ := by
  have format : Tree.readOption Tree.value (budget + 1) (markTree mark) = .ok (some (markValue version)) :=
    congrArg (Except.map some) (value_markTree marks)
  have body : Tree.readOption readBody (budget + 1) (bareTree tree) = (readNodes budget tree).map some :=
    congrArg (Except.map some) readBody_bareTree
  rw [wrappedTree, Tree.readRecord]
  cases nodes : readNodes budget tree <;>
    simp [Tree.readMembers, rootFields, format, body, nodes, bind, Except.bind, Except.map, pure,
      Except.pure]

theorem exists_version (marks : MarksVersion mark) :
    ∃ version, (∀ budget, mark.value budget = .ok version) ∧ version? (some version) = some 1 := by
  cases marks with
  | number => exact ⟨_, fun _ => rfl, rfl⟩
  | text one => exact ⟨_, fun _ => rfl, one⟩

theorem checkFormat_markValue {version : Value} (one : version? (some version) = some 1) :
    checkFormat (markValue version) = .ok () := by
  have type : member? (markValue version) "Type" = some (.string "SceneAsset") := rfl
  have marked : member? (markValue version) "Version" = some version := rfl
  rw [checkFormat, type, marked]
  exact if_neg (not_not_intro one)

/-- The document in a text that spells a tree. -/
theorem read_of_spelled (spelled : tree.Spelled text) :
    read text = (do
      match ← (tree.value Tree.nestingLimit).mapError DocumentError.json with
      | .object _ =>
          let root ← (Tree.readRecord rootFields ⟨none, none, none⟩ Tree.nestingLimit tree).mapError
            fun _ => DocumentError.shape
          match ← selectNodes root with
          | none => throw .noNodeArray
          | some [] => throw .noNodes
          | some nodes => return ⟨nodes⟩
      | _ => throw .notObject) := by
  rw [read, Value.read, spelled.read]
  cases tree.value Tree.nestingLimit <;> rfl

theorem read_bare (spelled : (bareTree tree).Spelled text) : read text = ofNodes 126 tree := by
  rw [read_of_spelled spelled, ofNodes, Tree.nestingLimit, value_bareTree, readRecord_bareTree]
  cases value : tree.value 126 with
  | error problem => rfl
  | ok value => cases readNodes 126 tree <;> rfl

theorem read_wrapped (marks : MarksVersion mark) (spelled : (wrappedTree mark tree).Spelled text) :
    read text = ofNodes 125 tree := by
  obtain ⟨version, marked, one⟩ := exists_version marks
  rw [read_of_spelled spelled, ofNodes, Tree.nestingLimit, value_wrappedTree (marked 125),
    readRecord_wrappedTree (marked 125)]
  cases value : tree.value 125 with
  | error problem => rfl
  | ok value =>
      cases readNodes 125 tree with
      | error problem => rfl
      | ok nodes =>
          simp [Except.map, Except.mapError, bind, Except.bind, selectNodes, checkFormat_markValue one,
            pure, Except.pure]

theorem depthwise_readNodes : Tree.Depthwise readNodes := by
  refine Tree.depthwise_readOption (Tree.depthwise_readList (Tree.depthwise_readRecord ?_))
  exact List.forall_mem_cons.mpr
    ⟨fun _ => (Tree.depthwise_readOption Tree.depthwise_value).bind _,
      List.forall_mem_singleton.mpr fun _ => (Tree.depthwise_readMap Tree.depthwise_value).bind _⟩

/-- How deep nodes may be nested does not matter as long as they are not nested as deeply. -/
theorem ofNodes_eq {other : Nat} (enough : tree.depth ≤ budget) (enoughToo : tree.depth ≤ other) :
    ofNodes budget tree = ofNodes other tree := by
  rw [ofNodes, ofNodes, Tree.depthwise_value enough enoughToo, depthwise_readNodes enough enoughToo]

end Reading

end Document

/-- Both forms of a document compile to the same buffer or fail with the same error, for every
spelling of the version and for every text in the place of the nodes that is not nested too
deeply. -/
theorem Compiler.buffer_wrapped (compiler : Compiler) {tree mark : Tree} {nodes version : String}
    (spelled : tree.Spelled nodes) (shallow : tree.depth ≤ 125) (marked : mark.Spelled version)
    (marks : Document.MarksVersion mark) :
    compiler.buffer (Document.wrapped version nodes) = compiler.buffer (Document.bare nodes) := by
  have same : Document.ofNodes 125 tree = Document.ofNodes 126 tree :=
    Document.ofNodes_eq shallow (by omega)
  rw [buffer, buffer, Document.read_wrapped marks (Document.spelled_wrapped marked spelled),
    Document.read_bare (Document.spelled_bare spelled), same]

/-- The version may be a text with a sign and with zeros before it. -/
theorem Compiler.buffer_wrapped_signed :
    let compiler : Compiler := ⟨.standard, .empty, .standard⟩
    let tree : Tree := .array [.object [] none] none
    tree.Spelled "[\x7b\x7d]" ∧ tree.depth ≤ 125 ∧ Document.MarksVersion (.string (.ok "+001")) ∧
      compiler.buffer (Document.wrapped "\"+001\"" "[\x7b\x7d]") =
        compiler.buffer (Document.bare "[\x7b\x7d]") := by
  intro compiler tree
  have whole : tree.Whole := .array (List.forall_mem_singleton.mpr (.object nofun))
  have spelled : tree.Spelled "[\x7b\x7d]" := (Tree.read_eq_iff whole).mp (by rfl)
  have marked : Tree.Spelled (.string (.ok "+001")) "\"+001\"" :=
    (Tree.read_eq_iff (.string _)).mp (by rfl)
  have marks : Document.MarksVersion (.string (.ok "+001")) := .text (by decide)
  exact ⟨spelled, by decide, marks, buffer_wrapped compiler spelled (by decide) marked marks⟩

end SceneForge
