import SceneForge.Json.Tree
import SceneForge.Proofs.Json.Tokens

/-!
# The grammar of JSON

Which texts are JSON. A tree without a fault has a sequence of tokens (`tokens`), and a text
spells the tree if it spells these. The machine that builds trees out of tokens reads a tree of
a text, with nothing behind it, exactly if the text spells the tree: what its stack holds has
been read (`Context.Holds`), and it reads a tree's tokens in any context.
-/

namespace SceneForge.Json.Tree

/-- A tree without a fault. -/
inductive Whole : Tree → Prop
  | null : Whole .null
  | bool (value : Bool) : Whole (.bool value)
  | number (value : Except Category Number) : Whole (.number value)
  | string (value : Except Category String) : Whole (.string value)
  | array {elements : List Tree} (all : ∀ element ∈ elements, Whole element) :
      Whole (.array elements none)
  | object {members : List Member} (all : ∀ member ∈ members, Whole member.2) :
      Whole (.object members none)

/-- Sequences of tokens with commas between them. -/
def listed (parts : List (List Token)) : List Token := [Token.comma].intercalate parts

mutual

/-- The tokens of a tree. -/
def tokens : Tree → List Token
  | .null => [.null]
  | .bool value => [.bool value]
  | .number value => [.number value]
  | .string value => [.string value]
  | .array elements _ => .openArray :: (listed (elementTokens elements) ++ [.closeArray])
  | .object members _ => .openObject :: (listed (memberTokens members) ++ [.closeObject])
  | .broken fault => [.fault fault]

/-- The tokens of every element. -/
def elementTokens : List Tree → List (List Token)
  | [] => []
  | element :: rest => element.tokens :: elementTokens rest

/-- The tokens of every member. -/
def memberTokens : List Member → List (List Token)
  | [] => []
  | (key, value) :: rest => (.string key :: .colon :: value.tokens) :: memberTokens rest

end

/-- The tokens of a member. -/
def memberPart (member : Member) : List Token := .string member.1 :: .colon :: member.2.tokens

theorem elementTokens_eq_map (elements : List Tree) : elementTokens elements = elements.map tokens := by
  induction elements with
  | nil => rfl
  | cons element rest ih => rw [elementTokens, ih, List.map_cons]

theorem memberTokens_eq_map (members : List Member) : memberTokens members = members.map memberPart := by
  induction members with
  | nil => rfl
  | cons member rest ih => rw [memberTokens, ih, List.map_cons, memberPart]

theorem listed_cons (part : List Token) (parts : List (List Token)) :
    listed (part :: parts) = part ++ parts.flatMap (.comma :: ·) := by
  induction parts generalizing part with
  | nil => simp [listed]
  | cons next rest ih =>
      have unfolded : listed (part :: next :: rest) = part ++ .comma :: listed (next :: rest) := by
        simp [listed, List.intercalate]
      rw [unfolded, ih, List.flatMap_cons, List.cons_append]

theorem listed_snoc (parts : List (List Token)) (last : List Token) :
    listed (parts ++ [last]) = parts.flatMap (· ++ [.comma]) ++ last := by
  induction parts with
  | nil => simp [listed]
  | cons part rest ih =>
      have unfolded : listed (part :: (rest ++ [last])) = part ++ .comma :: listed (rest ++ [last]) := by
        cases rest <;> simp [listed, List.intercalate]
      rw [List.cons_append, unfolded, ih, List.flatMap_cons]
      simp

/-- A text spells a tree: the tree is without fault, and the text spells its tokens. -/
structure Spelled (tree : Tree) (text : String) : Prop where
  whole : tree.Whole
  spells : Token.Spells tree.tokens text.toList

/-! ## Every tree is read -/

section Completeness

variable {tree : Tree}

theorem tokens_array (elements : List Tree) (fault : Option Fault) :
    tokens (.array elements fault) =
      .openArray :: (listed (elements.map tokens) ++ [.closeArray]) := by
  rw [tokens, elementTokens_eq_map]

theorem tokens_object (members : List Member) (fault : Option Fault) :
    tokens (.object members fault) =
      .openObject :: (listed (members.map memberPart) ++ [.closeObject]) := by
  rw [tokens, memberTokens_eq_map]

/-- Where an element may stand or the array may end, a tree is an element. -/
theorem foldl_firstElement (whole : tree.Whole) (outer : Context) :
    tree.tokens.foldl step (.firstElement outer) =
      tree.tokens.foldl step (.value (.element [] outer)) := by
  cases whole <;> rfl

theorem foldl_elements {elements : List Tree}
    (reads : ∀ element ∈ elements, ∀ context,
      element.tokens.foldl step (.value context) = context.after element)
    (before : List Tree) (outer : Context) :
    ((elements.map tokens).flatMap (.comma :: ·)).foldl step (.afterElement before outer) =
      .afterElement (elements.reverse ++ before) outer := by
  induction elements generalizing before with
  | nil => rfl
  | cons element rest ih =>
      obtain ⟨first, others⟩ := List.forall_mem_cons.mp reads
      rw [List.map_cons, List.flatMap_cons, List.cons_append, List.foldl_cons, step,
        List.foldl_append, first, Context.after, ih others]
      simp

theorem foldl_members {members : List Member}
    (reads : ∀ member ∈ members, ∀ context,
      member.2.tokens.foldl step (.value context) = context.after member.2)
    (before : List Member) (outer : Context) :
    ((members.map memberPart).flatMap (.comma :: ·)).foldl step (.afterMember before outer) =
      .afterMember (members.reverse ++ before) outer := by
  induction members generalizing before with
  | nil => rfl
  | cons member rest ih =>
      obtain ⟨first, others⟩ := List.forall_mem_cons.mp reads
      have reading : (memberPart member).foldl step (.key before outer) =
          .afterMember (member :: before) outer := first (.member before member.1 outer)
      rw [List.map_cons, List.flatMap_cons, List.cons_append, List.foldl_cons, step,
        List.foldl_append, reading, ih others]
      simp

/-- The tokens of a tree are read as this tree, in any context. -/
theorem foldl_tokens (whole : tree.Whole) (context : Context) :
    tree.tokens.foldl step (.value context) = context.after tree := by
  induction whole generalizing context with
  | null | bool | number | string => rfl
  | @array elements all ih =>
      rw [tokens_array, List.foldl_cons, step, beginValue, List.foldl_append]
      cases elements with
      | nil => rfl
      | cons first rest =>
          obtain ⟨firstReads, othersRead⟩ := List.forall_mem_cons.mp ih
          rw [List.map_cons, listed_cons, List.foldl_append,
            foldl_firstElement (all first (List.mem_cons_self ..)), firstReads, Context.after,
            foldl_elements othersRead]
          simp [step]
  | @object members all ih =>
      rw [tokens_object, List.foldl_cons, step, beginValue, List.foldl_append]
      cases members with
      | nil => rfl
      | cons first rest =>
          obtain ⟨firstReads, othersRead⟩ := List.forall_mem_cons.mp ih
          have reading : (memberPart first).foldl step (.firstKey context) =
              .afterMember [first] context := firstReads (.member [] first.1 context)
          rw [List.map_cons, listed_cons, List.foldl_append, reading, foldl_members othersRead]
          simp [step]

end Completeness

/-! ## Every tree that is read is spelled -/

section Soundness

variable {read : List Token} {token : Token} {tree : Tree}

/-- Parts with a comma behind each of them. -/
def punctuated (parts : List (List Token)) : List Token := parts.flatMap (· ++ [.comma])

/-- The tokens that have been read before a place. -/
inductive Context.Holds : Context → List Token → Prop
  | top : Holds .top []
  | element {before : List Tree} {outer : Context} {read : List Token} (holds : Holds outer read)
      (all : ∀ element ∈ before, element.Whole) :
      Holds (.element before outer)
        (read ++ .openArray :: punctuated (before.reverse.map tokens))
  | member {before : List Member} {key : Except Category String} {outer : Context}
      {read : List Token} (holds : Holds outer read) (all : ∀ member ∈ before, member.2.Whole) :
      Holds (.member before key outer)
        (read ++ .openObject :: (punctuated (before.reverse.map memberPart) ++ [.string key, .colon]))

/-- The tokens that have been read before what is expected. -/
inductive Expecting.Holds : Expecting → List Token → Prop
  | value {context : Context} {read : List Token} (holds : context.Holds read) :
      Holds (.value context) read
  | firstElement {outer : Context} {read : List Token} (holds : outer.Holds read) :
      Holds (.firstElement outer) (read ++ [.openArray])
  | firstKey {outer : Context} {read : List Token} (holds : outer.Holds read) :
      Holds (.firstKey outer) (read ++ [.openObject])
  | key {before : List Member} {outer : Context} {read : List Token} (holds : outer.Holds read)
      (all : ∀ member ∈ before, member.2.Whole) :
      Holds (.key before outer)
        (read ++ .openObject :: punctuated (before.reverse.map memberPart))
  | colon {before : List Member} {key : Except Category String} {outer : Context}
      {read : List Token} (holds : outer.Holds read) (all : ∀ member ∈ before, member.2.Whole) :
      Holds (.colon before key outer)
        (read ++ .openObject :: (punctuated (before.reverse.map memberPart) ++ [.string key]))
  | afterElement {before : List Tree} {last : Tree} {outer : Context} {read : List Token}
      (holds : outer.Holds read) (all : ∀ element ∈ last :: before, element.Whole) :
      Holds (.afterElement (last :: before) outer)
        (read ++ .openArray :: listed ((last :: before).reverse.map tokens))
  | afterMember {before : List Member} {last : Member} {outer : Context} {read : List Token}
      (holds : outer.Holds read) (all : ∀ member ∈ last :: before, member.2.Whole) :
      Holds (.afterMember (last :: before) outer)
        (read ++ .openObject :: listed ((last :: before).reverse.map memberPart))
  | nothing {tree : Tree} (whole : tree.Whole) : Holds (.nothing tree) tree.tokens

/-- Nothing is wrong yet. -/
def Expecting.Live : Expecting → Prop
  | .surplus _ | .stopped _ => False
  | _ => True

theorem listed_reverse_cons {α : Type} (part : α → List Token) (last : α) (before : List α) :
    listed ((last :: before).reverse.map part) =
      punctuated (before.reverse.map part) ++ part last := by
  rw [List.reverse_cons, List.map_append, List.map_singleton, listed_snoc, punctuated]

theorem punctuated_reverse_cons {α : Type} (part : α → List Token) (last : α) (before : List α) :
    punctuated ((last :: before).reverse.map part) =
      listed ((last :: before).reverse.map part) ++ [.comma] := by
  rw [listed_reverse_cons]
  simp [punctuated]

theorem Expecting.Holds.of_eq {expecting : Expecting} {other : List Token}
    (holds : expecting.Holds read) (same : read = other) : expecting.Holds other := same ▸ holds

/-- A complete value is held where it stands. -/
theorem holds_after {context : Context} (holds : context.Holds read) (whole : tree.Whole) :
    (context.after tree).Holds (read ++ tree.tokens) := by
  cases holds with
  | top => exact .nothing whole
  | element holds all =>
      have after := Expecting.Holds.afterElement holds (List.forall_mem_cons.mpr ⟨whole, all⟩)
      rw [listed_reverse_cons] at after
      exact after.of_eq (by simp)
  | @member before key outer read holds all =>
      have all : ∀ member ∈ (key, tree) :: before, member.2.Whole :=
        List.forall_mem_cons.mpr ⟨whole, all⟩
      have after := Expecting.Holds.afterMember holds all
      rw [listed_reverse_cons] at after
      exact after.of_eq (by simp [memberPart])

theorem holds_beginValue {context : Context} (holds : context.Holds read)
    (live : (beginValue context token).Live) :
    (beginValue context token).Holds (read ++ [token]) := by
  cases token with
  | null => exact holds_after holds .null
  | bool value => exact holds_after holds (.bool value)
  | number value => exact holds_after holds (.number value)
  | string value => exact holds_after holds (.string value)
  | openArray => exact .firstElement holds
  | openObject => exact .firstKey holds
  | fault | closeArray | closeObject | comma | colon => cases live

theorem step_firstElement {outer : Context} (continues : token ≠ .closeArray) :
    step (.firstElement outer) token = beginValue (.element [] outer) token := by
  cases token with
  | closeArray => contradiction
  | _ => rfl

/-- Every token is held, unless something is wrong with it. -/
theorem holds_step {expecting : Expecting} (holds : expecting.Holds read)
    (live : (step expecting token).Live) : (step expecting token).Holds (read ++ [token]) := by
  cases holds with
  | value holds => exact holds_beginValue holds live
  | @firstElement outer read holds =>
      by_cases ends : token = .closeArray
      · subst ends
        have whole : Whole (.array [] none) := .array nofun
        exact (holds_after holds whole).of_eq (by simp [tokens_array, listed])
      · have element : (Context.element [] outer).Holds (read ++ [.openArray]) := .element holds nofun
        rw [step_firstElement ends] at live ⊢
        exact holds_beginValue element live
  | @firstKey outer read holds =>
      cases token with
      | closeObject =>
          have whole : Whole (.object [] none) := .object nofun
          exact (holds_after holds whole).of_eq (by simp [tokens_object, listed])
      | string key =>
          have colon : (Expecting.colon [] key outer).Holds _ := .colon holds nofun
          exact colon.of_eq (by simp [punctuated])
      | _ => cases live
  | @key before outer read holds all =>
      cases token with
      | string key =>
          have colon : (Expecting.colon before key outer).Holds _ := .colon holds all
          exact colon.of_eq (by simp)
      | _ => cases live
  | @colon before key outer read holds all =>
      cases token with
      | colon =>
          have value : (Expecting.value (.member before key outer)).Holds _ := .value (.member holds all)
          exact value.of_eq (by simp)
      | _ => cases live
  | @afterElement before last outer read holds all =>
      cases token with
      | comma =>
          have element := Expecting.Holds.value (.element holds all)
          rw [punctuated_reverse_cons] at element
          exact element.of_eq (by simp)
      | closeArray =>
          have whole : Whole (.array (last :: before).reverse none) :=
            .array fun element member => all element (List.mem_reverse.mp member)
          exact (holds_after holds whole).of_eq (by simp [tokens_array])
      | _ => cases live
  | @afterMember before last outer read holds all =>
      cases token with
      | comma =>
          have key := Expecting.Holds.key holds all
          rw [punctuated_reverse_cons] at key
          exact key.of_eq (by simp)
      | closeObject =>
          have whole : Whole (.object (last :: before).reverse none) :=
            .object fun element member => all element (List.mem_reverse.mp member)
          exact (holds_after holds whole).of_eq (by simp [tokens_object])
      | _ => cases live
  | nothing => cases live

theorem live_of_foldl {tokens : List Token} {expecting : Expecting}
    (live : (tokens.foldl step expecting).Live) : expecting.Live := by
  induction tokens generalizing expecting with
  | nil => exact live
  | cons token rest ih =>
      have next := ih live
      cases expecting with
      | surplus tree | stopped tree => cases next
      | _ => trivial

/-- All tokens are held, unless something is wrong with one of them. -/
theorem holds_foldl {tokens : List Token} {expecting : Expecting} (holds : expecting.Holds read)
    (live : (tokens.foldl step expecting).Live) :
    (tokens.foldl step expecting).Holds (read ++ tokens) := by
  induction tokens generalizing expecting read with
  | nil => exact holds.of_eq (by simp)
  | cons token rest ih =>
      exact (ih (holds_step holds (live_of_foldl live)) live).of_eq (by simp)

end Soundness

/-! ## No tree with a fault is whole -/

section Faults

variable {tree : Tree}

theorem not_whole_broken (fault : Fault) : ¬ (Tree.broken fault).Whole := nofun

theorem not_whole_array (elements : List Tree) (fault : Fault) :
    ¬ (Tree.array elements (some fault)).Whole := nofun

theorem not_whole_object (members : List Member) (fault : Fault) :
    ¬ (Tree.object members (some fault)).Whole := nofun

/-- A faulty value makes everything around it faulty. -/
theorem not_whole_close (faulty : ¬ tree.Whole) (context : Context) :
    ¬ (context.close tree).Whole := by
  induction context generalizing tree with
  | top => exact faulty
  | element before outer ih =>
      refine ih fun whole => faulty ?_
      cases whole with
      | array all => exact all tree (by simp)
  | member before key outer ih =>
      refine ih fun whole => faulty ?_
      cases whole with
      | object all => exact all (key, tree) (by simp)

/-- Where reading stops there is a fault. -/
def Expecting.Sound (expecting : Expecting) : Prop :=
  ∀ tree, expecting = .stopped tree → ¬ tree.Whole

theorem sound_start : (Expecting.value .top).Sound := by
  intro tree same
  cases same

theorem sound_after (context : Context) (tree : Tree) : (context.after tree).Sound := by
  cases context <;> exact nofun

theorem sound_stopped (faulty : ¬ tree.Whole) : (Expecting.stopped tree).Sound := by
  intro other same
  cases same
  exact faulty

theorem sound_beginValue (context : Context) (token : Token) : (beginValue context token).Sound := by
  cases token with
  | null | bool | number | string => exact sound_after _ _
  | openArray | openObject => exact nofun
  | fault | closeArray | closeObject | comma | colon =>
      exact sound_stopped (not_whole_close (not_whole_broken _) context)

theorem sound_step {expecting : Expecting} (sound : expecting.Sound) (token : Token) :
    (step expecting token).Sound := by
  cases expecting with
  | value context => exact sound_beginValue context token
  | firstElement outer =>
      by_cases ends : token = .closeArray
      · subst ends
        exact sound_after outer _
      · rw [step_firstElement ends]
        exact sound_beginValue (.element [] outer) token
  | firstKey outer =>
      cases token with
      | closeObject => exact sound_after _ _
      | string key => exact nofun
      | _ => exact sound_stopped (not_whole_close (not_whole_object _ _) outer)
  | key before outer =>
      cases token with
      | string key => exact nofun
      | _ => exact sound_stopped (not_whole_close (not_whole_object _ _) outer)
  | colon before key outer =>
      cases token with
      | colon => exact nofun
      | _ => exact sound_stopped (not_whole_close (not_whole_broken _) (.member before key outer))
  | afterElement before outer =>
      cases token with
      | comma => exact nofun
      | closeArray => exact sound_after _ _
      | _ => exact sound_stopped (not_whole_close (not_whole_array _ _) outer)
  | afterMember before outer =>
      cases token with
      | comma => exact nofun
      | closeObject => exact sound_after _ _
      | _ => exact sound_stopped (not_whole_close (not_whole_object _ _) outer)
  | nothing tree | surplus tree => exact nofun
  | stopped tree => exact sound

theorem sound_foldl {tokens : List Token} {expecting : Expecting} (sound : expecting.Sound) :
    (tokens.foldl step expecting).Sound := by
  induction tokens generalizing expecting with
  | nil => exact sound
  | cons token rest ih => exact ih (sound_step sound token)

/-- A tree without fault has been read to its end. -/
theorem eq_nothing_of_finish {expecting : Expecting} (sound : expecting.Sound) (whole : tree.Whole)
    (finished : finish expecting = ⟨tree, false⟩) : expecting = .nothing tree := by
  cases expecting with
  | nothing other =>
      cases finished
      rfl
  | surplus other => cases finished
  | stopped other =>
      cases finished
      exact absurd whole (sound tree rfl)
  | value context =>
      cases finished
      exact absurd whole (not_whole_close (not_whole_broken _) context)
  | colon before key outer =>
      cases finished
      exact absurd whole (not_whole_close (not_whole_broken _) (.member before key outer))
  | firstElement outer | afterElement before outer =>
      cases finished
      exact absurd whole (not_whole_close (not_whole_array _ _) outer)
  | firstKey outer | key before outer | afterMember before outer =>
      cases finished
      exact absurd whole (not_whole_close (not_whole_object _ _) outer)

end Faults

/-! ## The tree of a text -/

section Texts

variable {tree : Tree} {text : String}

/-- The machine reads a tree from its tokens, and from no others. -/
theorem ofTokens_eq_iff {tokens : List Token} (whole : tree.Whole) :
    ofTokens tokens = ⟨tree, false⟩ ↔ tokens = tree.tokens := by
  constructor
  · intro finished
    have read := eq_nothing_of_finish (sound_foldl sound_start) whole finished
    have live : (tokens.foldl step (.value .top)).Live := by
      rw [read]
      trivial
    have holds := holds_foldl (.value .top) live
    rw [read] at holds
    cases holds with
    | nothing => rfl
  · intro same
    rw [same, ofTokens, foldl_tokens whole]
    rfl

theorem mem_listed {parts : List (List Token)} {token : Token} (member : token ∈ listed parts) :
    token = .comma ∨ ∃ part ∈ parts, token ∈ part := by
  cases parts with
  | nil => cases member
  | cons first rest =>
      rw [listed_cons, List.mem_append, List.mem_flatMap] at member
      rcases member with member | ⟨part, among, member⟩
      · exact .inr ⟨first, List.mem_cons_self .., member⟩
      · rcases List.mem_cons.mp member with same | member
        · exact .inl same
        · exact .inr ⟨part, List.mem_cons_of_mem _ among, member⟩

theorem faultless_tokens (whole : tree.Whole) : Token.Faultless tree.tokens := by
  intro fault
  induction whole with
  | null | bool | number | string => simp [tokens]
  | @array elements all ih =>
      intro member
      have inside : .fault fault ∈ listed (elements.map tokens) := by
        simpa [tokens_array] using member
      rcases mem_listed inside with wrong | ⟨part, among, member⟩
      · cases wrong
      · obtain ⟨element, found, rfl⟩ := List.mem_map.mp among
        exact ih element found member
  | @object members all ih =>
      intro member
      have inside : .fault fault ∈ listed (members.map memberPart) := by
        simpa [tokens_object] using member
      rcases mem_listed inside with wrong | ⟨part, among, member⟩
      · cases wrong
      · obtain ⟨other, found, rfl⟩ := List.mem_map.mp among
        simp only [memberPart, List.mem_cons, reduceCtorEq, false_or] at member
        exact ih other found member

/-- Tokens that may stand behind a number. -/
def Follows (rest : List Token) : Prop :=
  (∀ token ∈ rest.head?, ¬ token.IsNumber) ∧ Token.Separated rest

theorem follows_cons {token : Token} {rest : List Token} (no_number : ¬ token.IsNumber)
    (separated : Token.Separated rest) : Follows (token :: rest) := by
  refine ⟨?_, (Token.separated_cons no_number).mpr separated⟩
  intro first same
  cases same
  exact no_number

theorem follows_parts {parts : List (List Token)} {rest : List Token}
    (all : ∀ part ∈ parts, ∀ rest, Follows rest → Token.Separated (part ++ rest))
    (follows : Follows rest) : Follows (parts.flatMap (.comma :: ·) ++ rest) := by
  induction parts with
  | nil => exact follows
  | cons part others ih =>
      obtain ⟨first, others⟩ := List.forall_mem_cons.mp all
      rw [List.flatMap_cons, List.append_assoc, List.cons_append]
      exact follows_cons id (first _ (ih others))

theorem separated_listed {parts : List (List Token)} {rest : List Token}
    (all : ∀ part ∈ parts, ∀ rest, Follows rest → Token.Separated (part ++ rest))
    (follows : Follows rest) : Token.Separated (listed parts ++ rest) := by
  cases parts with
  | nil => exact follows.2
  | cons part others =>
      obtain ⟨first, others⟩ := List.forall_mem_cons.mp all
      rw [listed_cons, List.append_assoc]
      exact first _ (follows_parts others follows)

/-- Every value in a tree but the last of its tokens is followed by punctuation. -/
theorem separated_tokens_append (whole : tree.Whole) {rest : List Token} (follows : Follows rest) :
    Token.Separated (tree.tokens ++ rest) := by
  induction whole generalizing rest with
  | null | bool | string => exact (Token.separated_cons id).mpr follows.2
  | number => exact List.isChain_cons.mpr ⟨fun next member _ => follows.1 next member, follows.2⟩
  | @array elements all ih =>
      rw [tokens_array, List.cons_append, List.append_assoc, List.singleton_append,
        Token.separated_cons id]
      refine separated_listed (fun part among rest follows => ?_) (follows_cons id follows.2)
      obtain ⟨element, found, rfl⟩ := List.mem_map.mp among
      exact ih element found follows
  | @object members all ih =>
      rw [tokens_object, List.cons_append, List.append_assoc, List.singleton_append,
        Token.separated_cons id]
      refine separated_listed (fun part among rest follows => ?_) (follows_cons id follows.2)
      obtain ⟨member, found, rfl⟩ := List.mem_map.mp among
      rw [memberPart, List.cons_append, List.cons_append, Token.separated_cons id,
        Token.separated_cons id]
      exact ih member found follows

theorem separated_tokens (whole : tree.Whole) : Token.Separated tree.tokens := by
  have follows : Follows [] := by
    refine ⟨?_, List.IsChain.nil⟩
    intro token member
    cases member
  have separated := separated_tokens_append whole follows
  rwa [List.append_nil] at separated

/-- A text is read as a whole tree exactly if it spells it. -/
theorem read_eq_iff (whole : tree.Whole) : read text = ⟨tree, false⟩ ↔ tree.Spelled text := by
  rw [read, ofTokens_eq_iff whole,
    Token.scan_eq_iff (separated_tokens whole) (faultless_tokens whole)]
  exact ⟨fun spells => ⟨whole, spells⟩, fun spelled => spelled.spells⟩

theorem Spelled.read (spelled : tree.Spelled text) : Tree.read text = ⟨tree, false⟩ :=
  (read_eq_iff spelled.whole).mpr spelled

end Texts

end SceneForge.Json.Tree
