import SceneForge.Json.Token

/-!
# JSON syntax trees

A text as a tree that keeps every member of every object, repeated keys included.
Of a faulty text the tree holds everything up to the first fault, with the fault in
its place (`broken`), so that a reader that walks a tree in text order meets problems in the
order in which they stand in the text. The tree is built from tokens by a machine
whose stack is a `Context`.
-/

namespace SceneForge.Json

/-- The syntax tree of a JSON value. Where the value is faulty, `broken` or the
container's last field says how. -/
inductive Tree where
  | null
  | bool (value : Bool)
  | number (value : Except Category Number)
  | string (value : Except Category String)
  | array (elements : List Tree) (fault : Option Fault)
  | object (members : List (Except Category String × Tree)) (fault : Option Fault)
  | broken (fault : Fault)

namespace Tree

/-- A member of an object: its key and its value. -/
abbrev Member := Except Category String × Tree

/-- The containers around a place in a text, innermost first; what stands before
the place is held in reverse order. -/
inductive Context where
  | top
  | element (before : List Tree) (outer : Context)
  | member (before : List Member) (key : Except Category String) (outer : Context)

/-- What may stand next. -/
inductive Expecting where
  | value (context : Context)
  /-- After an opening bracket: an element or the end. -/
  | firstElement (outer : Context)
  /-- After an opening brace: a key or the end. -/
  | firstKey (outer : Context)
  | key (before : List Member) (outer : Context)
  | colon (before : List Member) (key : Except Category String) (outer : Context)
  /-- After an element: a comma or the end. -/
  | afterElement (before : List Tree) (outer : Context)
  /-- After a member: a comma or the end. -/
  | afterMember (before : List Member) (outer : Context)
  /-- After the value: nothing more. -/
  | nothing (tree : Tree)
  /-- Something stands after the value. -/
  | surplus (tree : Tree)
  /-- At the first fault. -/
  | stopped (tree : Tree)

/-- What may follow a complete value. -/
def Context.after (tree : Tree) : Context → Expecting
  | .top => .nothing tree
  | .element before outer => .afterElement (tree :: before) outer
  | .member before key outer => .afterMember ((key, tree) :: before) outer

/-- The whole tree, if its innermost value so far is faulty. -/
def Context.close (tree : Tree) : Context → Tree
  | .top => tree
  | .element before outer => close (.array (tree :: before).reverse none) outer
  | .member before key outer => close (.object ((key, tree) :: before).reverse none) outer

/-- A value begins with a token. -/
def beginValue (context : Context) : Token → Expecting
  | .null => context.after .null
  | .bool value => context.after (.bool value)
  | .number value => context.after (.number value)
  | .string value => context.after (.string value)
  | .openArray => .firstElement context
  | .openObject => .firstKey context
  | .fault fault => .stopped (context.close (.broken fault))
  | .closeArray | .closeObject | .comma | .colon =>
      .stopped (context.close (.broken .malformed))

/-- The fault of a token where a key is wanted. -/
def keyFault : Token → Fault
  | .fault fault => if fault.inString then fault else .malformed
  | _ => .malformed

/-- Reads one token. -/
def step (expecting : Expecting) (token : Token) : Expecting :=
  match expecting with
  | .value context => beginValue context token
  | .firstElement outer =>
      match token with
      | .closeArray => outer.after (.array [] none)
      | token => beginValue (.element [] outer) token
  | .firstKey outer =>
      match token with
      | .closeObject => outer.after (.object [] none)
      | .string key => .colon [] key outer
      | token => .stopped (outer.close (.object [] (some (keyFault token))))
  | .key before outer =>
      match token with
      | .string key => .colon before key outer
      | token => .stopped (outer.close (.object before.reverse (some (keyFault token))))
  | .colon before key outer =>
      match token with
      | .colon => .value (.member before key outer)
      | _ => .stopped ((Context.member before key outer).close (.broken .malformed))
  | .afterElement before outer =>
      match token with
      | .comma => .value (.element before outer)
      | .closeArray => outer.after (.array before.reverse none)
      | _ => .stopped (outer.close (.array before.reverse (some .malformed)))
  | .afterMember before outer =>
      match token with
      | .comma => .key before outer
      | .closeObject => outer.after (.object before.reverse none)
      | _ => .stopped (outer.close (.object before.reverse (some .malformed)))
  | .nothing tree => .surplus tree
  | .surplus tree => .surplus tree
  | .stopped tree => .stopped tree

/-- A text's tree, and whether anything stands after it. -/
structure Reading where
  tree : Tree
  surplus : Bool

/-- Reads the end of the text. -/
def finish : Expecting → Reading
  | .value context => ⟨context.close (.broken .ended), false⟩
  | .firstElement outer => ⟨outer.close (.array [] (some .ended)), false⟩
  | .firstKey outer => ⟨outer.close (.object [] (some .ended)), false⟩
  | .key before outer => ⟨outer.close (.object before.reverse (some .ended)), false⟩
  | .colon before key outer => ⟨(Context.member before key outer).close (.broken .ended), false⟩
  | .afterElement before outer => ⟨outer.close (.array before.reverse (some .ended)), false⟩
  | .afterMember before outer => ⟨outer.close (.object before.reverse (some .ended)), false⟩
  | .nothing tree => ⟨tree, false⟩
  | .surplus tree => ⟨tree, true⟩
  | .stopped tree => ⟨tree, false⟩

/-- The tree of a sequence of tokens. -/
def ofTokens (tokens : List Token) : Reading :=
  finish (tokens.foldl step (.value .top))

/-- The tree of a text. -/
def read (text : String) : Reading := ofTokens (Token.scan text)

/-- The problem of a reading whose tree a reader took as `result`: its own first
problem, or text after the value. -/
def Reading.whole {α : Type} (reading : Reading) (result : Except Category α) :
    Except Category α :=
  result.bind fun value => if reading.surplus then .error .malformed else .ok value

mutual

/-- The first problem of a value that is skipped. -/
def skip : Tree → Except Category Unit
  | .broken fault => .error fault.whenSkipped
  | .array elements fault => do
      skipElements elements
      fault.elim (.ok ()) fun fault => .error fault.whenSkipped
  | .object members fault => do
      skipMembers members
      fault.elim (.ok ()) fun fault => .error fault.whenSkipped
  | .null | .bool _ | .number _ | .string _ => .ok ()

/-- The first problem of elements that are skipped. -/
def skipElements : List Tree → Except Category Unit
  | [] => .ok ()
  | element :: rest => do
      element.skip
      skipElements rest

/-- The first problem of members that are skipped. -/
def skipMembers : List Member → Except Category Unit
  | [] => .ok ()
  | (_, value) :: rest => do
      value.skip
      skipMembers rest

end

end Tree

end SceneForge.Json
