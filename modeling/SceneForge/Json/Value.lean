import SceneForge.Json.Tree
import SceneForge.Text.Quoted

/-!
# JSON values

A value merges the repeated keys of its objects: a key keeps the place of its first
occurrence and takes the value of its last. Values are made from syntax trees, at
most 127 containers deep, and have two written forms: compact JSON, and a form for
messages that names the kind of every value.
-/

namespace SceneForge.Json

/-- A JSON value; the keys of an object are distinct. -/
inductive Value where
  | null
  | bool (value : Bool)
  | number (value : Number)
  | string (value : String)
  | array (elements : List Value)
  | object (members : List (String × Value))

/-- The members of an object, in the order of their first occurrence. -/
abbrev Object := List (String × Value)

namespace Object

/-- The value of a key. -/
def get? (object : Object) (key : String) : Option Value := List.lookup key object

/-- Whether a key occurs. -/
def contains (object : Object) (key : String) : Bool := (get? object key).isSome

/-- Sets the value of a key, at its place if it occurs and at the end otherwise. -/
def insert : (object : Object) → (key : String) → (value : Value) → Object
  | [], key, value => [(key, value)]
  | member :: rest, key, value =>
      if member.1 = key then (key, value) :: rest else member :: insert rest key value

end Object

namespace Value

/-- The characters that stand for a character inside a JSON string. -/
def escape (c : Char) : List Char :=
  match c with
  | '\"' => ['\\', '\"']
  | '\\' => ['\\', '\\']
  | '\x08' => ['\\', 'b']
  | '\t' => ['\\', 't']
  | '\n' => ['\\', 'n']
  | '\x0c' => ['\\', 'f']
  | '\r' => ['\\', 'r']
  | c => if c.toNat < 0x20 then '\\' :: 'u' :: (Text.hex 4 c.toNat).toList else [c]

/-- A JSON string literal. -/
def stringText (text : String) : String :=
  String.ofList ('\"' :: (text.toList.flatMap escape ++ ['\"']))

mutual

/-- A value as compact JSON. -/
def text : Value → String
  | .null => "null"
  | .bool value => if value then "true" else "false"
  | .number value => value.text
  | .string value => stringText value
  | .array elements => "[" ++ String.intercalate "," (elementTexts elements) ++ "]"
  | .object members => "\x7b" ++ String.intercalate "," (memberTexts members) ++ "\x7d"

/-- Elements as compact JSON. -/
def elementTexts : List Value → List String
  | [] => []
  | element :: rest => element.text :: elementTexts rest

/-- Members as compact JSON. -/
def memberTexts : List (String × Value) → List String
  | [] => []
  | (key, value) :: rest => (stringText key ++ ":" ++ value.text) :: memberTexts rest

end

mutual

/-- A value with its kind, for messages. -/
def described : Value → String
  | .null => "Null"
  | .bool value => if value then "Bool(true)" else "Bool(false)"
  | .number value => "Number(" ++ value.text ++ ")"
  | .string value => "String(" ++ Text.quoted value ++ ")"
  | .array elements => "Array [" ++ String.intercalate ", " (describedElements elements) ++ "]"
  | .object members =>
      "Object \x7b" ++ String.intercalate ", " (describedMembers members) ++ "\x7d"

/-- Elements with their kinds. -/
def describedElements : List Value → List String
  | [] => []
  | element :: rest => element.described :: describedElements rest

/-- Members with their kinds. -/
def describedMembers : List (String × Value) → List String
  | [] => []
  | (key, value) :: rest =>
      (Text.quoted key ++ ": " ++ value.described) :: describedMembers rest

end

/-- The value as a double, if it is a number. -/
def toDouble? : Value → Option Binary.Double
  | .number value => some value.toDouble
  | _ => none

end Value

namespace Tree

/-- How many containers may be nested. -/
def nestingLimit : Nat := 127

mutual

/-- The value of a tree with at most `budget` nested containers, or its first
problem in text order. -/
def value (budget : Nat) : Tree → Except Category Value
  | .null => .ok .null
  | .bool value => .ok (.bool value)
  | .number value => value.map .number
  | .string value => value.map .string
  | .array elements fault =>
      match budget with
      | 0 => .error .malformed
      | budget + 1 => do
          let values ← elementValues budget elements
          match fault with
          | none => .ok (.array values)
          | some fault => .error fault.whenRead
  | .object members fault =>
      match budget with
      | 0 => .error .malformed
      | budget + 1 => do
          let object ← memberValues budget [] members
          match fault with
          | none => .ok (.object object)
          | some fault => .error fault.whenRead
  | .broken fault => .error fault.whenRead

/-- The values of elements. -/
def elementValues (budget : Nat) : List Tree → Except Category (List Value)
  | [] => .ok []
  | element :: rest => do
      let first ← element.value budget
      let others ← elementValues budget rest
      .ok (first :: others)

/-- Adds the values of members to an object. -/
def memberValues (budget : Nat) (object : Object) : List Member → Except Category Object
  | [] => .ok object
  | (key, tree) :: rest => do
      let key ← key
      let value ← tree.value budget
      memberValues budget (object.insert key value) rest

end

end Tree

/-- The value of a text. -/
def Value.read (text : String) : Except Category Value :=
  let reading := Tree.read text
  reading.whole (reading.tree.value Tree.nestingLimit)

end SceneForge.Json
