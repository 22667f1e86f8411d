import SceneForge.Json.Value

/-!
# Records and maps in JSON

Reading a tree as something with an expected shape. A record is written as an
object of its fields or as an array of their values in declaration order; members
of other names are skipped, a field given twice is a mismatch, and fields at the
end of an array may be missing. A map is an object whose keys are free. The first
problem in text order is the one reported.
-/

namespace SceneForge.Json.Tree

/-- A field of a record that is read into a state `σ`: its name, and how a tree is
read, at most `budget` containers deep. -/
structure Field (σ : Type) where
  name : String
  read : (budget : Nat) → (tree : Tree) → (state : σ) → Except Category σ

variable {σ α : Type}

/-- The problem of a tree that is not of the expected kind: a scalar has to be
readable to be a mismatch, a container need not be. -/
def wrongKind : Tree → Category
  | .number (.error problem) => problem
  | .string (.error problem) => problem
  | .broken fault => fault.whenRead
  | _ => .mismatch

/-- Reads elements as the values of fields, in order. -/
def readPositions (budget : Nat) (state : σ) :
    (fields : List (Field σ)) → (elements : List Tree) → Except Category σ
  | _, [] => .ok state
  | [], _ :: _ => .error .malformed
  | field :: fields, element :: rest => do
      readPositions budget (← field.read budget element state) fields rest

/-- Reads members, of which the names `seen` have occurred already. -/
def readMembers (budget : Nat) (fields : List (Field σ)) (seen : List String) (state : σ) :
    (members : List Member) → Except Category σ
  | [] => .ok state
  | (key, tree) :: rest => do
      let key ← key
      match fields.find? (·.name == key) with
      | none =>
          tree.skip
          readMembers budget fields seen state rest
      | some field =>
          if seen.contains key then .error .mismatch
          else readMembers budget fields (key :: seen) (← field.read budget tree state) rest

/-- Reads a record into a state. -/
def readRecord (fields : List (Field σ)) (state : σ) (budget : Nat) (tree : Tree) :
    Except Category σ :=
  let ending (state : σ) (fault : Option Fault) : Except Category σ :=
    match fault with
    | none => .ok state
    | some fault => .error fault.whenRead
  match tree, budget with
  | .array .., 0 | .object .., 0 => .error .malformed
  | .array elements fault, budget + 1 => do
      ending (← readPositions budget state fields elements) fault
  | .object members fault, budget + 1 => do
      ending (← readMembers budget fields [] state members) fault
  | tree, _ => .error tree.wrongKind

/-- Reads the members of a map, in text order. -/
def readEntries (read : (budget : Nat) → (tree : Tree) → Except Category α) (budget : Nat) :
    (members : List Member) → Except Category (List (String × α))
  | [] => .ok []
  | (key, tree) :: rest => do
      let key ← key
      let value ← read budget tree
      let others ← readEntries read budget rest
      .ok ((key, value) :: others)

/-- Reads a map; every repetition of a key is kept. -/
def readMap (read : (budget : Nat) → (tree : Tree) → Except Category α) (budget : Nat)
    (tree : Tree) : Except Category (List (String × α)) :=
  match tree, budget with
  | .object .., 0 => .error .malformed
  | .object members fault, budget + 1 => do
      let entries ← readEntries read budget members
      match fault with
      | none => .ok entries
      | some fault => .error fault.whenRead
  | tree, _ => .error tree.wrongKind

/-- Reads the elements of a list. -/
def readElements (read : (budget : Nat) → (tree : Tree) → Except Category α) (budget : Nat) :
    (elements : List Tree) → Except Category (List α)
  | [] => .ok []
  | element :: rest => do
      let first ← read budget element
      let others ← readElements read budget rest
      .ok (first :: others)

/-- Reads a list. -/
def readList (read : (budget : Nat) → (tree : Tree) → Except Category α) (budget : Nat)
    (tree : Tree) : Except Category (List α) :=
  match tree, budget with
  | .array .., 0 => .error .malformed
  | .array elements fault, budget + 1 => do
      let values ← readElements read budget elements
      match fault with
      | none => .ok values
      | some fault => .error fault.whenRead
  | tree, _ => .error tree.wrongKind

/-- Reads a value that may be null. -/
def readOption (read : (budget : Nat) → (tree : Tree) → Except Category α) (budget : Nat) :
    (tree : Tree) → Except Category (Option α)
  | .null => .ok none
  | tree => (read budget tree).map some

/-- Reads a string. -/
def readString (_budget : Nat) : (tree : Tree) → Except Category String
  | .string value => value
  | tree => .error tree.wrongKind

/-- Reads a 32-bit natural number. -/
def readWord (_budget : Nat) : (tree : Tree) → Except Category UInt32
  | .number (.ok (.integer value)) =>
      if 0 ≤ value ∧ value < 2 ^ 32 then .ok (UInt32.ofNat value.toNat) else .error .mismatch
  | tree => .error tree.wrongKind

end SceneForge.Json.Tree

namespace SceneForge.Json

/-- The object of a text whose value has to be one. -/
def Object.read (text : String) : Except Category Object :=
  let reading := Tree.read text
  reading.whole <|
    (Tree.readMap Tree.value Tree.nestingLimit reading.tree).map fun members =>
      members.foldl (fun object (key, value) => object.insert key value) []

end SceneForge.Json
