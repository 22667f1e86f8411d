import SceneForge.Material

/-!
# Property tables

The declared properties of a material are a table in increasing order of their
identifiers. A property is looked up by bisection, which finds it if the table is in
order; in a table that is not, it finds what the bisection comes upon.
-/

namespace SceneForge

/-- Properties, in increasing order of their identifiers if they make up a proper
table. -/
abbrev PropertyTable := List MaterialProperty

/-- The outcome of a search: the index of a property, or the index at which it would
have to be inserted. -/
inductive Place where
  | found (index : Nat)
  | missing (index : Nat)
  deriving DecidableEq

namespace PropertyTable

/-- The identifier at an index. -/
def idAt (table : PropertyTable) (index : Nat) : StringId :=
  (table[index]?.map (·.id)).getD .invalid

/-- Narrows the `count` indices from `first` on to the last one whose identifier is
not greater than `id`, or to the first of them. -/
def narrow (table : PropertyTable) (id : StringId) (first count : Nat) : Nat :=
  if count ≤ 1 then first
  else
    let middle := first + count / 2
    if compare (table.idAt middle) id = .gt then narrow table id first (count - count / 2)
    else narrow table id middle (count - count / 2)
termination_by count

/-- Looks a property up. -/
def search (table : PropertyTable) (id : StringId) : Place :=
  if table.isEmpty then .missing 0
  else
    let index := narrow table id 0 table.length
    match compare (table.idAt index) id with
    | .lt => .missing (index + 1)
    | .eq => .found index
    | .gt => .missing index

/-- Puts a property into a table, in place of one with the same identifier. -/
def put (table : PropertyTable) (property : MaterialProperty) : PropertyTable :=
  match table.search property.id with
  | .found index => table.set index property
  | .missing index => table.insertIdx index property

/-- The table of declarations: in order, and of several with one identifier only the
first. -/
def ofDeclarations (properties : List MaterialProperty) : PropertyTable :=
  let ordered := properties.mergeSort fun a b => (compare a.id b.id).isLE
  (ordered.splitBy fun a b => a.id == b.id).filterMap List.head?

/-- A table with another one's properties put into it. -/
def overlay (table own : PropertyTable) : PropertyTable := own.foldl put table

end PropertyTable

end SceneForge
