/-!
# TOML tables

A TOML text consists of sections of key-value lines. Keys may be dotted, and a path
may be opened only once: this module puts lines and sections into a tree of tables
and refuses what would define something twice.
-/

namespace SceneForge.Toml

/-- How a table came to be, which decides what may be added to it. -/
inductive TableKind where
  /-- By a section of its own. -/
  | headed
  /-- By the header of a section inside it. -/
  | implied
  /-- By a dotted key. -/
  | dotted
  /-- By braces; it is complete. -/
  | inline
  deriving DecidableEq

/-- A value. Numbers with a fraction or an exponent and dates are kept as they are
written. -/
inductive Value where
  | string (value : String)
  | integer (value : Int)
  | boolean (value : Bool)
  | real (spelling : String)
  | date (spelling : String)
  | array (elements : List Value)
  | table (kind : TableKind) (members : List (String × Value))
  /-- The tables of repeated sections. -/
  | tables (elements : List (List (String × Value)))

/-- The members of a table. -/
abbrev Members := List (String × Value)

/-- A line: the path and the last part of its key, and its value. -/
structure Line where
  path : List String
  key : String
  value : Value

/-- A section: the path and the last part of its header, whether it is one of
repeated ones, and its lines. -/
structure Section where
  path : List String
  key : String
  repeated : Bool
  lines : List Line

namespace Members

/-- The value of a key. -/
def get? (members : Members) (key : String) : Option Value := List.lookup key members

/-- Sets the value of a key. -/
def set (members : Members) (key : String) (value : Value) : Members :=
  if (get? members key).isSome then
    members.map fun member => if member.1 = key then (key, value) else member
  else members ++ [(key, value)]

/-- Changes the members at the last of the given tables. -/
def updateLast (change : Members → Option Members) (elements : List Members) :
    Option Value :=
  match elements.reverse with
  | [] => none
  | last :: before => do return .tables (((← change last) :: before).reverse)

/-- Adds a value at a dotted key. Tables on the way must not have sections of their
own, and the last one must come from dotted keys. -/
def addDotted (key : String) (value : Value) :
    (path : List String) → (members : Members) → Option Members
  | [], members => if (get? members key).isSome then none else some (set members key value)
  | name :: rest, members => do
      let changed ←
        match get? members name with
        | none => Value.table .dotted <$> addDotted key value rest []
        | some (.table kind inner) =>
            if kind = .dotted ∨ (kind = .implied ∧ rest ≠ []) then
              Value.table kind <$> addDotted key value rest inner
            else none
        | some (.tables elements) =>
            if rest ≠ [] then updateLast (addDotted key value rest) elements else none
        | some _ => none
      return set members name changed

/-- Adds a line. -/
def addLine (members : Members) (line : Line) : Option Members :=
  addDotted line.key line.value line.path members

/-- The table in braces with the given lines. -/
def ofLines (lines : List Line) : Option Members := lines.foldlM addLine []

/-- Opens a section in the table that holds it. -/
def openSection (opened : Section) (members : Members) : Option Members :=
  match get? members opened.key, opened.repeated with
  | none, false => do
      return set members opened.key (.table .headed (← opened.lines.foldlM addLine []))
  | some (.table .implied inner), false => do
      return set members opened.key (.table .headed (← opened.lines.foldlM addLine inner))
  | none, true => do
      return set members opened.key (.tables [← opened.lines.foldlM addLine []])
  | some (.tables elements), true => do
      return set members opened.key (.tables (elements ++ [← opened.lines.foldlM addLine []]))
  | _, _ => none

/-- Adds a section below tables that are opened on the way; of repeated ones the last
counts. -/
def addSectionAt (opened : Section) : (path : List String) → (members : Members) → Option Members
  | [], members => openSection opened members
  | name :: rest, members => do
      let changed ←
        match get? members name with
        | none => Value.table .implied <$> addSectionAt opened rest []
        | some (.table .inline _) => none
        | some (.table kind inner) => Value.table kind <$> addSectionAt opened rest inner
        | some (.tables elements) => updateLast (addSectionAt opened rest) elements
        | some _ => none
      return set members name changed

/-- Adds a section. -/
def addSection (members : Members) (opened : Section) : Option Members :=
  addSectionAt opened opened.path members

/-- The table of a text: lines before the first section, and sections. -/
def ofSections (lines : List Line) (sections : List Section) : Option Members := do
  sections.foldlM addSection (← lines.foldlM addLine [])

end Members

end SceneForge.Toml
