import SceneForge.Binary.Trigonometry
import SceneForge.Decimal.Reading
import SceneForge.Fields.Error
import SceneForge.Scene
import SceneForge.Text.Space

/-!
# Authored fields

Nodes and items are authored as objects of fields. Each reader here takes one field
by its name, checks its form, its unit and its range, and gives a default if the
field is absent.
-/

namespace SceneForge

open Binary

/-- The fields of an authored object. -/
abbrev Fields := Json.Object

/-- The vector whose components a list begins with; missing ones are zero. -/
def Vector3.ofList (components : List Single) : Vector3 :=
  ⟨components.getD 0 0, components.getD 1 0, components.getD 2 0⟩

/-- The components of a vector. -/
def Vector3.toList (v : Vector3) : List Single := [v.x, v.y, v.z]

namespace Quaternion

/-- The rotation whose components a list begins with; missing ones are zero. -/
def ofList (components : List Single) : Quaternion :=
  ⟨components.getD 0 0, components.getD 1 0, components.getD 2 0, components.getD 3 0⟩

/-- The components of a rotation. -/
def toList (q : Quaternion) : List Single := [q.x, q.y, q.z, q.w]

/-- The rotation `b` followed by the rotation `a`. -/
def mul (a b : Quaternion) : Quaternion where
  x := (a.w * b.x + a.x * b.w) + (a.y * b.z + -(a.z * b.y))
  y := (a.w * b.y + -(a.x * b.z)) + (a.y * b.w + a.z * b.x)
  z := (a.w * b.z + a.x * b.y) + (-(a.y * b.x) + a.z * b.w)
  w := (a.w * b.w + -(a.x * b.x)) + (-(a.y * b.y) + -(a.z * b.z))

instance : Mul Quaternion := ⟨mul⟩

/-- The squared length. -/
def lengthSquared (q : Quaternion) : Single := (q.x * q.x + q.z * q.z) + (q.y * q.y + q.w * q.w)

/-- The rotation scaled to length one. -/
def normalize (q : Quaternion) : Quaternion :=
  let length := q.lengthSquared.sqrt
  ⟨q.x / length, q.y / length, q.z / length, q.w / length⟩

/-- The rotation by angles in radians about the axes, first about x and last
about z. -/
def ofAngles (x y z : Single) : Quaternion :=
  let half : Single := 1 / 2
  let aboutX : Quaternion := ⟨(x * half).sin, 0, 0, (x * half).cos⟩
  let aboutY : Quaternion := ⟨0, (y * half).sin, 0, (y * half).cos⟩
  let aboutZ : Quaternion := ⟨0, 0, (z * half).sin, (z * half).cos⟩
  (aboutZ * aboutY * aboutX).normalize

end Quaternion

namespace FieldValue

open Json (Value)

/-- A value as a finite number. -/
def number (value : Value) : Except FieldFault Single :=
  match value.toDouble?.map Double.toSingle with
  | none => .error (.notNumber value)
  | some x => if x.isFinite then .ok x else .error (.notNumber value)

/-- A value as an array of `count` numbers. -/
def numbers (count : Nat) (value : Value) : Except FieldFault (List Single) :=
  match value with
  | .array elements =>
      if elements.length = count then elements.mapM number
      else .error (.wrongCount count elements.length)
  | _ => .error (.notNumbers count)

/-- A value as a signed 32-bit integer. -/
def integer (value : Value) : Except FieldFault Int32 :=
  let fault := FieldFault.notInteger value
  match value with
  | .number (.integer n) => if -2 ^ 31 ≤ n ∧ n < 2 ^ 31 then .ok (Int32.ofInt n) else .error fault
  | _ => .error fault

/-- A percentage as a factor. -/
def percentage (value : Value) : Except FieldFault Single := do
  let percentage ← number value
  if Single.le 0 percentage && percentage.le 100 then return percentage / 100
  else throw (.percentageOutside percentage)

/-- A rotation: three angles in degrees, or the four components of a quaternion that
is not too short to be normalized. -/
def rotation (value : Value) : Except FieldFault Quaternion :=
  match value with
  | .array [_, _, _] => do
      let angles := Vector3.ofList (← numbers 3 value)
      return .ofAngles angles.x.toRadians angles.y.toRadians angles.z.toRadians
  | .array [_, _, _, _] => do
      let q := Quaternion.ofList (← numbers 4 value)
      if q.lengthSquared.le Single.epsilon then throw .zeroRotation
      else return q.normalize
  | _ => .error .notRotation

/-- An angle in degrees as radians. -/
def angle (value : Value) : Except FieldFault Single := return (← number value).toRadians

/-- The time that a text of hours and minutes names. -/
def time? (text : String) : Option Single :=
  let trimmed := Text.trim text.toList
  match trimmed.dropWhile (· ≠ ':') with
  | [] => none
  | _ :: minutes => do
      let hours ← Decimal.natBelow? (2 ^ 32) (String.ofList (trimmed.takeWhile (· ≠ ':')))
      let minutes ← Decimal.natBelow? (2 ^ 32) (String.ofList minutes)
      if hours < 24 ∧ minutes < 60 then some (Single.ofInt hours + Single.ofInt minutes / 60)
      else none

/-- A time of day in hours: hours and minutes with a colon between them, or a
number of hours. -/
def timeOfDay (value : Value) : Except FieldFault Single := do
  let hours ←
    match value with
    | .string text =>
        match time? text with
        | some hours => .ok hours
        | none => .error (.notTime text)
    | value => number value
  if Single.le 0 hours && hours.lt 24 then return hours else throw (.timeOutside hours)

end FieldValue

namespace Fields

/-- Reads a field if it is there. -/
def optional {α : Type} (fields : Fields) (field : String) (default : α)
    (read : Json.Value → Except FieldFault α) : Except FieldError α :=
  match fields.get? field with
  | none => .ok default
  | some value => (read value).mapError (.invalid field)

/-- Reads a number. -/
def number (fields : Fields) (field : String) (default : Single) : Except FieldError Single :=
  fields.optional field default FieldValue.number

/-- Reads a signed 32-bit integer. -/
def integer (fields : Fields) (field : String) (default : Int32) : Except FieldError Int32 :=
  fields.optional field default FieldValue.integer

/-- Reads the components of a vector of so many dimensions. -/
def components (fields : Fields) (field : String) (count : Nat) (default : List Single) :
    Except FieldError (List Single) :=
  fields.optional field default (FieldValue.numbers count)

/-- Reads a vector. -/
def vector (fields : Fields) (field : String) (default : Vector3) : Except FieldError Vector3 :=
  fields.optional field default fun value => Vector3.ofList <$> FieldValue.numbers 3 value

/-- Reads a percentage as a factor. -/
def percentage (fields : Fields) (field : String) (default : Single) : Except FieldError Single :=
  fields.optional field default FieldValue.percentage

/-- Reads a rotation. -/
def rotation (fields : Fields) (field : String) (default : Quaternion) :
    Except FieldError Quaternion :=
  fields.optional field default FieldValue.rotation

/-- Reads a color. No component may be negative, in the default neither. -/
def color (fields : Fields) (field : String) (default : Vector3) : Except FieldError Vector3 := do
  let color ← fields.vector field default
  if color.toList.any (·.lt 0) then throw (.invalid field .negativeColor) else return color

/-- Reads an angle in degrees; the default is in radians. -/
def angle (fields : Fields) (field : String) (default : Single) : Except FieldError Single :=
  fields.optional field default FieldValue.angle

/-- Reads a time of day. -/
def timeOfDay (fields : Fields) (field : String) (default : Single) : Except FieldError Single :=
  fields.optional field default FieldValue.timeOfDay

/-- Reads the kind of a light, given by name; case matters. -/
def lightType (fields : Fields) (field : String) (default : LightType) :
    Except FieldError LightType :=
  match fields.get? field with
  | none => .ok default
  | some (.string name) =>
      match LightType.all.find? (·.name == name) with
      | some type => .ok type
      | none => .error (.unknownName field name (LightType.all.map (·.name)))
  | some value => .error (.invalid field (.notName value))

/-- Reads a string, if it is there. -/
def string? (fields : Fields) (field : String) : Except FieldError (Option String) :=
  match fields.get? field with
  | none => .ok none
  | some (.string text) => .ok (some text)
  | some value => .error (.invalid field (.notString value))

/-- Reads a name as its identifier; an empty name counts as absent. -/
def name (fields : Fields) (field : String) (default : StringId) : Except FieldError StringId := do
  match ← fields.string? field with
  | none | some "" => return default
  | some text => return .ofName text

end Fields

end SceneForge
