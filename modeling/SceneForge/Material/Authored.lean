import SceneForge.Decimal.Reading
import SceneForge.Fields.Error
import SceneForge.Material
import SceneForge.Text.Space

/-!
# Authored property values

The value of a material property as it is authored: a boolean or the word for one;
numbers, given as a number, as an array or as words in one string; or a reference to
a texture, which is still to be resolved. The declared type decides which of them is
expected.
-/

namespace SceneForge

open Binary

/-- A value as far as it can be told without knowing the assets. -/
inductive AuthoredValue where
  | plain (value : PropertyValue)
  | texture (reference : String)
  deriving DecidableEq

namespace AuthoredValue

open Json (Value)

/-- A value as a boolean. -/
def boolean (value : Value) : Except FieldFault Bool :=
  match value with
  | .bool value => .ok value
  | .string text =>
      if text = "TRUE" ∨ text = "true" then .ok true
      else if text = "FALSE" ∨ text = "false" then .ok false
      else .error (.notBoolean value)
  | _ => .error (.notBoolean value)

/-- The numbers that a value holds. -/
def numbers? : (value : Value) → Option (List Double)
  | .number value => some [value.toDouble]
  | .array elements => elements.mapM Value.toDouble?
  | .string text =>
      (Text.words text.toList).mapM fun word => Decimal.double? (String.ofList word)
  | .null | .bool _ | .object _ => none

/-- A value as `count` finite numbers. -/
def components (count : Nat) (value : Value) : Except FieldFault (List Double) :=
  match numbers? value with
  | none => .error (.notComponents count value)
  | some numbers =>
      if !numbers.all Double.isFinite then .error (.notComponents count value)
      else if numbers.length ≠ count then .error (.wrongCount count numbers.length)
      else .ok numbers

/-- A number as a signed 32-bit integer. -/
def integer (x : Double) : Except FieldFault Int32 :=
  if x.isInteger && decide (-2 ^ 31 ≤ x.truncate ∧ x.truncate < 2 ^ 31) then
    .ok (Int32.ofInt x.truncate)
  else .error (.notWholeComponent x)

/-- A value as the words of `count` integers. -/
def integers (count : Nat) (value : Value) : Except FieldFault Words := do
  let numbers ← components count value
  return .ofList ((← numbers.mapM integer).map Int32.toUInt32)

/-- A value as the words of `count` numbers; a number beyond the range becomes
infinite. -/
def singles (count : Nat) (value : Value) : Except FieldFault Words := do
  let numbers ← components count value
  return .ofList (numbers.map fun x => x.toSingle.bits)

/-- The value of a property of the given type. -/
def ofJson (type : ValueType) (value : Value) : Except FieldFault AuthoredValue :=
  match type with
  | .boolean => return .plain (.boolean (← boolean value))
  | .texture =>
      match value with
      | .string reference => .ok (.texture reference)
      | _ => .error .notTexture
  | .integer | .integer2 | .integer3 | .integer4 =>
      return .plain (.ofWords type (← integers type.componentCount value))
  | .float | .float2 | .float3 | .float4 =>
      return .plain (.ofWords type (← singles type.componentCount value))

end AuthoredValue

end SceneForge
