import SceneForge.Binary.Double
import SceneForge.Decimal.Shortest
import SceneForge.Json.Value

/-!
# Problems of authored fields

What can be wrong with one field of an authored object, and the wording of each
problem. A problem names the field; the messages show the offending value as compact
JSON and numbers in plain decimal notation.
-/

namespace SceneForge

open Binary

/-- Numbers in messages have neither an exponent nor a trailing `.0`. -/
def plainLayout : Decimal.Layout := ⟨.up, none, false, false⟩

/-- A single-precision number as messages show it. -/
def Binary.Single.text (x : Single) : String := Decimal.patternText .single plainLayout x.pattern

/-- A double-precision number as messages show it. -/
def Binary.Double.text (x : Double) : String := Decimal.patternText .double plainLayout x.pattern

/-- Why the value of a field is not accepted. -/
inductive FieldFault where
  | notNumber (found : Json.Value)
  | notNumbers (count : Nat)
  | wrongCount (expected found : Nat)
  | notInteger (found : Json.Value)
  | percentageOutside (percentage : Single)
  | zeroRotation
  | notRotation
  | negativeColor
  | notTime (text : String)
  | timeOutside (hours : Single)
  | notName (found : Json.Value)
  | notString (found : Json.Value)
  | emptyReference
  | notReferences
  | notReference (found : Json.Value)
  | tooManySubMeshes
  | notBoolean (found : Json.Value)
  | notTexture
  | notComponents (count : Nat) (found : Json.Value)
  | notWholeComponent (component : Double)
  | notObject
  | notProperties
  | tooManyProperties
  | directionalRadius
  | radiusNotPositive
  | negativeInnerAngle
  | wideOuterAngle
  | innerNotSmaller
  | negativeNearClip
  | unusedAngles
  | noMaterial
  /-- Both kinds of material, noticed at the blueprint. -/
  | materialDefinedToo
  /-- Both kinds of material, noticed at the properties. -/
  | twoMaterials

/-- The wording of a fault. -/
def FieldFault.message : FieldFault → String
  | notNumber found => s!"expected a number, found {found.text}"
  | notNumbers count => s!"expected an array of {count} numbers"
  | wrongCount expected found => s!"expected {expected} components, found {found}"
  | notInteger found => s!"expected a 32-bit integer, found {found.text}"
  | percentageOutside percentage => s!"percentage {percentage.text} is outside [0, 100]"
  | zeroRotation => "quaternion must not have zero length"
  | notRotation => "expected [x, y, z] Euler angles in degrees or an [x, y, z, w] quaternion"
  | negativeColor => "all color components must be positive"
  | notTime text => s!"\"{text}\" is not a valid \"HH:MM\" time of day"
  | timeOutside hours => s!"time of day {hours.text} is outside [0, 24)"
  | notName found => s!"expected a constant name, found {found.text}"
  | notString found => s!"expected a string, found {found.text}"
  | emptyReference => "asset reference must not be empty"
  | notReferences => "expected an array of asset references"
  | notReference found => s!"expected an asset reference, found {found.text}"
  | tooManySubMeshes => "too many sub-mesh materials"
  | notBoolean found => s!"expected a boolean, found {found.text}"
  | notTexture => "expected a texture asset reference"
  | notComponents count found => s!"expected {count} numeric components, found {found.text}"
  | notWholeComponent component => s!"{component.text} is not a 32-bit integer"
  | notObject => "expected an object"
  | notProperties => "expected an object of property name to value"
  | tooManyProperties => "too many material properties"
  | directionalRadius => "for directional lights the radius must be zero"
  | radiusNotPositive => "for point or spot lights the radius must be greater than zero"
  | negativeInnerAngle => "the inner spot angle must be >= 0 degrees"
  | wideOuterAngle => "the outer spot angle must be < 90 degrees"
  | innerNotSmaller => "the inner spot angle must be smaller than the outer spot angle"
  | negativeNearClip => "the near clip distance must be >= 0"
  | unusedAngles => "\"InnerAngle\" and \"OuterAngle\" are unused when an IES light profile is set"
  | noMaterial => "a material asset or a material blueprint asset must be defined"
  | materialDefinedToo =>
      "a material asset is defined as well, only one of \"Material\" and \"MaterialBlueprint\" is allowed"
  | twoMaterials => "\"Material\" and \"MaterialBlueprint\" are both defined, only one is allowed"

/-- A problem of a field. -/
inductive FieldError where
  | missing (field : String)
  | invalid (field : String) (fault : FieldFault)
  /-- A name that is none of those accepted. -/
  | unknownName (field value : String) (accepted : List String)
  | unresolved (field reference : String)

/-- The wording of a problem. -/
def FieldError.message : FieldError → String
  | missing field => s!"Mandatory field \"{field}\" is missing"
  | invalid field fault => s!"Field \"{field}\" is invalid: {fault.message}"
  | unknownName field value accepted =>
      s!"Field \"{field}\" has unknown value \"{value}\", accepted values: " ++
        String.intercalate ", " accepted
  | unresolved field reference => s!"Field \"{field}\" references unknown asset \"{reference}\""

end SceneForge
