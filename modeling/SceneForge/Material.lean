import SceneForge.Binary.Single
import SceneForge.Cursor
import SceneForge.Decimal.Shortest

/-!
# Material properties

A material property has a name, a value of one of ten types, and a mark that says
whether a scene item overrode the declared value. It is stored as a record of 24
bytes: the name's identifier, type and mark, two bytes of padding, and four words
of which the value uses as many as its type has components.
-/

namespace SceneForge

open Binary

/-- The type of a material property's value. -/
inductive ValueType where
  | boolean
  | integer
  | integer2
  | integer3
  | integer4
  | float
  | float2
  | float3
  | float4
  | texture
  deriving DecidableEq

namespace ValueType

/-- All types in the order of their codes. -/
def all : List ValueType :=
  [boolean, integer, integer2, integer3, integer4, float, float2, float3, float4, texture]

/-- The code that is stored for a type. -/
def code : ValueType → UInt8
  | boolean => 0
  | integer => 1
  | integer2 => 2
  | integer3 => 3
  | integer4 => 4
  | float => 5
  | float2 => 6
  | float3 => 7
  | float4 => 8
  | texture => 9

/-- The name by which a type is authored. -/
def name : ValueType → String
  | boolean => "BOOLEAN"
  | integer => "INTEGER"
  | integer2 => "INTEGER_2"
  | integer3 => "INTEGER_3"
  | integer4 => "INTEGER_4"
  | float => "FLOAT"
  | float2 => "FLOAT_2"
  | float3 => "FLOAT_3"
  | float4 => "FLOAT_4"
  | texture => "TEXTURE_ASSET_ID"

/-- The name of a type in messages. -/
def label : ValueType → String
  | boolean => "Boolean"
  | integer => "Integer"
  | integer2 => "Integer2"
  | integer3 => "Integer3"
  | integer4 => "Integer4"
  | float => "Float"
  | float2 => "Float2"
  | float3 => "Float3"
  | float4 => "Float4"
  | texture => "TextureAssetId"

/-- The type with a stored code. -/
def ofCode? (code : UInt8) : Option ValueType := all.find? (·.code == code)

/-- The type with an authored name; case matters. -/
def ofName? (name : String) : Option ValueType := all.find? (·.name == name)

/-- How many components a value has. -/
def componentCount : ValueType → Nat
  | boolean | integer | float | texture => 1
  | integer2 | float2 => 2
  | integer3 | float3 => 3
  | integer4 | float4 => 4

end ValueType

/-- The four words that a stored value occupies. -/
structure Words where
  first : UInt32
  second : UInt32
  third : UInt32
  fourth : UInt32
  deriving DecidableEq

namespace Words

/-- The words as a list. -/
def toList (words : Words) : List UInt32 := [words.first, words.second, words.third, words.fourth]

/-- The words that begin with those of a list; missing ones are zero. -/
def ofList (words : List UInt32) : Words :=
  ⟨words.getD 0 0, words.getD 1 0, words.getD 2 0, words.getD 3 0⟩

end Words

/-- The value of a material property. -/
inductive PropertyValue where
  | boolean (value : Bool)
  | integer (x : Int32)
  | integer2 (x y : Int32)
  | integer3 (x y z : Int32)
  | integer4 (x y z w : Int32)
  | float (x : Single)
  | float2 (x y : Single)
  | float3 (x y z : Single)
  | float4 (x y z w : Single)
  | texture (id : AssetId)
  deriving DecidableEq

namespace PropertyValue

/-- The type of a value. -/
def type : PropertyValue → ValueType
  | boolean _ => .boolean
  | integer _ => .integer
  | integer2 _ _ => .integer2
  | integer3 _ _ _ => .integer3
  | integer4 _ _ _ _ => .integer4
  | float _ => .float
  | float2 _ _ => .float2
  | float3 _ _ _ => .float3
  | float4 _ _ _ _ => .float4
  | texture _ => .texture

/-- The stored words of a value; those it does not use are zero. -/
def toWords : PropertyValue → Words
  | boolean value => ⟨if value then 1 else 0, 0, 0, 0⟩
  | integer x => ⟨x.toUInt32, 0, 0, 0⟩
  | integer2 x y => ⟨x.toUInt32, y.toUInt32, 0, 0⟩
  | integer3 x y z => ⟨x.toUInt32, y.toUInt32, z.toUInt32, 0⟩
  | integer4 x y z w => ⟨x.toUInt32, y.toUInt32, z.toUInt32, w.toUInt32⟩
  | float x => ⟨x.bits, 0, 0, 0⟩
  | float2 x y => ⟨x.bits, y.bits, 0, 0⟩
  | float3 x y z => ⟨x.bits, y.bits, z.bits, 0⟩
  | float4 x y z w => ⟨x.bits, y.bits, z.bits, w.bits⟩
  | texture id => ⟨id.raw, 0, 0, 0⟩

/-- The value of a type that words stand for; words that the type does not use are
ignored. -/
def ofWords (type : ValueType) (words : Words) : PropertyValue :=
  match type with
  | .boolean => boolean (words.first != 0)
  | .integer => integer words.first.toInt32
  | .integer2 => integer2 words.first.toInt32 words.second.toInt32
  | .integer3 => integer3 words.first.toInt32 words.second.toInt32 words.third.toInt32
  | .integer4 =>
      integer4 words.first.toInt32 words.second.toInt32 words.third.toInt32 words.fourth.toInt32
  | .float => float ⟨words.first⟩
  | .float2 => float2 ⟨words.first⟩ ⟨words.second⟩
  | .float3 => float3 ⟨words.first⟩ ⟨words.second⟩ ⟨words.third⟩
  | .float4 => float4 ⟨words.first⟩ ⟨words.second⟩ ⟨words.third⟩ ⟨words.fourth⟩
  | .texture => texture ⟨words.first⟩

@[simp] theorem type_ofWords (type : ValueType) (words : Words) :
    (ofWords type words).type = type := by
  cases type <;> rfl

@[simp] theorem ofWords_toWords (value : PropertyValue) : ofWords value.type value.toWords = value := by
  cases value with
  | boolean value => cases value <;> rfl
  | _ => rfl

end PropertyValue

/-- A material property. -/
structure MaterialProperty where
  id : StringId
  value : PropertyValue
  /-- Whether a scene item overrides the declared value. -/
  overwritten : Bool
  deriving DecidableEq

/-- The stored form of a material property. -/
structure PropertyRecord where
  id : StringId
  typeCode : UInt8
  overwritten : UInt8
  padding : UInt16
  words : Words
  deriving DecidableEq

namespace PropertyRecord

/-- How many bytes a record has. -/
def size : Nat := 24

/-- The bytes of a record. -/
def encode (record : PropertyRecord) : Bytes :=
  Bytes.ofUInt32 record.id.raw ++ [record.typeCode, record.overwritten] ++
    Bytes.ofNat 2 record.padding.toNat ++ record.words.toList.flatMap Bytes.ofUInt32

/-- Reads a record. -/
def reader : Reader PropertyRecord := do
  let id ← Reader.word
  let typeCode ← Reader.byte
  let overwritten ← Reader.byte
  let padding ← Reader.halfWord
  let first ← Reader.word
  let second ← Reader.word
  let third ← Reader.word
  let fourth ← Reader.word
  return ⟨⟨id⟩, typeCode, overwritten, padding, ⟨first, second, third, fourth⟩⟩

end PropertyRecord

namespace MaterialProperty

/-- A declared property, which nothing overrides. -/
def declared (id : StringId) (value : PropertyValue) : MaterialProperty := ⟨id, value, false⟩

/-- The stored form of a property. -/
def toRecord (property : MaterialProperty) : PropertyRecord where
  id := property.id
  typeCode := property.value.type.code
  overwritten := if property.overwritten then 1 else 0
  padding := 0
  words := property.value.toWords

/-- The property that a record stores; any mark but zero means overridden. -/
def ofRecord (record : PropertyRecord) : Except FormatError MaterialProperty :=
  match ValueType.ofCode? record.typeCode with
  | none => .error (.invalidRecord (.unknownValueType record.typeCode))
  | some type =>
      .ok ⟨record.id, .ofWords type record.words, record.overwritten != 0⟩

/-- The bytes of a property's record. -/
def encode (property : MaterialProperty) : Bytes := property.toRecord.encode

end MaterialProperty

end SceneForge
