import SceneForge.Text.Utf8
import SceneForge.Text.Quoted

/-!
# Identifiers

Names are stored as 32-bit FNV-1a hashes of their UTF-8 bytes. A `StringId` is such
a hash; an `AssetId` is the number under which the runtime knows an asset, by
default the hash of its reference. In both the greatest word is reserved for
"none".
-/

namespace SceneForge

/-- The 32-bit FNV-1a hash of a byte string. -/
def fnv1a (bytes : Bytes) : UInt32 :=
  bytes.foldl (fun hash byte => (hash ^^^ byte.toUInt32) * 0x01000193) 0x811c9dc5

/-- A hashed name. -/
structure StringId where
  raw : UInt32
  deriving DecidableEq, Inhabited

/-- Identifiers of names are ordered by their hashes. -/
instance : Ord StringId := ⟨compareOn StringId.raw⟩

instance : Std.TransOrd StringId := inferInstanceAs (Std.TransCmp (compareOn StringId.raw))

instance : Std.LawfulEqOrd StringId where
  eq_of_compare {a b} h := congrArg StringId.mk (Std.LawfulEqOrd.eq_of_compare (a := a.raw) (b := b.raw) h)

namespace StringId

/-- The reserved identifier that names nothing. -/
def invalid : StringId := ⟨0xffffffff⟩

/-- The identifier of a name. -/
def ofName (name : String) : StringId := ⟨fnv1a (Text.utf8 name)⟩

/-- Whether the identifier is not the reserved one. -/
def isValid (id : StringId) : Bool := id != invalid

/-- The identifier as an eight-digit hexadecimal number. -/
def text (id : StringId) : String := "0x" ++ Text.hex 8 id.raw.toNat

/-- The identifier with its kind, for messages. -/
def described (id : StringId) : String := s!"StringId({id.text})"

end StringId

/-- The number of an asset. -/
structure AssetId where
  raw : UInt32
  deriving DecidableEq, Inhabited

/-- Identifiers of assets are ordered by their numbers. -/
instance : Ord AssetId := ⟨compareOn AssetId.raw⟩

instance : Std.TransOrd AssetId := inferInstanceAs (Std.TransCmp (compareOn AssetId.raw))

instance : Std.LawfulEqOrd AssetId where
  eq_of_compare {a b} h := congrArg AssetId.mk (Std.LawfulEqOrd.eq_of_compare (a := a.raw) (b := b.raw) h)

namespace AssetId

/-- The reserved identifier for "no asset". -/
def invalid : AssetId := ⟨0xffffffff⟩

/-- The identifier that a reference gets by default. -/
def ofReference (reference : String) : AssetId := ⟨fnv1a (Text.utf8 reference)⟩

/-- Whether the identifier is not the reserved one. -/
def isValid (id : AssetId) : Bool := id != invalid

/-- The identifier as a decimal number. -/
def text (id : AssetId) : String := toString id.raw.toNat

/-- The identifier with its kind, for messages. -/
def described (id : AssetId) : String :=
  if id.isValid then s!"AssetId({id.text})" else "AssetId(INVALID)"

end AssetId

end SceneForge
