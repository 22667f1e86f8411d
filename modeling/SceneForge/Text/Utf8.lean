import SceneForge.Bytes

/-!
# UTF-8

Characters as one to four bytes. Decoding stops at the first byte sequence that no
character has, and says where it begins and how many bytes of it could still have
begun a character, or that the bytes end inside a character. Where a text is needed in any
case, such sequences are replaced.
-/

namespace SceneForge.Text

/-- The bytes of a text. -/
def utf8 (text : String) : Bytes := text.toList.flatMap String.utf8EncodeChar

/-- Why bytes are no text. -/
inductive Utf8Error where
  /-- `length` bytes from `start` on begin no character. -/
  | invalid (start length : Nat)
  /-- The bytes end inside the character that begins at `start`. -/
  | incomplete (start : Nat)
  deriving DecidableEq

/-- The wording of a decoding error. -/
def Utf8Error.message : Utf8Error → String
  | .invalid start length => s!"invalid utf-8 sequence of {length} bytes from index {start}"
  | .incomplete start => s!"incomplete utf-8 byte sequence from index {start}"

/-- How many bytes follow a leading byte, and between which bounds the first of
them lies; `none` for a byte that leads no character of several bytes. -/
def leading? (byte : Nat) : Option (Nat × Nat × Nat) :=
  if 0xc2 ≤ byte ∧ byte ≤ 0xdf then some (1, 0x80, 0xbf)
  else if byte = 0xe0 then some (2, 0xa0, 0xbf)
  else if byte = 0xed then some (2, 0x80, 0x9f)
  else if 0xe1 ≤ byte ∧ byte ≤ 0xef then some (2, 0x80, 0xbf)
  else if byte = 0xf0 then some (3, 0x90, 0xbf)
  else if 0xf1 ≤ byte ∧ byte ≤ 0xf3 then some (3, 0x80, 0xbf)
  else if byte = 0xf4 then some (3, 0x80, 0x8f)
  else none

/-- What is still to come of a character. -/
structure Awaited where
  /-- Bytes still to come, less one. -/
  more : Nat
  /-- Bounds of the next byte. -/
  low : Nat
  high : Nat
  /-- The payload bits read so far. -/
  value : Nat

/-- A character whose remaining bytes are awaited. -/
structure Pending extends Awaited where
  start : Nat
  /-- Bytes read so far. -/
  read : Nat

/-- Decodes the bytes from index `position` on, after the characters `before` in
reverse order and possibly inside a character. -/
def decodeFrom (position : Nat) (before : List Char) :
    (pending : Option Pending) → (bytes : Bytes) → Except Utf8Error String
  | none, [] => .ok (String.ofList before.reverse)
  | some pending, [] => .error (.incomplete pending.start)
  | none, byte :: rest =>
      let n := byte.toNat
      if n < 0x80 then decodeFrom (position + 1) (Char.ofNat n :: before) none rest
      else match leading? n with
        | none => .error (.invalid position 1)
        | some (more, low, high) =>
            decodeFrom (position + 1) before
              (some ⟨⟨more - 1, low, high, n % 2 ^ (6 - more)⟩, position, 1⟩) rest
  | some pending, byte :: rest =>
      let n := byte.toNat
      if n < pending.low ∨ pending.high < n then .error (.invalid pending.start pending.read)
      else
        let value := pending.value * 64 + n % 64
        if pending.more = 0 then decodeFrom (position + 1) (Char.ofNat value :: before) none rest
        else
          decodeFrom (position + 1) before
            (some ⟨⟨pending.more - 1, 0x80, 0xbf, value⟩, pending.start, pending.read + 1⟩) rest

/-- The text that bytes spell. -/
def ofUtf8 (bytes : Bytes) : Except Utf8Error String := decodeFrom 0 [] none bytes

/-- The character in the place of bytes that no character has. -/
def replacement : Char := '\uFFFD'

/-- What a byte between characters comes to: characters, and what it begins. -/
def begin (byte : UInt8) : List Char × Option Awaited :=
  let n := byte.toNat
  if n < 0x80 then ([Char.ofNat n], none)
  else match leading? n with
    | none => ([replacement], none)
    | some (more, low, high) => ([], some ⟨more - 1, low, high, n % 2 ^ (6 - more)⟩)

/-- What a byte inside a character comes to. If it does not belong there, the bytes before it
are replaced, and it is taken as one between characters. -/
def resume (awaited : Awaited) (byte : UInt8) : List Char × Option Awaited :=
  let n := byte.toNat
  if n < awaited.low ∨ awaited.high < n then
    let (characters, begun) := begin byte
    (replacement :: characters, begun)
  else
    let value := awaited.value * 64 + n % 64
    if awaited.more = 0 then ([Char.ofNat value], none)
    else ([], some ⟨awaited.more - 1, 0x80, 0xbf, value⟩)

/-- The characters of bytes, possibly from inside a character on. -/
def replaceFrom : (awaited : Option Awaited) → (bytes : Bytes) → List Char
  | none, [] => []
  | some _, [] => [replacement]
  | none, byte :: rest => (begin byte).1 ++ replaceFrom (begin byte).2 rest
  | some awaited, byte :: rest =>
      (resume awaited byte).1 ++ replaceFrom (resume awaited byte).2 rest

/-- The text that bytes spell, every longest sequence that begins a character but does not end
it replaced, and every byte that begins none. -/
def lossy (bytes : Bytes) : String := String.ofList (replaceFrom none bytes)

end SceneForge.Text
