import SceneForge.Bytes

/-!
# Message digests

SHA-256 of a byte string: the message is padded to blocks of 64 bytes, every block is
expanded to 64 words, and 64 rounds mix these words into a state of eight.
-/

namespace SceneForge.Digest

/-- The state: eight words. -/
structure State where
  a : UInt32
  b : UInt32
  c : UInt32
  d : UInt32
  e : UInt32
  f : UInt32
  g : UInt32
  h : UInt32
  deriving DecidableEq

/-- The first 32 bits behind the point of the cube roots of the first 64 primes. -/
def constants : List UInt32 :=
  [0x428a2f98, 0x71374491, 0xb5c0fbcf, 0xe9b5dba5, 0x3956c25b, 0x59f111f1,
   0x923f82a4, 0xab1c5ed5, 0xd807aa98, 0x12835b01, 0x243185be, 0x550c7dc3,
   0x72be5d74, 0x80deb1fe, 0x9bdc06a7, 0xc19bf174, 0xe49b69c1, 0xefbe4786,
   0x0fc19dc6, 0x240ca1cc, 0x2de92c6f, 0x4a7484aa, 0x5cb0a9dc, 0x76f988da,
   0x983e5152, 0xa831c66d, 0xb00327c8, 0xbf597fc7, 0xc6e00bf3, 0xd5a79147,
   0x06ca6351, 0x14292967, 0x27b70a85, 0x2e1b2138, 0x4d2c6dfc, 0x53380d13,
   0x650a7354, 0x766a0abb, 0x81c2c92e, 0x92722c85, 0xa2bfe8a1, 0xa81a664b,
   0xc24b8b70, 0xc76c51a3, 0xd192e819, 0xd6990624, 0xf40e3585, 0x106aa070,
   0x19a4c116, 0x1e376c08, 0x2748774c, 0x34b0bcb5, 0x391c0cb3, 0x4ed8aa4a,
   0x5b9cca4f, 0x682e6ff3, 0x748f82ee, 0x78a5636f, 0x84c87814, 0x8cc70208,
   0x90befffa, 0xa4506ceb, 0xbef9a3f7, 0xc67178f2]

/-- The first 32 bits behind the point of the square roots of the first eight
primes. -/
def State.initial : State :=
  ⟨0x6a09e667, 0xbb67ae85, 0x3c6ef372, 0xa54ff53a, 0x510e527f, 0x9b05688c,
   0x1f83d9ab, 0x5be0cd19⟩

/-- A word turned to the right. -/
def rotate (x : UInt32) (count : UInt32) : UInt32 := (x >>> count) ||| (x <<< (32 - count))

/-- The word, most significant byte first, that four bytes spell. -/
def wordOf (bytes : Bytes) : UInt32 := Bytes.toUInt32 bytes.reverse

/-- The bytes of a word, most significant first. -/
def bytesOf (word : UInt32) : Bytes := (Bytes.ofUInt32 word).reverse

/-- The next word of a block's expansion; the words so far are in reverse order. -/
def nextWord (before : List UInt32) : UInt32 :=
  let early := before.getD 14 0
  let late := before.getD 1 0
  let low := rotate early 7 ^^^ rotate early 18 ^^^ (early >>> 3)
  let high := rotate late 17 ^^^ rotate late 19 ^^^ (late >>> 10)
  before.getD 15 0 + low + before.getD 6 0 + high

/-- Expands the words of a block, in reverse order, by `count` words. -/
def expand (before : List UInt32) : (count : Nat) → List UInt32
  | 0 => before
  | count + 1 => expand (nextWord before :: before) count

/-- One round, with a constant and a word of the block. -/
def State.round (s : State) (input : UInt32 × UInt32) : State :=
  let mixed := rotate s.e 6 ^^^ rotate s.e 11 ^^^ rotate s.e 25
  let choice := (s.e &&& s.f) ^^^ (~~~ s.e &&& s.g)
  let first := s.h + mixed + choice + input.1 + input.2
  let turned := rotate s.a 2 ^^^ rotate s.a 13 ^^^ rotate s.a 22
  let majority := (s.a &&& s.b) ^^^ (s.a &&& s.c) ^^^ (s.b &&& s.c)
  ⟨first + (turned + majority), s.a, s.b, s.c, s.d + first, s.e, s.f, s.g⟩

/-- The sum of two states, word by word. -/
def State.add (s t : State) : State :=
  ⟨s.a + t.a, s.b + t.b, s.c + t.c, s.d + t.d, s.e + t.e, s.f + t.f, s.g + t.g, s.h + t.h⟩

/-- Mixes a block into a state. -/
def State.absorb (s : State) (block : Bytes) : State :=
  let words := (expand ((Bytes.chunks 4 block).map wordOf).reverse 48).reverse
  s.add ((constants.zip words).foldl State.round s)

/-- A message with a marked end, zeros up to the end of a block, and its length in
bits. -/
def pad (message : Bytes) : Bytes :=
  let zeros := (119 - message.length % 64) % 64
  message ++ 0x80 :: (List.replicate zeros 0 ++ (Bytes.ofNat 8 (8 * message.length)).reverse)

/-- The digest of a message: 32 bytes. -/
def sha256 (message : Bytes) : Bytes :=
  let s := (Bytes.chunks 64 (pad message)).foldl State.absorb .initial
  [s.a, s.b, s.c, s.d, s.e, s.f, s.g, s.h].flatMap bytesOf

@[simp] theorem length_sha256 (message : Bytes) : (sha256 message).length = 32 := by
  simp [sha256, bytesOf]

end SceneForge.Digest
