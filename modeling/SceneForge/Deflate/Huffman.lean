import SceneForge.Power

/-!
# Prefix codes of compressed streams

The symbols of a compressed stream and the bits they are written with. A code is
given by the length of every symbol's word; words of one length are numbered in
symbol order, shorter words first. Decoding walks a binary tree.
-/

namespace SceneForge.Deflate

/-- The bits of a byte string, least significant bit of each byte first. -/
def toBits (bytes : List UInt8) : List Bool :=
  bytes.flatMap fun byte => (List.range 8).map byte.toNat.testBit

/-- The number that bits spell, least significant first. -/
def bitsToNat : List Bool → Nat
  | [] => 0
  | bit :: rest => bit.toNat + 2 * bitsToNat rest

/-- The `width` low bits of a number, least significant first. -/
def natToBits (width n : Nat) : List Bool := (List.range width).map n.testBit

/-- The bytes that bits make up; the last one is filled with zero bits. -/
def ofBits (bits : List Bool) : List UInt8 :=
  if bits.isEmpty then []
  else UInt8.ofNat (bitsToNat (bits.take 8)) :: ofBits (bits.drop 8)
termination_by bits.length
decreasing_by
  cases bits with
  | nil => simp_all
  | cons bit rest => simp only [List.length_drop, List.length_cons]; omega

/-- A decoding tree; a word that leads to `empty` belongs to no symbol. -/
inductive Tree where
  | empty
  | leaf (symbol : Nat)
  | node (zero one : Tree)

namespace Tree

/-- The tree with a word for a symbol added. -/
def insert : (tree : Tree) → (word : List Bool) → (symbol : Nat) → Tree
  | _, [], symbol => leaf symbol
  | node zero one, bit :: word, symbol =>
      if bit then node zero (insert one word symbol) else node (insert zero word symbol) one
  | _, bit :: word, symbol =>
      if bit then node empty (insert empty word symbol) else node (insert empty word symbol) empty

end Tree

/-- A code: the length of every symbol's word, zero for symbols without one. -/
abbrev Lengths := List Nat

namespace Lengths

/-- The longest word that a stream may use. -/
def longest : Nat := 15

/-- The symbols whose words have a given length, in order. -/
def symbols (lengths : Lengths) (length : Nat) : List Nat :=
  (lengths.zipIdx.filter fun (own, _) => own == length).map (·.2)

/-- The words of all lengths from `length` on, the first of which is `next`. -/
def wordsFrom (lengths : Lengths) (length next : Nat) : (fuel : Nat) → List (Nat × List Bool)
  | 0 => []
  | fuel + 1 =>
      let own := symbols lengths length
      own.zipIdx.map (fun (symbol, index) => (symbol, (natToBits length (next + index)).reverse)) ++
        wordsFrom lengths (length + 1) (2 * (next + own.length)) fuel

/-- Every symbol with its word. -/
def words (lengths : Lengths) : List (Nat × List Bool) := wordsFrom lengths 1 0 longest

/-- The decoding tree of a code. -/
def tree (lengths : Lengths) : Tree :=
  lengths.words.foldl (fun tree (symbol, word) => tree.insert word symbol) .empty

/-- How many symbols have words. -/
def used (lengths : Lengths) : Nat := (lengths.filter (0 < ·)).length

/-- Whether every sequence of bits begins with exactly one word. -/
def isComplete (lengths : Lengths) : Bool :=
  ((lengths.filter (0 < ·)).map fun length => 2 ^ (longest - length)).foldr (· + ·) 0 == 2 ^ longest

end Lengths

/-- A range of values that share a symbol: the least, and how many further bits say
which one is meant. -/
structure ValueRange where
  base : Nat
  extraBits : Nat

/-- The lengths of copies, from symbol 257 on. -/
def copyLengths : List ValueRange :=
  [⟨3, 0⟩, ⟨4, 0⟩, ⟨5, 0⟩, ⟨6, 0⟩, ⟨7, 0⟩, ⟨8, 0⟩, ⟨9, 0⟩, ⟨10, 0⟩, ⟨11, 1⟩, ⟨13, 1⟩, ⟨15, 1⟩,
   ⟨17, 1⟩, ⟨19, 2⟩, ⟨23, 2⟩, ⟨27, 2⟩, ⟨31, 2⟩, ⟨35, 3⟩, ⟨43, 3⟩, ⟨51, 3⟩, ⟨59, 3⟩, ⟨67, 4⟩,
   ⟨83, 4⟩, ⟨99, 4⟩, ⟨115, 4⟩, ⟨131, 5⟩, ⟨163, 5⟩, ⟨195, 5⟩, ⟨227, 5⟩, ⟨258, 0⟩]

/-- The distances of copies, from symbol 0 on. -/
def copyDistances : List ValueRange :=
  [⟨1, 0⟩, ⟨2, 0⟩, ⟨3, 0⟩, ⟨4, 0⟩, ⟨5, 1⟩, ⟨7, 1⟩, ⟨9, 2⟩, ⟨13, 2⟩, ⟨17, 3⟩, ⟨25, 3⟩, ⟨33, 4⟩,
   ⟨49, 4⟩, ⟨65, 5⟩, ⟨97, 5⟩, ⟨129, 6⟩, ⟨193, 6⟩, ⟨257, 7⟩, ⟨385, 7⟩, ⟨513, 8⟩, ⟨769, 8⟩,
   ⟨1025, 9⟩, ⟨1537, 9⟩, ⟨2049, 10⟩, ⟨3073, 10⟩, ⟨4097, 11⟩, ⟨6145, 11⟩, ⟨8193, 12⟩,
   ⟨12289, 12⟩, ⟨16385, 13⟩, ⟨24577, 13⟩]

/-- The symbol that ends a block. -/
def endOfBlock : Nat := 256

/-- The fixed code of literals and copy lengths. -/
def fixedLiterals : Lengths :=
  List.replicate 144 8 ++ List.replicate 112 9 ++ List.replicate 24 7 ++ List.replicate 8 8

/-- The fixed code of copy distances. -/
def fixedDistances : Lengths := List.replicate 32 5

/-- The greatest distance of a copy, and the size of the window that output is
produced in. -/
def windowSize : Nat := 32768

end SceneForge.Deflate
