import SceneForge.Deflate.Huffman

/-!
# Compression

Data is taken apart into single bytes and copies of what stood at most a window
earlier, found by remembering where each group of three bytes was seen last. The
pieces are written as one block with the fixed code, unless storing the data as it
is takes less room.
-/

namespace SceneForge.Deflate

/-- A piece of data. -/
inductive Piece where
  | literal (byte : UInt8)
  /-- `length` bytes again that stand `distance` earlier. -/
  | copy (length distance : Nat)

/-- The longest copy. -/
def longestCopy : Nat := 258

/-- How many bytes from two places on agree, up to `fuel`. -/
def agreement (data : Array UInt8) (earlier later : Nat) : (fuel : Nat) → Nat
  | 0 => 0
  | fuel + 1 =>
      match data[earlier]?, data[later]? with
      | some a, some b => if a = b then agreement data (earlier + 1) (later + 1) fuel + 1 else 0
      | _, _ => 0

/-- How many groups of three bytes are told apart. -/
def groupCount : Nat := 4096

/-- The group of the three bytes from a place on. -/
def group (data : Array UInt8) (place : Nat) : Nat :=
  let byte (i : Nat) : Nat := (data.getD (place + i) 0).toNat
  (byte 0 * 961 + byte 1 * 31 + byte 2) % groupCount

/-- Notes that the groups of `count` places from `place` on were seen there. -/
def note (data : Array UInt8) (seen : Array Nat) (place : Nat) : (count : Nat) → Array Nat
  | 0 => seen
  | count + 1 => note data (seen.setIfInBounds (group data place) (place + 1)) (place + 1) count

/-- The longest agreement with the place where the group was last seen. -/
def candidate (data : Array UInt8) (seen : Array Nat) (place : Nat) : Option (Nat × Nat) :=
  let noted := seen.getD (group data place) 0
  if noted = 0 then none
  else
    let distance := place - (noted - 1)
    let length := agreement data (noted - 1) place longestCopy
    if 3 ≤ length ∧ 1 ≤ distance ∧ distance ≤ windowSize then some (length, distance) else none

/-- The pieces from a place on, behind those `before` in reverse order. -/
def piecesFrom (data : Array UInt8) (seen : Array Nat) (place : Nat) (before : List Piece) :
    List Piece :=
  if h : place < data.size then
    match candidate data seen place with
    | some (length + 1, distance) =>
        piecesFrom data (note data seen place (length + 1)) (place + (length + 1))
          (.copy (length + 1) distance :: before)
    | _ =>
        piecesFrom data (note data seen place 1) (place + 1) (.literal data[place] :: before)
  else before.reverse
termination_by data.size - place

/-- The pieces of data. -/
def pieces (data : List UInt8) : List Piece :=
  piecesFrom data.toArray (Array.replicate groupCount 0) 0 []

/-- The place in a table of ranges of the range that a value lies in, and the
further bits. -/
def locate (ranges : List ValueRange) (value : Nat) : Nat × List Bool :=
  let index := (ranges.takeWhile (·.base ≤ value)).length - 1
  match ranges[index]? with
  | none => (0, [])
  | some range => (index, natToBits range.extraBits (value - range.base))

/-- The bits of pieces and of the end of their block, in the code of `words`. -/
def pieceBits (words : Array (List Bool)) (distanceWords : Array (List Bool)) (pieces : List Piece) :
    List Bool :=
  pieces.flatMap (fun piece =>
    match piece with
    | .literal byte => words.getD byte.toNat []
    | .copy length distance =>
        let (lengthIndex, lengthBits) := locate copyLengths length
        let (distanceIndex, distanceBits) := locate copyDistances distance
        words.getD (endOfBlock + 1 + lengthIndex) [] ++ lengthBits ++
          distanceWords.getD distanceIndex [] ++ distanceBits) ++
    words.getD endOfBlock []

/-- The words of a code, by symbol. -/
def wordTable (lengths : Lengths) : Array (List Bool) :=
  lengths.words.foldl (fun table (symbol, word) => table.setIfInBounds symbol word)
    (Array.replicate lengths.length [])

/-- Data as one block with the fixed code. -/
def fixedBlock (data : List UInt8) : List UInt8 :=
  ofBits (true :: true :: false ::
    pieceBits (wordTable fixedLiterals) (wordTable fixedDistances) (pieces data))

/-- The most bytes that a stored block can hold. -/
def storedLimit : Nat := 65535

/-- Data as stored blocks. -/
def storedBlocks (data : List UInt8) : List UInt8 :=
  let here := data.take storedLimit
  let rest := data.drop storedLimit
  let count := here.length
  let check := storedLimit - count
  let header : List UInt8 :=
    [if rest.isEmpty then 1 else 0, UInt8.ofNat count, UInt8.ofNat (count / 256),
     UInt8.ofNat check, UInt8.ofNat (check / 256)]
  if rest.isEmpty then header ++ here else header ++ here ++ storedBlocks rest
termination_by data.length
decreasing_by
  rename_i h
  have : (data.drop storedLimit).length ≠ 0 := by
    intro hzero
    exact h (List.isEmpty_iff.mpr (List.length_eq_zero_iff.mp hzero))
  simp only [List.length_drop, storedLimit] at *
  omega

/-- The shorter of the two ways to write data. -/
def deflate (data : List UInt8) : List UInt8 :=
  let compressed := fixedBlock data
  let stored := storedBlocks data
  if compressed.length ≤ stored.length then compressed else stored

end SceneForge.Deflate
