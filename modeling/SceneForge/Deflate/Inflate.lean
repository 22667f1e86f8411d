import SceneForge.Deflate.Huffman

/-!
# Decompression

A compressed stream is a sequence of blocks that are stored, or compressed with the
fixed code, or with a code of their own. Decompression stops when a byte would be
written beyond a target; whether the stream is faulty behind that is not looked at.
A copy from before the first byte copies zeros.
-/

namespace SceneForge.Deflate

/-- Why decompression stopped before the end of the stream. -/
inductive Stop where
  | corrupt
  /-- The bits end too early; the output so far. -/
  | unfinished (output : Array UInt8)
  /-- The target is reached. -/
  | full (output : Array UInt8)

/-- The state of decompression: how many bits were taken, the remaining ones, and
the output so far. -/
structure Inflating where
  taken : Nat
  bits : List Bool
  output : Array UInt8

/-- A step of decompression. -/
abbrev Step (α : Type) := StateT Inflating (Except Stop) α

namespace Step

/-- Takes one bit. -/
def bit : Step Bool := fun state =>
  match state.bits with
  | [] => .error (.unfinished state.output)
  | bit :: rest => .ok (bit, { state with taken := state.taken + 1, bits := rest })

/-- Takes a number of so many bits, least significant first. -/
def number : (width : Nat) → Step Nat
  | 0 => return 0
  | width + 1 => do
      let low ← bit
      return low.toNat + 2 * (← number width)

/-- Takes the word of a symbol. -/
def symbol : (tree : Tree) → Step Nat
  | .empty => throw .corrupt
  | .leaf symbol => return symbol
  | .node zero one => do if ← bit then symbol one else symbol zero

/-- Skips to the next whole byte. -/
def align : Step Unit := do
  let state ← get
  let _ ← number ((8 - state.taken % 8) % 8)

/-- Writes a byte, unless `target` bytes are written already. -/
def write (target : Nat) (byte : UInt8) : Step Unit := fun state =>
  if target ≤ state.output.size then .error (.full state.output)
  else .ok ((), { state with output := state.output.push byte })

/-- Writes bytes again that stand `distance` before the end of the output. -/
def copy (target distance : Nat) : (length : Nat) → Step Unit
  | 0 => return ()
  | length + 1 => do
      let output := (← get).output
      let byte := if distance ≤ output.size then output.getD (output.size - distance) 0 else 0
      write target byte
      copy target distance length

/-- Takes `count` bytes as they are. -/
def stored (target : Nat) : (count : Nat) → Step Unit
  | 0 => return ()
  | count + 1 => do
      write target (UInt8.ofNat (← number 8))
      stored target count

/-- Takes the further bits of a value. -/
def value (ranges : List ValueRange) (index : Nat) : Step Nat :=
  match ranges[index]? with
  | none => throw .corrupt
  | some range => return range.base + (← number range.extraBits)

/-- Takes symbols up to the end of a block. Every symbol takes at least one bit. -/
def compressed (target : Nat) (literals distances : Tree) : (fuel : Nat) → Step Unit
  | 0 => throw .corrupt
  | fuel + 1 => do
      let code ← symbol literals
      if code < endOfBlock then
        write target (UInt8.ofNat code)
        compressed target literals distances fuel
      else if code = endOfBlock then return ()
      else
        let length ← value copyLengths (code - endOfBlock - 1)
        let distance ← value copyDistances (← symbol distances)
        copy target distance length
        compressed target literals distances fuel

/-- The order in which the lengths of the code for lengths are written. -/
def lengthOrder : List Nat := [16, 17, 18, 0, 8, 7, 9, 6, 10, 5, 11, 4, 12, 3, 13, 2, 14, 1, 15]

/-- Takes lengths until there are `count`, behind those `before` in reverse order.
Repetitions must not go beyond the count. -/
def lengths (tree : Tree) (count : Nat) (before : List Nat) : (fuel : Nat) → Step Lengths
  | 0 => throw .corrupt
  | fuel + 1 => do
      if count < before.length then throw .corrupt
      else if before.length = count then return before.reverse
      else
        let code ← symbol tree
        if code < 16 then lengths tree count (code :: before) fuel
        else if code = 16 then
          match before with
          | [] => throw .corrupt
          | last :: _ =>
              let times := 3 + (← number 2)
              lengths tree count (List.replicate times last ++ before) fuel
        else if code = 17 then
          let times := 3 + (← number 3)
          lengths tree count (List.replicate times 0 ++ before) fuel
        else
          let times := 11 + (← number 7)
          lengths tree count (List.replicate times 0 ++ before) fuel

/-- A code may be incomplete only if it has at most one word. -/
def checked (lengths : Lengths) : Step Tree :=
  if lengths.isComplete || lengths.used ≤ 1 then return lengths.tree else throw .corrupt

/-- Takes the codes of a block that has its own. -/
def codes : Step (Tree × Tree) := do
  let literalCount := 257 + (← number 5)
  let distanceCount := 1 + (← number 5)
  let lengthCount := 4 + (← number 4)
  if 286 < literalCount ∨ 30 < distanceCount then throw .corrupt
  let written ← (List.replicate lengthCount ()).mapM fun _ => number 3
  let assigned := lengthOrder.zip written
  let lengthLengths : Lengths := (List.range 19).map fun symbol => (assigned.lookup symbol).getD 0
  if !lengthLengths.isComplete then throw .corrupt
  let total := literalCount + distanceCount
  let all ← lengths lengthLengths.tree total [] (total + 1)
  let distances ← checked (all.drop literalCount)
  return (← checked (all.take literalCount), distances)

/-- Takes one block; says whether it was the last. -/
def block (target fuel : Nat) : Step Bool := do
  let last ← bit
  match ← number 2 with
  | 0 =>
      align
      let count ← number 16
      let check ← number 16
      if count + check ≠ 0xffff then throw .corrupt
      stored target count
  | 1 => compressed target fixedLiterals.tree fixedDistances.tree fuel
  | 2 =>
      let (literals, distances) ← codes
      compressed target literals distances fuel
  | _ => throw .corrupt
  return last

/-- Takes blocks up to the last. -/
def blocks (target symbols : Nat) : (fuel : Nat) → Step Unit
  | 0 => throw .corrupt
  | fuel + 1 => do
      if ← block target symbols then return () else blocks target symbols fuel

end Step

/-- The first bytes, at most `limit`, of what a stream decompresses to; `none` if the
stream turns out to be faulty before. Output is produced a window at a time, so a
fault is found if it comes before the end of the window of the last byte. -/
def inflate (limit : Nat) (stream : List UInt8) : Option (List UInt8) :=
  let target := (limit + windowSize - 1) / windowSize * windowSize
  let fuel := 8 * stream.length + 1
  match Step.blocks target fuel fuel ⟨0, toBits stream, #[]⟩ with
  | .ok (_, state) => some (state.output.toList.take limit)
  | .error (.full output) => some (output.toList.take limit)
  | .error (.unfinished output) =>
      if limit ≤ output.size then some (output.toList.take limit) else none
  | .error .corrupt => none

end SceneForge.Deflate
