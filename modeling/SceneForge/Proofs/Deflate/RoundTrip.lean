import SceneForge.Proofs.Deflate.Pieces
import SceneForge.Proofs.Deflate.PrefixCode

/-!
# Decompressing compressed data

Decompression undoes compression. Each step takes the bits that compression has
written for one piece and leaves the output at what the pieces so far stand for.
-/

namespace SceneForge.Deflate

/-- Every value from `least` on and less than `beyond` lies in a range. -/
def Covers (least beyond : Nat) : List ValueRange → Prop
  | [] => False
  | [last] => last.base ≤ least ∧ beyond ≤ last.base + 2 ^ last.extraBits
  | range :: next :: rest =>
      range.base ≤ least ∧ next.base ≤ range.base + 2 ^ range.extraBits ∧
        Covers next.base beyond (next :: rest)

/-- The last range of those that begin no later than a value holds it. -/
theorem exists_range_of_covers {least beyond value : Nat} {ranges : List ValueRange}
    (covers : Covers least beyond ranges) (noLess : least ≤ value) (less : value < beyond) :
    ∃ own, ranges[(ranges.takeWhile (·.base ≤ value)).length - 1]? = some own ∧
      own.base ≤ value ∧ value < own.base + 2 ^ own.extraBits := by
  fun_induction Covers least beyond ranges with
  | case1 least => cases covers
  | case2 least last =>
      obtain ⟨first, greatest⟩ := covers
      have inside : last.base ≤ value := Nat.le_trans first noLess
      refine ⟨last, ?_, inside, Nat.lt_of_lt_of_le less greatest⟩
      simp [inside]
  | case3 least range next rest ih =>
      obtain ⟨first, adjacent, covers⟩ := covers
      have inside : range.base ≤ value := Nat.le_trans first noLess
      by_cases later : next.base ≤ value
      · obtain ⟨own, found, inRange⟩ := ih covers later
        refine ⟨own, ?_, inRange⟩
        simpa [inside, later] using found
      · refine ⟨range, ?_, inside, by omega⟩
        simp [inside, later]

/-- Taking the further bits of a value that was located gives the value. -/
theorem value_reads {least beyond value : Nat} {ranges : List ValueRange}
    (covers : Covers least beyond ranges) (noLess : least ≤ value) (less : value < beyond) :
    (Step.value ranges (locate ranges value).1).Reads (locate ranges value).2 value ∧
      (locate ranges value).1 < ranges.length := by
  obtain ⟨own, found, low, high⟩ := exists_range_of_covers covers noLess less
  have located : locate ranges value =
      ((ranges.takeWhile (·.base ≤ value)).length - 1,
        natToBits own.extraBits (value - own.base)) := by
    rw [locate, found]
  rw [located]
  refine ⟨?_, (List.getElem?_eq_some_iff.mp found).1⟩
  have chain := (Step.number_reads own.extraBits (value - own.base)).change (own.base + ·)
  rw [Nat.mod_eq_of_lt (by omega), Nat.add_sub_cancel' low] at chain
  rwa [Step.value, found]

theorem copyLengths_covers : Covers 3 (longestCopy + 1) copyLengths := by
  simp [Covers, copyLengths, longestCopy]

theorem copyDistances_covers : Covers 1 (windowSize + 1) copyDistances := by
  simp [Covers, copyDistances, windowSize]

theorem copy_runs {target distance length : Nat} {output : Array UInt8}
    (inData : distance ≤ output.size) (room : output.size + length ≤ target) (taken : Nat) :
    (Step.copy target distance length).Runs taken output [] () (repeated distance length output) := by
  induction length generalizing output with
  | zero => exact Step.pure_runs () taken output
  | succ length ih =>
      intro rest
      change (Step.write target _ >>= fun _ => Step.copy target distance length)
        ⟨taken, [] ++ rest, output⟩ = _
      rw [if_pos inData]
      have written : output.size < target := by omega
      refine ((Step.write_runs written _ taken).bind (ih ?_ ?_)) rest
      · rw [Array.size_push]
        omega
      · rw [Array.size_push]
        omega

/-- The bits of one piece. -/
def Piece.bits : Piece → List Bool
  | .literal byte => (wordTable fixedLiterals).getD byte.toNat []
  | .copy length distance =>
      (wordTable fixedLiterals).getD (endOfBlock + 1 + (locate copyLengths length).1) [] ++
        ((locate copyLengths length).2 ++
          ((wordTable fixedDistances).getD (locate copyDistances distance).1 [] ++
            (locate copyDistances distance).2))

theorem pieceBits_nil :
    pieceBits (wordTable fixedLiterals) (wordTable fixedDistances) [] =
      (wordTable fixedLiterals).getD endOfBlock [] := by
  rw [pieceBits, List.flatMap_nil, List.nil_append]

theorem pieceBits_cons (piece : Piece) (rest : List Piece) :
    pieceBits (wordTable fixedLiterals) (wordTable fixedDistances) (piece :: rest) =
      piece.bits ++ pieceBits (wordTable fixedLiterals) (wordTable fixedDistances) rest := by
  cases piece with
  | literal byte => simp only [pieceBits, Piece.bits, List.flatMap_cons, List.append_assoc]
  | copy length distance =>
      simp only [pieceBits, Piece.bits, List.flatMap_cons, List.append_assoc]

theorem literal_reads (symbol : Nat) (inside : symbol < 288) :
    (Step.symbol fixedLiterals.tree).Reads ((wordTable fixedLiterals).getD symbol []) symbol := by
  obtain ⟨own, has, least, greatest⟩ := exists_length_fixedLiterals inside
  exact Lengths.tree_reads isComplete_fixedLiterals
    (Lengths.getD_wordTable_mem has least greatest)

theorem distance_reads (symbol : Nat) (inside : symbol < 32) :
    (Step.symbol fixedDistances.tree).Reads ((wordTable fixedDistances).getD symbol []) symbol :=
  Lengths.tree_reads isComplete_fixedDistances
    (Lengths.getD_wordTable_mem (getElem?_fixedDistances inside) (by decide) (by decide))

/-- Taking symbols up to the end of a block undoes writing pieces. -/
theorem compressed_runs {target : Nat} {output whole : Array UInt8} {pieces : List Piece}
    (continues : Continues output pieces whole) (room : whole.size ≤ target) {fuel : Nat}
    (enough : pieces.length < fuel) (taken : Nat) :
    (Step.compressed target fixedLiterals.tree fixedDistances.tree fuel).Runs taken output
      (pieceBits (wordTable fixedLiterals) (wordTable fixedDistances) pieces) () whole := by
  induction continues generalizing fuel taken with
  | nil data =>
      cases fuel with
      | zero => cases enough
      | succ fuel =>
          rw [pieceBits_nil, ← List.append_nil (Array.getD _ _ _)]
          refine (literal_reads endOfBlock (by decide) taken data).bind ?_
          rw [if_neg (Nat.lt_irrefl _), if_pos rfl]
          exact Step.pure_runs () _ data
  | @literal data whole byte rest continues ih =>
      cases fuel with
      | zero => cases enough
      | succ fuel =>
          have code : byte.toNat < endOfBlock := byte.toNat_lt
          have inside : byte.toNat < 288 := Nat.lt_trans code (by decide)
          have size := continues.size_le
          rw [Array.size_push] at size
          rw [pieceBits_cons, ← List.nil_append (pieceBits _ _ _)]
          refine (literal_reads byte.toNat inside taken data).bind ?_
          rw [if_pos code, UInt8.ofNat_toNat]
          exact (Step.write_runs (by omega) byte _).bind (ih room (Nat.lt_of_succ_lt_succ enough) _)
  | @copy data whole length distance rest long notTooLong away inWindow inData continues ih =>
      cases fuel with
      | zero => cases enough
      | succ fuel =>
          have size := continues.size_le
          rw [size_repeated] at size
          obtain ⟨lengthReads, lengthPlace⟩ :=
            value_reads copyLengths_covers long (Nat.lt_succ_of_le notTooLong)
          obtain ⟨distanceReads, distancePlace⟩ :=
            value_reads copyDistances_covers away (Nat.lt_succ_of_le inWindow)
          change _ < 29 at lengthPlace
          change _ < 30 at distancePlace
          have notLess : ¬ endOfBlock + 1 + (locate copyLengths length).1 < endOfBlock := by omega
          have notEnd : endOfBlock + 1 + (locate copyLengths length).1 ≠ endOfBlock := by omega
          have place : endOfBlock + 1 + (locate copyLengths length).1 - endOfBlock - 1 =
              (locate copyLengths length).1 := by omega
          have literalInside : endOfBlock + 1 + (locate copyLengths length).1 < 288 := by
            rw [endOfBlock]
            omega
          rw [pieceBits_cons, Piece.bits, List.append_assoc, List.append_assoc, List.append_assoc,
            ← List.nil_append (pieceBits _ _ _)]
          refine (literal_reads _ literalInside taken data).bind ?_
          rw [if_neg notLess, if_neg notEnd, place]
          refine (lengthReads _ data).bind ?_
          refine (distance_reads _ (by omega) _ data).bind ?_
          refine (distanceReads _ data).bind ?_
          exact (copy_runs inData (by omega) _).bind (ih room (Nat.lt_of_succ_lt_succ enough) _)

/-- Every piece takes at least one bit. -/
theorem length_le_pieceBits {output whole : Array UInt8} {pieces : List Piece}
    (continues : Continues output pieces whole) :
    pieces.length ≤
      (pieceBits (wordTable fixedLiterals) (wordTable fixedDistances) pieces).length := by
  have nonempty (symbol : Nat) (inside : symbol < 288) :
      0 < ((wordTable fixedLiterals).getD symbol []).length := by
    obtain ⟨own, has, least, greatest⟩ := exists_length_fixedLiterals inside
    exact Lengths.length_word_pos isComplete_fixedLiterals
      (Lengths.getD_wordTable_mem has least greatest)
  induction continues with
  | nil data => exact Nat.zero_le _
  | @literal data whole byte rest continues ih =>
      have inside : byte.toNat < 288 := Nat.lt_trans byte.toNat_lt (by decide)
      have word := nonempty byte.toNat inside
      rw [pieceBits_cons, Piece.bits, List.length_append, List.length_cons]
      omega
  | @copy data whole length distance rest long notTooLong away inWindow inData continues ih =>
      have place := (value_reads copyLengths_covers long (Nat.lt_succ_of_le notTooLong)).2
      change _ < 29 at place
      have inside : endOfBlock + 1 + (locate copyLengths length).1 < 288 := by
        rw [endOfBlock]
        omega
      have word := nonempty _ inside
      rw [pieceBits_cons, Piece.bits, List.length_append, List.length_append, List.length_cons]
      omega

theorem blocks_run_last {target symbols taken : Nat} {output written : Array UInt8}
    {bits : List Bool} (runs : (Step.block target symbols).Runs taken output bits true written)
    (fuel : Nat) :
    (Step.blocks target symbols (fuel + 1)).Runs taken output bits () written := by
  rw [← List.append_nil bits]
  exact runs.bind (Step.pure_runs () _ written)

theorem blocks_run_more {target symbols taken fuel : Nat} {output between written : Array UInt8}
    {front back : List Bool}
    (runs : (Step.block target symbols).Runs taken output front false between)
    (others : (Step.blocks target symbols fuel).Runs (taken + front.length) between back () written) :
    (Step.blocks target symbols (fuel + 1)).Runs taken output (front ++ back) () written :=
  runs.bind others

/-- The block with the fixed code is taken for the data it was made from. -/
theorem fixed_block_runs {target fuel : Nat} {output whole : Array UInt8} {pieces : List Piece}
    (continues : Continues output pieces whole) (room : whole.size ≤ target)
    (enough : pieces.length < fuel) (taken : Nat) :
    (Step.block target fuel).Runs taken output
      (true :: true :: false ::
        pieceBits (wordTable fixedLiterals) (wordTable fixedDistances) pieces) true whole := by
  have kind : (Step.number 2).Reads [true, false] 1 := Step.number_reads 2 1
  rw [← List.append_nil (pieceBits _ _ _)]
  refine (Step.bit_reads true taken output).bind ?_
  refine (kind _ output).bind ?_
  exact (compressed_runs continues room enough _).bind (Step.pure_runs true _ whole)

theorem align_runs {taken : Nat} {bits : List Bool} (whole : (taken + bits.length) % 8 = 0)
    (few : bits.length < 8) (output : Array UInt8) :
    Step.align.Runs taken output bits () output := by
  have count : (8 - taken % 8) % 8 = bits.length := by omega
  have reads := Step.number_reads bits.length (bitsToNat bits)
  rw [natToBits_bitsToNat] at reads
  intro rest
  change (Step.number ((8 - taken % 8) % 8) >>= fun _ => pure ()) ⟨taken, bits ++ rest, output⟩ = _
  rw [count]
  exact reads.change (fun _ => ()) taken output rest

/-- Taking bytes as they are undoes writing them. -/
theorem stored_runs {target : Nat} {output : Array UInt8} (bytes : List UInt8)
    (room : output.size + bytes.length ≤ target) (taken : Nat) :
    (Step.stored target bytes.length).Runs taken output (toBits bytes) ()
      (output ++ bytes.toArray) := by
  induction bytes generalizing output taken with
  | nil =>
      rw [Array.append_empty]
      exact Step.pure_runs () taken output
  | cons byte bytes ih =>
      have value : byte.toNat % 2 ^ 8 = byte.toNat := Nat.mod_eq_of_lt byte.toNat_lt
      have read := Step.number_reads 8 byte.toNat
      rw [value] at read
      rw [List.length_cons] at room
      rw [toBits_cons]
      refine (read taken output).bind ?_
      rw [UInt8.ofNat_toNat]
      have whole : output ++ (byte :: bytes).toArray = output.push byte ++ bytes.toArray := by
        rw [← Array.toList_inj]
        simp
      rw [whole]
      refine (Step.write_runs (by omega) byte _).bind (ih ?_ _)
      rw [Array.size_push]
      omega

theorem toBits_ofNat (n : Nat) : toBits [UInt8.ofNat n] = natToBits 8 n := by
  have bits : natToBits 8 (n % 2 ^ 8) = natToBits 8 n := by
    have spelled := natToBits_bitsToNat (natToBits 8 n)
    rwa [length_natToBits, bitsToNat_natToBits] at spelled
  rw [toBits_cons, UInt8.toNat_ofNat', bits]
  exact List.append_nil _

/-- The bits of a stored block's header: whether the block is the last, its kind, the
bits up to the next whole byte, and the count with its check. -/
theorem toBits_storedHeader (last : Bool) (count check : Nat) :
    toBits [if last then 1 else 0, UInt8.ofNat count, UInt8.ofNat (count / 256),
        UInt8.ofNat check, UInt8.ofNat (check / 256)] =
      last :: (natToBits 2 0 ++ (natToBits 5 0 ++ (natToBits 16 count ++ natToBits 16 check))) := by
  have flag : toBits [if last then 1 else 0] = last :: (natToBits 2 0 ++ natToBits 5 0) := by
    cases last <;> rfl
  have word (n : Nat) : toBits [UInt8.ofNat n, UInt8.ofNat (n / 256)] = natToBits 16 n := by
    rw [← List.singleton_append, toBits_append, toBits_ofNat, toBits_ofNat]
    exact (natToBits_add 8 8 n).symm
  have split : ([if last then 1 else 0, UInt8.ofNat count, UInt8.ofNat (count / 256),
      UInt8.ofNat check, UInt8.ofNat (check / 256)] : List UInt8) =
      [if last then 1 else 0] ++ ([UInt8.ofNat count, UInt8.ofNat (count / 256)] ++
        [UInt8.ofNat check, UInt8.ofNat (check / 256)]) := rfl
  rw [split, toBits_append, toBits_append, flag, word, word]
  simp only [List.cons_append, List.append_assoc]

/-- One stored block. -/
def storedBlock (last : Bool) (bytes : List UInt8) : List UInt8 :=
  [if last then 1 else 0, UInt8.ofNat bytes.length, UInt8.ofNat (bytes.length / 256),
    UInt8.ofNat (storedLimit - bytes.length),
    UInt8.ofNat ((storedLimit - bytes.length) / 256)] ++ bytes

/-- Data that fits one stored block is written as one. -/
theorem storedBlocks_of_le {data : List UInt8} (fits : data.length ≤ storedLimit) :
    storedBlocks data = storedBlock true data := by
  have here : data.take storedLimit = data := List.take_of_length_le fits
  have rest : data.drop storedLimit = [] := List.drop_eq_nil_of_le fits
  rw [storedBlocks, here, rest]
  rfl

theorem storedBlocks_of_lt {data : List UInt8} (more : storedLimit < data.length) :
    storedBlocks data =
      storedBlock false (data.take storedLimit) ++ storedBlocks (data.drop storedLimit) := by
  have rest : ¬ (data.drop storedLimit).isEmpty := by
    rw [List.isEmpty_iff, List.drop_eq_nil_iff]
    omega
  rw [storedBlocks, if_neg rest, if_neg rest]
  rfl

/-- Storing data does not make it shorter. -/
theorem length_le_storedBlocks (data : List UInt8) : data.length ≤ (storedBlocks data).length := by
  rcases Nat.lt_or_ge storedLimit data.length with more | fits
  · have rest := length_le_storedBlocks (data.drop storedLimit)
    have whole := congrArg List.length (List.take_append_drop storedLimit data)
    rw [List.length_append] at whole
    rw [storedBlocks_of_lt more, storedBlock, List.length_append, List.length_append]
    omega
  · rw [storedBlocks_of_le fits, storedBlock, List.length_append]
    omega
termination_by data.length
decreasing_by
  rw [List.length_drop]
  have positive : 0 < storedLimit := by decide
  omega

/-- A stored block that begins at a whole byte is taken for its bytes. -/
theorem stored_block_runs {target fuel taken : Nat} {output : Array UInt8} {bytes : List UInt8}
    (aligned : taken % 8 = 0) (few : bytes.length ≤ storedLimit)
    (room : output.size + bytes.length ≤ target) (last : Bool) :
    (Step.block target fuel).Runs taken output (toBits (storedBlock last bytes)) last
      (output ++ bytes.toArray) := by
  rw [storedLimit] at few
  have count := Step.number_reads 16 bytes.length
  have check := Step.number_reads 16 (storedLimit - bytes.length)
  rw [Nat.mod_eq_of_lt (by omega)] at count
  rw [Nat.mod_eq_of_lt (by rw [storedLimit]; omega)] at check
  have sum : ¬ bytes.length + (storedLimit - bytes.length) ≠ 0xffff := by
    rw [storedLimit]
    omega
  rw [storedBlock, toBits_append, toBits_storedHeader]
  simp only [List.cons_append, List.append_assoc]
  rw [← List.append_nil (toBits bytes)]
  refine (Step.bit_reads last taken output).bind ?_
  refine (Step.number_reads 2 0 _ output).bind ?_
  refine (align_runs ?_ (by simp) output).bind ?_
  · simp only [List.length_singleton, length_natToBits]
    omega
  refine (count _ output).bind ?_
  refine (check _ output).bind ?_
  rw [if_neg sum]
  exact (stored_runs bytes room _).bind (Step.pure_runs last _ _)

/-- Stored blocks that begin at a whole byte are taken for the data they hold. -/
theorem storedBlocks_run {target symbols fuel : Nat} (data : List UInt8) {taken : Nat}
    {output : Array UInt8} (aligned : taken % 8 = 0) (enough : data.length < fuel)
    (room : output.size + data.length ≤ target) :
    (Step.blocks target symbols fuel).Runs taken output (toBits (storedBlocks data)) ()
      (output ++ data.toArray) := by
  induction fuel generalizing data taken output with
  | zero => cases enough
  | succ fuel ih =>
      rcases Nat.lt_or_ge storedLimit data.length with more | fits
      · have here : (data.take storedLimit).length = storedLimit := by
          rw [List.length_take]
          omega
        have rest : (data.drop storedLimit).length = data.length - storedLimit :=
          List.length_drop
        have whole : output ++ data.toArray =
            output ++ (data.take storedLimit).toArray ++ (data.drop storedLimit).toArray := by
          rw [← Array.toList_inj]
          simp
        rw [storedBlocks_of_lt more, toBits_append, whole]
        refine blocks_run_more (stored_block_runs aligned (by omega) (by omega) false) (ih _ ?_ ?_ ?_)
        · rw [length_toBits]
          omega
        · have limit : storedLimit = 65535 := rfl
          omega
        · have size : (data.take storedLimit).toArray.size = storedLimit := here
          rw [Array.size_append]
          omega
      · rw [storedBlocks_of_le fits]
        exact blocks_run_last (stored_block_runs aligned fits room true) fuel

/-- What blocks were taken for is decompressed, whatever follows them. -/
theorem inflate_of_runs {data stream : List UInt8} {bits filling : List Bool} {limit : Nat}
    (room : data.length ≤ limit) (split : toBits stream = bits ++ filling)
    (runs : ∀ target fuel, data.length ≤ target → fuel = 8 * stream.length + 1 →
      (Step.blocks target fuel fuel).Runs 0 #[] bits () data.toArray) :
    inflate limit stream = some data := by
  have target : data.length ≤ (limit + windowSize - 1) / windowSize * windowSize := by
    rw [windowSize]
    omega
  rw [inflate, split, runs _ _ target rfl filling]
  exact congrArg some (List.take_of_length_le room)

/-- Decompressing what data was compressed to gives the data. -/
theorem inflate_deflate {data : List UInt8} {limit : Nat} (room : data.length ≤ limit) :
    inflate limit (deflate data) = some data := by
  rw [deflate]
  split
  next =>
    have continues := pieces_continues data
    obtain ⟨filling, bits⟩ := exists_toBits_ofBits
      (true :: true :: false ::
        pieceBits (wordTable fixedLiterals) (wordTable fixedDistances) (pieces data))
    refine inflate_of_runs room bits fun target fuel inside enough => ?_
    have few := length_le_pieceBits continues
    have size := congrArg List.length bits
    rw [length_toBits, List.length_append, List.length_cons, List.length_cons,
      List.length_cons] at size
    rw [fixedBlock] at enough
    obtain ⟨fuel, rfl⟩ : ∃ less, fuel = less + 1 := ⟨fuel - 1, by omega⟩
    exact blocks_run_last
      (fixed_block_runs continues (by simpa using inside) (by omega) 0) fuel
  next =>
    refine inflate_of_runs room (List.append_nil _).symm fun target fuel inside enough => ?_
    have longer := length_le_storedBlocks data
    have blocks := @storedBlocks_run target fuel fuel data 0 #[] rfl (by omega) (by simpa using inside)
    rwa [Array.empty_append] at blocks

/-- Data that fits one stored block is compressed to little more than its length. -/
theorem length_deflate_le {data : List UInt8} (fits : data.length ≤ storedLimit) :
    (deflate data).length ≤ data.length + 5 := by
  have stored : (storedBlocks data).length = data.length + 5 := by
    rw [storedBlocks_of_le fits, storedBlock, List.length_append]
    exact Nat.add_comm 5 data.length
  rw [deflate]
  split
  next shorter => exact stored ▸ shorter
  next => exact Nat.le_of_eq stored

end SceneForge.Deflate
