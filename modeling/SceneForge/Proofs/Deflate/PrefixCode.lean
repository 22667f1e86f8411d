import SceneForge.Deflate.Encoder
import SceneForge.Proofs.Deflate.Bits

/-!
# Prefix codes

Every word of a complete code leads to its own symbol. Words that are numbered the
canonical way are prefix-free as long as the numbers fit the lengths of the words;
that they do is read off the share of all bit sequences that the words take up.
-/

namespace SceneForge.Deflate

/-- Following a word down a tree ends at the leaf of a symbol. -/
inductive Tree.Leads : Tree → List Bool → Nat → Prop
  | leaf (symbol : Nat) : Leads (.leaf symbol) [] symbol
  | zero {zero : Tree} {word : List Bool} {symbol : Nat} (one : Tree)
      (below : Leads zero word symbol) : Leads (.node zero one) (false :: word) symbol
  | one {one : Tree} {word : List Bool} {symbol : Nat} (zero : Tree)
      (below : Leads one word symbol) : Leads (.node zero one) (true :: word) symbol

/-- Neither of two words begins with the other. -/
def Apart (word other : List Bool) : Prop := ¬ word <+: other ∧ ¬ other <+: word

theorem Apart.of_cons {bit : Bool} {word other : List Bool}
    (apart : Apart (bit :: word) (bit :: other)) : Apart word other := by
  rw [Apart, List.cons_prefix_cons, List.cons_prefix_cons] at apart
  exact ⟨fun front => apart.1 ⟨rfl, front⟩, fun front => apart.2 ⟨rfl, front⟩⟩

/-- A word is apart from one that is no shorter as soon as it does not begin it. -/
theorem Apart.of_length_le {word other : List Bool} (short : word.length ≤ other.length)
    (noFront : ¬ word <+: other) : Apart word other := by
  refine ⟨noFront, fun front => ?_⟩
  obtain rfl := front.eq_of_length_le short
  exact noFront (List.prefix_refl _)

namespace Tree

theorem leads_insert_self (tree : Tree) (word : List Bool) (symbol : Nat) :
    (tree.insert word symbol).Leads word symbol := by
  induction word generalizing tree with
  | nil =>
      cases tree with
      | empty => exact .leaf symbol
      | leaf other => exact .leaf symbol
      | node zero one => exact .leaf symbol
  | cons bit word ih =>
      cases tree with
      | empty =>
          cases bit with
          | false => exact .zero _ (ih _)
          | true => exact .one _ (ih _)
      | leaf other =>
          cases bit with
          | false => exact .zero _ (ih _)
          | true => exact .one _ (ih _)
      | node zero one =>
          cases bit with
          | false => exact .zero _ (ih _)
          | true => exact .one _ (ih _)

/-- A word that is added leaves the words alone that it is apart from. -/
theorem Leads.insert {tree : Tree} {word : List Bool} {symbol : Nat}
    (leads : tree.Leads word symbol) {other : List Bool} (apart : Apart word other) (added : Nat) :
    (tree.insert other added).Leads word symbol := by
  induction leads generalizing other with
  | leaf symbol => exact absurd List.nil_prefix apart.1
  | zero one below ih =>
      cases other with
      | nil => exact absurd List.nil_prefix apart.2
      | cons bit other =>
          cases bit with
          | false => exact .zero _ (ih apart.of_cons)
          | true => exact .zero _ below
  | one zero below ih =>
      cases other with
      | nil => exact absurd List.nil_prefix apart.2
      | cons bit other =>
          cases bit with
          | false => exact .one _ below
          | true => exact .one _ (ih apart.of_cons)

theorem Leads.foldl_insert {word : List Bool} {symbol : Nat} (words : List (Nat × List Bool))
    (apart : ∀ entry ∈ words, Apart word entry.2) {tree : Tree} (leads : tree.Leads word symbol) :
    (words.foldl (fun tree (symbol, word) => tree.insert word symbol) tree).Leads word symbol := by
  induction words generalizing tree with
  | nil => exact leads
  | cons entry words ih =>
      refine ih (fun entry member => apart entry (List.mem_cons_of_mem _ member)) ?_
      exact leads.insert (apart entry List.mem_cons_self) entry.1

/-- In a tree of words that are apart from each other every word leads to its symbol. -/
theorem leads_foldl_insert {words : List (Nat × List Bool)}
    (apart : words.Pairwise fun entry other => Apart entry.2 other.2) {entry : Nat × List Bool}
    (member : entry ∈ words) (tree : Tree) :
    (words.foldl (fun tree (symbol, word) => tree.insert word symbol) tree).Leads
      entry.2 entry.1 := by
  induction words generalizing tree with
  | nil => cases member
  | cons first words ih =>
      obtain ⟨others, apart⟩ := List.pairwise_cons.mp apart
      rcases List.mem_cons.mp member with here | later
      · subst here
        exact (leads_insert_self tree entry.2 entry.1).foldl_insert words others
      · exact ih apart later _

end Tree

/-- Taking a symbol undoes writing its word. -/
theorem Step.symbol_reads {tree : Tree} {word : List Bool} {symbol : Nat}
    (leads : tree.Leads word symbol) : (Step.symbol tree).Reads word symbol := by
  induction leads with
  | leaf symbol => exact pure_reads symbol
  | zero one below ih => exact (bit_reads false).bind ih
  | one zero below ih => exact (bit_reads true).bind ih

namespace Lengths

/-- The share of all bit sequences that begin with a word of some least length; the
longest words count one each. -/
def share (lengths : Lengths) (least : Nat) : Nat :=
  ((lengths.filter (least ≤ ·)).map fun length => 2 ^ (longest - length)).foldr (· + ·) 0

theorem share_of_isComplete {lengths : Lengths} (complete : lengths.isComplete) :
    lengths.share 1 = 2 ^ longest :=
  eq_of_beq complete

theorem length_symbols (lengths : Lengths) (length : Nat) :
    (lengths.symbols length).length = lengths.count length := by
  rw [symbols, List.length_map, ← List.countP_eq_length_filter, List.count]
  conv => rhs; rw [← List.zipIdx_map_fst 0 lengths, List.countP_map]
  rfl

/-- The words of one length, and the longer ones. -/
theorem share_succ (lengths : Lengths) (least : Nat) :
    lengths.share least =
      lengths.count least * 2 ^ (longest - least) + lengths.share (least + 1) := by
  induction lengths with
  | nil => simp [share]
  | cons length lengths ih =>
      have kept {bound : Nat} (inside : bound ≤ length) :
          share (length :: lengths) bound = 2 ^ (longest - length) + share lengths bound := by
        rw [share, List.filter_cons_of_pos (by simpa using inside), List.map_cons, List.foldr_cons,
          share]
      have dropped {bound : Nat} (outside : length < bound) :
          share (length :: lengths) bound = share lengths bound := by
        rw [share, List.filter_cons_of_neg (by simpa using outside), share]
      rcases Nat.lt_trichotomy length least with below | rfl | above
      · rw [dropped below, dropped (by omega), List.count_cons_of_ne (by omega), ih]
      · rw [kept (Nat.le_refl length), dropped (Nat.lt_add_one length), List.count_cons_self, ih,
          Nat.succ_mul]
        omega
      · rw [kept (by omega), kept (show least + 1 ≤ length from above),
          List.count_cons_of_ne (by omega), ih]
        omega

/-- The words of some least length can be numbered from a number on: numbered like
this, they take up no more than there is. -/
def Room (lengths : Lengths) (length next : Nat) : Prop :=
  next * 2 ^ (longest - length) + lengths.share length ≤ 2 ^ longest

/-- The numbers of the words of one length fit that length. -/
theorem Room.numbers_fit {lengths : Lengths} {length next : Nat} (short : length ≤ longest)
    (room : lengths.Room length next) : next + lengths.count length ≤ 2 ^ length := by
  have scaled : (next + lengths.count length) * 2 ^ (longest - length) ≤
      2 ^ length * 2 ^ (longest - length) := by
    rw [← Nat.pow_add, Nat.add_sub_cancel' short, Nat.add_mul]
    rw [Room, share_succ] at room
    omega
  exact Nat.le_of_mul_le_mul_right scaled (Nat.two_pow_pos _)

theorem Room.longer {lengths : Lengths} {length next : Nat} (short : length < longest)
    (room : lengths.Room length next) :
    lengths.Room (length + 1) (2 * (next + lengths.count length)) := by
  have halved : longest - length = longest - (length + 1) + 1 := by omega
  rw [Room, share_succ, halved, ← Nat.add_assoc, ← Nat.add_mul, Nat.pow_succ] at room
  rwa [Room, Nat.mul_comm 2, Nat.mul_assoc, Nat.mul_comm 2]

/-- Every word is a number, at least as great as the first one at its length, that
fits the length; the high bits of the number come first. -/
theorem exists_number_of_mem_wordsFrom {lengths : Lengths} {length next fuel : Nat}
    (lengthsLeft : length + fuel = longest + 1) (room : lengths.Room length next)
    {entry : Nat × List Bool} (member : entry ∈ lengths.wordsFrom length next fuel) :
    ∃ further number, entry.2 = (natToBits (length + further) number).reverse ∧
      next * 2 ^ further ≤ number ∧ number < 2 ^ (length + further) := by
  induction fuel generalizing length next with
  | zero => cases member
  | succ fuel ih =>
      have fits := room.numbers_fit (by omega)
      rw [wordsFrom, List.mem_append] at member
      rcases member with here | longer
      · obtain ⟨⟨symbol, index⟩, place, rfl⟩ := List.mem_map.mp here
        have bound := List.snd_lt_of_mem_zipIdx place
        rw [length_symbols] at bound
        exact ⟨0, next + index, rfl, by omega, by rw [Nat.add_zero]; omega⟩
      · have short : length < longest := by
          rcases Nat.lt_or_ge length longest with short | long
          · exact short
          · obtain rfl : fuel = 0 := by omega
            cases longer
        rw [length_symbols] at longer
        obtain ⟨further, number, spelled, least, fit⟩ :=
          ih (by omega) (room.longer short) longer
        rw [Nat.add_assoc, Nat.add_comm 1] at spelled fit
        refine ⟨further + 1, number, spelled, ?_, fit⟩
        calc
          next * 2 ^ (further + 1) = 2 * next * 2 ^ further := by
            rw [Nat.pow_succ, Nat.mul_comm (2 ^ further), ← Nat.mul_assoc, Nat.mul_comm next]
          _ ≤ 2 * (next + lengths.count length) * 2 ^ further :=
            Nat.mul_le_mul_right _ (by omega)
          _ ≤ number := least

/-- A word is apart from every other one that is no shorter and whose number has
greater high bits. -/
theorem apart_of_number_lt {length further low high : Nat} (lowFits : low < 2 ^ length)
    (highFits : high < 2 ^ (length + further)) (less : (low + 1) * 2 ^ further ≤ high) :
    Apart (natToBits length low).reverse (natToBits (length + further) high).reverse := by
  have leading : (natToBits (length + further) high).reverse =
      (natToBits length (high / 2 ^ further)).reverse ++ (natToBits further high).reverse := by
    rw [Nat.add_comm, natToBits_add, List.reverse_append]
  have leadingFits : high / 2 ^ further < 2 ^ length := by
    rw [Nat.div_lt_iff_lt_mul (Nat.two_pow_pos further), ← Nat.pow_add]
    exact highFits
  have greater : low < high / 2 ^ further :=
    (Nat.le_div_iff_mul_le (Nat.two_pow_pos further)).mpr less
  rw [leading]
  apply Apart.of_length_le
  · simp
  · intro front
    have same := List.prefix_of_prefix_length_le front (List.prefix_append _ _) (by simp)
    have equal := List.reverse_inj.mp (same.eq_of_length (by simp))
    exact Nat.ne_of_lt greater (natToBits_inj lowFits leadingFits equal)

/-- Canonical words are apart from each other. -/
theorem pairwise_apart_wordsFrom {lengths : Lengths} {length next fuel : Nat}
    (lengthsLeft : length + fuel = longest + 1) (room : lengths.Room length next) :
    (lengths.wordsFrom length next fuel).Pairwise fun entry other => Apart entry.2 other.2 := by
  induction fuel generalizing length next with
  | zero => exact .nil
  | succ fuel ih =>
      have fits := room.numbers_fit (by omega)
      rw [wordsFrom, List.pairwise_append]
      refine ⟨?_, ?_, ?_⟩
      · have increasing : (lengths.symbols length).zipIdx.Pairwise
            fun place other => place.2 < other.2 := by
          apply List.pairwise_map.mp
          rw [List.zipIdx_map_snd]
          exact List.pairwise_lt_range'
        apply List.pairwise_map.mpr
        refine increasing.imp_of_mem fun {place other} _ member less => ?_
        have bound := List.snd_lt_of_mem_zipIdx member
        rw [length_symbols] at bound
        have greater : next + other.2 < 2 ^ (length + 0) := by
          rw [Nat.add_zero]
          omega
        exact apart_of_number_lt (by omega) greater (by omega)
      · cases fuel with
        | zero => exact .nil
        | succ fuel =>
            rw [length_symbols]
            exact ih (by omega) (room.longer (by omega))
      · intro entry here other longer
        obtain ⟨⟨symbol, index⟩, place, rfl⟩ := List.mem_map.mp here
        have bound := List.snd_lt_of_mem_zipIdx place
        rw [length_symbols] at bound longer
        cases fuel with
        | zero => cases longer
        | succ fuel =>
            obtain ⟨further, number, spelled, least, fit⟩ :=
              exists_number_of_mem_wordsFrom (by omega) (room.longer (by omega)) longer
            rw [Nat.add_assoc] at spelled fit
            rw [spelled]
            refine apart_of_number_lt (by omega) fit ?_
            calc
              (next + index + 1) * 2 ^ (1 + further) = 2 * (next + index + 1) * 2 ^ further := by
                rw [Nat.pow_add, ← Nat.mul_assoc, Nat.mul_comm 2]
              _ ≤ 2 * (next + lengths.count length) * 2 ^ further :=
                Nat.mul_le_mul_right _ (by omega)
              _ ≤ number := least

/-- Every symbol of a length in range has a word. -/
theorem exists_mem_wordsFrom {lengths : Lengths} {symbol own : Nat}
    (has : lengths[symbol]? = some own) {length fuel : Nat} (least : length ≤ own)
    (greatest : own < length + fuel) (next : Nat) :
    ∃ word, (symbol, word) ∈ lengths.wordsFrom length next fuel := by
  induction fuel generalizing length next with
  | zero => omega
  | succ fuel ih =>
      rw [wordsFrom]
      rcases Nat.eq_or_lt_of_le least with rfl | longer
      · have member : symbol ∈ lengths.symbols length := by
          refine List.mem_map.mpr ⟨(length, symbol), List.mem_filter.mpr ⟨?_, by simp⟩, rfl⟩
          exact List.mem_zipIdx_iff_getElem?.mpr has
        obtain ⟨index, place⟩ := List.mem_iff_getElem?.mp member
        refine ⟨_, List.mem_append_left _ (List.mem_map.mpr ⟨(symbol, index), ?_, rfl⟩)⟩
        exact List.mem_zipIdx_iff_getElem?.mpr place
      · obtain ⟨word, member⟩ := ih longer (by omega)
          (2 * (next + (lengths.symbols length).length))
        exact ⟨word, List.mem_append_right _ member⟩

end Lengths

/-- What a table holds for a symbol after words were entered is one of them, unless there are
none for this symbol. -/
theorem mem_foldl_setIfInBounds {words : List (Nat × List Bool)} {symbol : Nat}
    {table : Array (List Bool)} (inside : symbol < table.size) :
    (symbol, (words.foldl (fun table (symbol, word) => table.setIfInBounds symbol word)
        table).getD symbol []) ∈ words ∨
      (∀ word, (symbol, word) ∉ words) ∧
        (words.foldl (fun table (symbol, word) => table.setIfInBounds symbol word)
          table).getD symbol [] = table.getD symbol [] := by
  induction words generalizing table with
  | nil => exact .inr ⟨fun _ => List.not_mem_nil, rfl⟩
  | cons first words ih =>
      rw [List.foldl_cons]
      rcases @ih (table.setIfInBounds first.1 first.2) (by simpa using inside) with
        later | ⟨absent, same⟩
      · exact .inl (List.mem_cons_of_mem _ later)
      · rw [same, Array.getD_eq_getD_getElem?, Array.getElem?_setIfInBounds]
        by_cases here : first.1 = symbol
        · rw [if_pos here, if_pos (by omega), ← here]
          exact .inl List.mem_cons_self
        · rw [if_neg here, ← Array.getD_eq_getD_getElem?]
          refine .inr ⟨fun word member => ?_, rfl⟩
          rcases List.mem_cons.mp member with rfl | later
          · exact here rfl
          · exact absent word later

namespace Lengths

theorem room_of_isComplete {lengths : Lengths} (complete : lengths.isComplete) :
    lengths.Room 1 0 := by
  have whole := share_of_isComplete complete
  rw [Room]
  omega

/-- What the table of a code holds for a symbol of a length in range is its word. -/
theorem getD_wordTable_mem {lengths : Lengths} {symbol own : Nat}
    (has : lengths[symbol]? = some own) (least : 1 ≤ own) (greatest : own ≤ longest) :
    (symbol, (wordTable lengths).getD symbol []) ∈ lengths.words := by
  obtain ⟨word, member⟩ : ∃ word, (symbol, word) ∈ lengths.words :=
    exists_mem_wordsFrom has least (by omega) 0
  have inside : symbol < (Array.replicate lengths.length ([] : List Bool)).size := by
    rw [Array.size_replicate]
    exact (List.getElem?_eq_some_iff.mp has).1
  rcases mem_foldl_setIfInBounds inside with held | ⟨absent, -⟩
  · exact held
  · exact absurd member (absent word)

/-- The tree of a complete code takes every word for its symbol. -/
theorem tree_reads {lengths : Lengths} (complete : lengths.isComplete) {symbol : Nat}
    {word : List Bool} (member : (symbol, word) ∈ lengths.words) :
    (Step.symbol lengths.tree).Reads word symbol := by
  have apart : lengths.words.Pairwise fun entry other => Apart entry.2 other.2 :=
    pairwise_apart_wordsFrom (Nat.add_comm 1 longest) (room_of_isComplete complete)
  exact Step.symbol_reads (Tree.leads_foldl_insert apart member .empty)

/-- Words of a complete code are not empty. -/
theorem length_word_pos {lengths : Lengths} (complete : lengths.isComplete) {symbol : Nat}
    {word : List Bool} (member : (symbol, word) ∈ lengths.words) : 0 < word.length := by
  obtain ⟨further, number, spelled, -, -⟩ :=
    exists_number_of_mem_wordsFrom (Nat.add_comm 1 longest) (room_of_isComplete complete) member
  have length := congrArg List.length spelled
  rw [List.length_reverse, length_natToBits] at length
  change word.length = _ at length
  omega

end Lengths

theorem isComplete_fixedLiterals : fixedLiterals.isComplete := by
  rw [Lengths.isComplete, fixedLiterals, ← List.sum_eq_foldr]
  simp [Lengths.longest, -List.reduceReplicate]

theorem isComplete_fixedDistances : fixedDistances.isComplete := by
  rw [Lengths.isComplete, fixedDistances, ← List.sum_eq_foldr]
  simp [Lengths.longest, -List.reduceReplicate]

/-- Every symbol of the fixed code of literals and copy lengths has a length in range. -/
theorem exists_length_fixedLiterals {symbol : Nat} (inside : symbol < 288) :
    ∃ own, fixedLiterals[symbol]? = some own ∧ 1 ≤ own ∧ own ≤ Lengths.longest := by
  have size : fixedLiterals.length = 288 := by
    simp only [fixedLiterals, List.length_append, List.length_replicate]
  have place : symbol < fixedLiterals.length := size ▸ inside
  have member : fixedLiterals[symbol] ∈ fixedLiterals := List.getElem_mem place
  refine ⟨fixedLiterals[symbol], List.getElem?_eq_getElem place, ?_⟩
  generalize fixedLiterals[symbol] = own at member
  simp only [fixedLiterals, List.mem_append, List.mem_replicate] at member
  rw [Lengths.longest]
  omega

theorem getElem?_fixedDistances {symbol : Nat} (inside : symbol < 32) :
    fixedDistances[symbol]? = some 5 := by
  rw [fixedDistances, List.getElem?_replicate, if_pos inside]

end SceneForge.Deflate
