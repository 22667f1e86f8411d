import Mathlib.Data.List.SplitBy
import Mathlib.Data.List.TakeWhile
import SceneForge.Text.Space

/-!
# Words between white space

What the words of a text are, said without splitting it: runs of characters that are not
white space, with at least one white character between any two.
-/

namespace SceneForge.Text

variable {c : Char} {word first second text : List Char} {found : List (List Char)}

/-- Characters that make up a word. -/
structure IsWord (word : List Char) : Prop where
  ne_nil : word ≠ []
  solid : ∀ c ∈ word, isSpace c = false

/-- A digit is no white space. -/
theorem isSpace_of_isDigit (isDigit : c.isDigit) : isSpace c = false := by
  rw [Char.isDigit, Bool.and_eq_true, decide_eq_true_eq, decide_eq_true_eq] at isDigit
  have least : 48 ≤ c.toNat := isDigit.1
  have most : c.toNat ≤ 57 := isDigit.2
  simp [isSpace]
  omega

/-- The words of a text, in order. -/
inductive Worded : (found : List (List Char)) → (text : List Char) → Prop
  | nil : Worded [] []
  | blank {c : Char} {found : List (List Char)} {text : List Char} (space : isSpace c)
      (rest : Worded found text) : Worded found (c :: text)
  | last {word : List Char} (isWord : IsWord word) : Worded [word] word
  | word {word : List Char} {c : Char} {found : List (List Char)} {text : List Char}
      (isWord : IsWord word) (space : isSpace c) (rest : Worded found text) :
      Worded (word :: found) (word ++ c :: text)

/-- Two parts of a text between which no run goes on have their own words. -/
theorem words_append
    (apart : ∀ a ∈ first.getLast?, ∀ b ∈ second.head?, (isSpace a == isSpace b) = false) :
    words (first ++ second) = words first ++ words second := by
  rw [words, List.splitBy_append apart, List.filter_append, ← words, ← words]

/-- A run of characters that are alike is not split. -/
theorem splitBy_of_alike {white : Bool} (some_character : text ≠ [])
    (alike : ∀ c ∈ text, isSpace c = white) :
    text.splitBy (fun a b => isSpace a == isSpace b) = [text] := by
  refine List.splitBy_of_isChain some_character (List.Pairwise.isChain ?_)
  refine List.pairwise_of_forall_mem_list fun a first b second => ?_
  rw [alike a first, alike b second, beq_self_eq_true]

theorem words_of_blank (blank : ∀ c ∈ text, isSpace c) : words text = [] := by
  cases text with
  | nil => rfl
  | cons c rest =>
      rw [words, splitBy_of_alike (List.cons_ne_nil c rest) blank]
      simp [blank c]

theorem IsWord.words_eq (isWord : IsWord word) : words word = [word] := by
  rw [words, splitBy_of_alike isWord.ne_nil isWord.solid]
  simpa using isWord.solid

/-- A white character in front of a text adds no word to it. -/
theorem words_cons_of_isSpace (space : isSpace c) : words (c :: text) = words text := by
  have blank : ∀ a ∈ text.takeWhile isSpace, isSpace a := fun a member =>
    List.mem_takeWhile_imp member
  have apart : ∀ a, isSpace a → ∀ b ∈ (text.dropWhile isSpace).head?,
      (isSpace a == isSpace b) = false := by
    intro a white b head
    have solid := List.head?_dropWhile_not isSpace text
    rw [head] at solid
    rw [white, solid]
    rfl
  have behind : words text = words (text.dropWhile isSpace) := by
    conv_lhs => rw [← List.takeWhile_append_dropWhile (p := isSpace) (l := text)]
    rw [words_append fun a last => apart a (blank a (List.mem_of_getLast? last)),
      words_of_blank blank, List.nil_append]
  have white : ∀ a ∈ c :: text.takeWhile isSpace, isSpace a :=
    List.forall_mem_cons.mpr ⟨space, blank⟩
  calc words (c :: text)
      = words ((c :: text.takeWhile isSpace) ++ text.dropWhile isSpace) := by
        rw [List.cons_append, List.takeWhile_append_dropWhile]
    _ = words (text.dropWhile isSpace) := by
        rw [words_append fun a last => apart a (white a (List.mem_of_getLast? last)),
          words_of_blank white, List.nil_append]
    _ = words text := behind.symm

/-- Splitting a text finds its words. -/
theorem Worded.words_eq (worded : Worded found text) : words text = found := by
  induction worded with
  | nil => rfl
  | blank space _ ih => rw [words_cons_of_isSpace space, ih]
  | last isWord => exact isWord.words_eq
  | @word word c found text isWord space rest ih =>
      have apart : ∀ a ∈ word.getLast?, ∀ b ∈ (c :: text).head?,
          (isSpace a == isSpace b) = false := by
        intro a last b head
        cases head
        rw [isWord.solid a (List.mem_of_getLast? last), space]
        rfl
      rw [words_append apart, isWord.words_eq, words_cons_of_isSpace space, ih, List.singleton_append]

end SceneForge.Text
