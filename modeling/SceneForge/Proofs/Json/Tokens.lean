import SceneForge.Proofs.Json.Scanning

/-!
# The tokens of a text

The scanner finds exactly the tokens that a text spells. Between two characters it holds the
part of a token that it has read (`Holds`), which every further character preserves, so that
tokens without a fault among them spell the text; that it finds the tokens of a spelled text is
known already.
-/

namespace SceneForge.Json.Token

variable {tokens : List Token} {token : Token} {written rest read : List Char} {c : Char}

/-- What a number in progress has read, by its place. -/
inductive NumberState.Holds : NumberState → List Char → Prop
  | sign : Holds ⟨.sign, true, [], [], false, []⟩ ['-']
  | zero {negative : Bool} {sign : List Char} (signed : SpellsSign negative sign) :
      Holds ⟨.zero, negative, [0], [], false, []⟩ (sign ++ ['0'])
  | whole {negative : Bool} {digits : List Nat} {digit : Nat} {sign written : List Char} {c : Char}
      (signed : SpellsSign negative sign) (first : Decimal.digit? c = some digit)
      (positive : digit ≠ 0) (others : Digits Decimal.digit? digits written) :
      Holds ⟨.whole, negative, (digit :: digits).reverse, [], false, []⟩ (sign ++ c :: written)
  | point {negative : Bool} {whole : List Nat} {sign integer : List Char}
      (signed : SpellsSign negative sign) (counted : SpellsWhole whole integer) :
      Holds ⟨.point, negative, whole.reverse, [], false, []⟩ (sign ++ integer ++ ['.'])
  | fraction {negative : Bool} {whole digits : List Nat} {sign integer written : List Char}
      (signed : SpellsSign negative sign) (counted : SpellsWhole whole integer)
      (some_digit : digits ≠ []) (spelled : Digits Decimal.digit? digits written) :
      Holds ⟨.fraction, negative, whole.reverse, digits.reverse, false, []⟩
        (sign ++ integer ++ '.' :: written)
  | mark {negative : Bool} {whole fraction : List Nat} {sign integer decimals : List Char}
      (signed : SpellsSign negative sign) (counted : SpellsWhole whole integer)
      (pointed : SpellsFraction fraction decimals) {mark : Char} (marks : mark = 'e' ∨ mark = 'E') :
      Holds ⟨.mark, negative, whole.reverse, fraction.reverse, false, []⟩
        (sign ++ integer ++ decimals ++ [mark])
  | markSign {negative down : Bool} {whole fraction : List Nat}
      {sign integer decimals mark : List Char}
      (signed : SpellsSign negative sign) (counted : SpellsWhole whole integer)
      (pointed : SpellsFraction fraction decimals) (marked : SpellsMark down mark) :
      Holds ⟨.markSign, negative, whole.reverse, fraction.reverse, down, []⟩
        (sign ++ integer ++ decimals ++ mark)
  | exponent {negative down : Bool} {whole fraction digits : List Nat}
      {sign integer decimals mark written : List Char}
      (signed : SpellsSign negative sign) (counted : SpellsWhole whole integer)
      (pointed : SpellsFraction fraction decimals) (marked : SpellsMark down mark)
      (some_digit : digits ≠ []) (spelled : Digits Decimal.digit? digits written) :
      Holds ⟨.exponent, negative, whole.reverse, fraction.reverse, down, digits.reverse⟩
        (sign ++ integer ++ decimals ++ (mark ++ written))

theorem Digits.snoc {understood : Char → Option Nat} {digits : List Nat} {digit : Nat}
    (spelled : Digits understood digits written) (last : understood c = some digit) :
    Digits understood (digits ++ [digit]) (written ++ [c]) :=
  List.rel_append spelled (.cons last .nil)

namespace NumberState

section Parts

variable {negative : Bool} {whole fraction : List Nat} {sign integer decimals : List Char}
  {next state : NumberState}

theorem holds_marked (signed : SpellsSign negative sign) (counted : SpellsWhole whole integer)
    (pointed : SpellsFraction fraction decimals)
    (steps : (if c = 'e' ∨ c = 'E' then
      .continued ⟨.mark, negative, whole.reverse, fraction.reverse, false, []⟩
        else NumberStep.finished) = .continued next) :
    next.Holds (sign ++ integer ++ decimals ++ [c]) := by
  split at steps
  next marks =>
    cases steps
    exact .mark signed counted pointed marks
  next => cases steps

theorem holds_pointed (signed : SpellsSign negative sign) (counted : SpellsWhole whole integer)
    (steps : (if c = '.' then .continued ⟨.point, negative, whole.reverse, [], false, []⟩
      else if c = 'e' ∨ c = 'E' then .continued ⟨.mark, negative, whole.reverse, [], false, []⟩
        else NumberStep.finished) = .continued next) :
    next.Holds (sign ++ integer ++ [c]) := by
  split at steps
  next same =>
    cases steps
    rw [same]
    exact .point signed counted
  next =>
    have holds := holds_marked signed counted .absent steps
    rwa [List.append_nil] at holds

/-- Every character that goes on with a number is held. -/
theorem Holds.continued (holds : state.Holds read) (steps : state.step c = .continued next) :
    next.Holds (read ++ [c]) := by
  rw [NumberState.step] at steps
  cases digit : Decimal.digit? c with
  | some value =>
      rw [digit] at steps
      cases holds with
      | sign =>
          cases steps
          by_cases zero : value = 0
          · subst zero
            obtain ⟨-, rfl⟩ := exists_digit digit
            exact .zero .minus
          · rw [if_neg zero]
            exact .whole .minus digit zero .nil
      | zero => cases steps
      | whole signed first positive others =>
          cases steps
          have holds := Holds.whole signed first positive (others.snoc digit)
          simpa using holds
      | point signed counted =>
          cases steps
          have holds := Holds.fraction signed counted (by simp) (.cons digit .nil)
          simpa using holds
      | fraction signed counted some_digit spelled =>
          cases steps
          have holds := Holds.fraction signed counted (by simp) (spelled.snoc digit)
          simpa using holds
      | mark signed counted pointed marks =>
          cases steps
          have holds := Holds.exponent signed counted pointed (.unsigned marks) (by simp)
            (.cons digit .nil)
          simpa using holds
      | markSign signed counted pointed marked =>
          cases steps
          have holds := Holds.exponent signed counted pointed marked (by simp) (.cons digit .nil)
          simpa using holds
      | exponent signed counted pointed marked some_digit spelled =>
          cases steps
          have holds := Holds.exponent signed counted pointed marked (by simp) (spelled.snoc digit)
          simpa using holds
  | none =>
      rw [digit] at steps
      cases holds with
      | sign => cases steps
      | zero signed => exact holds_pointed signed .zero steps
      | whole signed first positive others =>
          exact holds_pointed signed (.positive first positive others) steps
      | point => cases steps
      | fraction signed counted some_digit spelled =>
          exact holds_marked signed counted (.present some_digit spelled) steps
      | @mark _ _ _ _ _ _ signed counted pointed mark marks =>
          dsimp only at steps
          split at steps
          next same =>
            cases steps
            subst same
            simpa using Holds.markSign signed counted pointed (.plus marks)
          next =>
            split at steps
            next same =>
              cases steps
              subst same
              simpa using Holds.markSign signed counted pointed (.minus marks)
            next => cases steps
      | markSign => cases steps
      | exponent => cases steps

end Parts

theorem complete_of_finished {state : NumberState} (steps : state.step c = .finished) :
    state.place.complete := by
  rw [step] at steps
  cases place : state.place with
  | zero | whole | fraction | exponent => rfl
  | sign | point | markSign =>
      rw [place] at steps
      cases digit : Decimal.digit? c <;> rw [digit] at steps <;> cases steps
  | mark =>
      rw [place] at steps
      cases digit : Decimal.digit? c with
      | some value =>
          rw [digit] at steps
          cases steps
      | none =>
          rw [digit] at steps
          dsimp only at steps
          split at steps
          next => cases steps
          next => split at steps <;> cases steps

/-- A number that may end is spelled. -/
theorem Holds.spelled {state : NumberState} (holds : state.Holds read)
    (complete : state.place.complete) : SpellsNumber state.literal read := by
  cases holds with
  | zero signed => simpa [literal] using SpellsNumber.intro signed .zero .absent .absent
  | whole signed first positive others =>
      simpa [literal] using SpellsNumber.intro signed (.positive first positive others) .absent .absent
  | fraction signed counted some_digit spelled =>
      simpa [literal] using
        SpellsNumber.intro signed counted (.present some_digit spelled) .absent
  | exponent signed counted pointed marked some_digit spelled =>
      have spelled := SpellsNumber.intro signed counted pointed (.present marked some_digit spelled)
      simpa [literal, some_digit] using spelled
  | sign | point | mark | markSign => cases complete

end NumberState

/-- What a string in progress holds after `pieces`: their characters, but for the first half of a
surrogate pair at the end. -/
structure Reads (pieces : List Piece) (characters : Except Category (List Char))
    (high : Option Nat) : Prop where
  halves : ∀ unit ∈ high, IsHigh unit
  decoded : ∀ rest, decode (pieces ++ rest) = remaining characters (held high rest)

/-- What a string in progress has read of its next piece. -/
inductive InPiece : (high : Option Nat) → Escape → List Char → Prop
  | resting {high : Option Nat} : InPiece high (resting high) []
  | backslash {high : Option Nat} : InPiece high (.backslash high) ['\\']
  | hex {high : Option Nat} {digits : List Nat} {written : List Char}
      (spelled : Digits hexDigit? digits written) (few : digits.length < 4) :
      InPiece high (.hex high digits.length (digits.foldl (16 * · + ·) 0)) ('\\' :: 'u' :: written)
  /-- There will be a fault. -/
  | badHex {high : Option Nat} {missing : Nat} {written : List Char} :
      InPiece high (.badHex missing) written

/-- What the scanner has read of a token. -/
inductive Holds : State → List Char → Prop
  | between : Holds .between []
  | word {next : Char} {rest read : List Char} {token : Token}
      (lexeme : Lexeme token (read ++ next :: rest)) : Holds (.word next rest token) read
  | number {state : NumberState} {read : List Char} (holds : state.Holds read) :
      Holds (.number state) read
  | string {pieces : List Piece} {parts : List (List Char)}
      {characters : Except Category (List Char)} {high : Option Nat} {escape : Escape}
      {part : List Char} (spelled : List.Forall₂ SpellsPiece pieces parts)
      (reads : Reads pieces characters high) (inside : InPiece high escape part) :
      Holds (.string characters escape) ('\"' :: parts.flatten ++ part)

/-- There is no fault among tokens. -/
def Faultless (tokens : List Token) : Prop := ∀ fault, .fault fault ∉ tokens

/-- The scanner is well past `read`: it has spelled the tokens that are complete, and holds the
rest. -/
def Scanned (read : List Char) (outcome : List Token × State) : Prop :=
  ∃ done left, read = done ++ left ∧ Spells outcome.1 done ∧ Holds outcome.2 left

section Strings

variable {characters : Except Category (List Char)} {high : Option Nat} {pieces : List Piece}
  {parts : List (List Char)}

theorem Reads.start : Reads [] (.ok []) none where
  halves := nofun
  decoded rest := (remaining_ok_nil rest).symm

theorem Reads.snoc {piece : Piece} {next : Except Category (List Char)} {nextHigh : Option Nat}
    (reads : Reads pieces characters high) (takes : Takes characters high piece next nextHigh) :
    Reads (pieces ++ [piece]) next nextHigh where
  halves := takes.1
  decoded rest := by
    rw [List.append_assoc, List.singleton_append, reads.decoded, takes.2]

theorem scanned_of_holds {state : State} (holds : Holds state read) : Scanned read ([], state) :=
  ⟨[], read, rfl, .nil, holds⟩

theorem scanned_piece {piece : Piece} {part : List Char} {next : Except Category (List Char)}
    {nextHigh : Option Nat} (spelled : List.Forall₂ SpellsPiece pieces parts)
    (reads : Reads pieces characters high) (last : SpellsPiece piece part)
    (takes : Takes characters high piece next nextHigh) :
    Scanned ('\"' :: parts.flatten ++ part) ([], .string next (resting nextHigh)) := by
  have holds := Holds.string (List.rel_append spelled (.cons last .nil)) (reads.snoc takes) .resting
  apply scanned_of_holds
  simpa using holds

theorem scanned_plain (spelled : List.Forall₂ SpellsPiece pieces parts)
    (reads : Reads pieces characters high) (no_backslash : c ≠ '\\')
    (sound : Faultless (plainStep (settled characters high) c).1) :
    Scanned ('\"' :: parts.flatten ++ [c]) (plainStep (settled characters high) c) := by
  rw [plainStep] at sound ⊢
  by_cases quote : c = '\"'
  · rw [if_pos quote, quote]
    have decoded := reads.decoded []
    rw [List.append_nil, remaining_held_nil reads.halves] at decoded
    refine ⟨_, [], (List.append_nil _).symm, .single ?_, .between⟩
    have lexeme := Lexeme.string spelled
    rw [decoded] at lexeme
    cases characters : settled characters high <;> rwa [characters] at lexeme
  · rw [if_neg quote, if_neg no_backslash] at sound ⊢
    split at sound
    next => exact absurd (List.mem_singleton_self _) (sound _)
    next printed =>
      rw [if_neg printed]
      exact scanned_piece spelled reads (.plain quote no_backslash (by omega))
        (takes_character reads.halves c)

/-- The digits of a unit are held until there are four, which spell the piece. -/
theorem scanned_hexStep {digits : List Nat} {written : List Char}
    (spelled : List.Forall₂ SpellsPiece pieces parts) (reads : Reads pieces characters high)
    (digitsSpelled : Digits hexDigit? digits written) (few : digits.length < 4)
    (sound : Faultless
      (stringStep characters (.hex high digits.length (digits.foldl (16 * · + ·) 0)) c).1) :
    Scanned ('\"' :: parts.flatten ++ ('\\' :: 'u' :: written) ++ [c])
      (stringStep characters (.hex high digits.length (digits.foldl (16 * · + ·) 0)) c) := by
  rw [stringStep] at sound ⊢
  cases digit : hexDigit? c with
  | none =>
      rw [digit] at sound
      dsimp only at sound ⊢
      split at sound
      next => exact absurd (List.mem_singleton_self _) (sound _)
      next more =>
        rw [if_neg more, List.append_assoc]
        exact scanned_of_holds (.string spelled reads .badHex)
  | some value =>
      have snoc := digitsSpelled.snoc digit
      have folded : (digits ++ [value]).foldl (16 * · + ·) 0 =
          16 * digits.foldl (16 * · + ·) 0 + value := by
        rw [List.foldl_append]
        rfl
      dsimp only
      by_cases last : digits.length = 3
      · rw [if_pos last, ← folded]
        obtain ⟨next, nextHigh, stepped, takes⟩ := takes_unit characters reads.halves
          ((digits ++ [value]).foldl (16 * · + ·) 0)
        rw [stepped]
        have scanned := scanned_piece spelled reads (.unit snoc (by simp [last])) takes
        simpa using scanned
      · rw [if_neg last, ← folded]
        have holds := Holds.string spelled reads (.hex snoc (by simp; omega))
        apply scanned_of_holds
        simpa using holds

/-- Every character of a string is held, unless it is a fault. -/
theorem scanned_stringStep {escape : Escape} {part : List Char}
    (spelled : List.Forall₂ SpellsPiece pieces parts) (reads : Reads pieces characters high)
    (inside : InPiece high escape part) (sound : Faultless (stringStep characters escape c).1) :
    Scanned ('\"' :: parts.flatten ++ part ++ [c]) (stringStep characters escape c) := by
  cases inside with
  | resting =>
      rw [List.append_nil]
      by_cases backslash : c = '\\'
      · subst backslash
        rw [stringStep_resting_backslash]
        exact scanned_of_holds (.string spelled reads .backslash)
      · rw [stringStep_resting backslash] at sound ⊢
        exact scanned_plain spelled reads backslash sound
  | backslash =>
      by_cases unit : c = 'u'
      · subst unit
        have holds := Holds.string spelled reads (.hex .nil (by decide))
        exact scanned_of_holds (by simpa using holds)
      · cases escapes : escaped? c with
        | none =>
            rw [stringStep, if_neg unit] at sound
            dsimp only at sound
            rw [escapes] at sound
            exact absurd (List.mem_singleton_self _) (sound _)
        | some letter =>
            rw [stringStep_backslash escapes]
            have scanned := scanned_piece spelled reads (.escape escapes)
              (takes_character reads.halves letter)
            simpa [resting] using scanned
  | hex digitsSpelled few => exact scanned_hexStep spelled reads digitsSpelled few sound
  | badHex =>
      rw [stringStep] at sound ⊢
      split at sound
      next => exact absurd (List.mem_singleton_self _) (sound _)
      next more =>
        rw [if_neg more, List.append_assoc]
        exact scanned_of_holds (.string spelled reads .badHex)

end Strings

theorem scanned_lexeme {state : State} (lexeme : Lexeme token written) (holds : Holds state []) :
    Scanned written ([token], state) :=
  ⟨written, [], (List.append_nil _).symm, .single lexeme, holds⟩

/-- Every character between two tokens is held, unless it is a fault. -/
theorem scanned_begin (sound : Faultless (begin c).1) : Scanned [c] (begin c) := by
  unfold begin at sound ⊢
  split at sound
  next blank =>
    rw [if_pos blank]
    exact ⟨[c], [], rfl, .blank blank .nil, .between⟩
  next printed =>
    rw [if_neg printed]
    split at sound
    next => exact scanned_lexeme .openArray .between
    next => exact scanned_lexeme .closeArray .between
    next => exact scanned_lexeme .openObject .between
    next => exact scanned_lexeme .closeObject .between
    next => exact scanned_lexeme .comma .between
    next => exact scanned_lexeme .colon .between
    next => exact scanned_of_holds (.string .nil .start .resting)
    next => exact scanned_of_holds (.word .null)
    next => exact scanned_of_holds (.word .true)
    next => exact scanned_of_holds (.word .false)
    next => exact scanned_of_holds (.number .sign)
    next => exact scanned_of_holds (.number (.zero .plus))
    next zero =>
      cases digit : Decimal.digit? c with
      | none =>
          rw [digit] at sound
          exact absurd (List.mem_singleton_self _) (sound _)
      | some value =>
          refine scanned_of_holds (.number (.whole .plus digit ?_ .nil))
          intro same
          subst same
          exact zero (exists_digit digit).2

/-- Every character is held, unless it is a fault. -/
theorem scanned_step {state : State} (holds : Holds state read)
    (sound : Faultless (step state c).1) : Scanned (read ++ [c]) (step state c) := by
  cases holds with
  | between => exact scanned_begin sound
  | @word next rest _ token lexeme =>
      unfold step at sound ⊢
      dsimp only at sound ⊢
      by_cases same : c = next
      · subst same
        rw [if_pos rfl]
        cases rest with
        | nil => exact scanned_lexeme lexeme .between
        | cons next rest => exact scanned_of_holds (.word (by simpa using lexeme))
      · rw [if_neg same] at sound
        exact absurd (List.mem_singleton_self _) (sound _)
  | @number state _ holds =>
      rw [step] at sound ⊢
      cases steps : state.step c with
      | continued next => exact scanned_of_holds (.number (holds.continued steps))
      | refused =>
          rw [steps] at sound
          exact absurd (List.mem_singleton_self _) (sound _)
      | finished =>
          rw [steps] at sound
          obtain ⟨done, left, split, spells, held⟩ :=
            scanned_begin fun fault member => sound fault (List.mem_cons_of_mem _ member)
          have lexeme := Lexeme.number (holds.spelled (NumberState.complete_of_finished steps))
          refine ⟨read ++ done, left, ?_, .token lexeme spells, held⟩
          rw [split, List.append_assoc]
  | string spelled reads inside => exact scanned_stringStep spelled reads inside sound

/-- The end of a text completes the token that is held, unless it is a fault. -/
theorem spells_finish {state : State} (holds : Holds state read) (sound : Faultless (finish state)) :
    Spells (finish state) read := by
  cases holds with
  | between => exact .nil
  | word => exact absurd (List.mem_singleton_self _) (sound _)
  | @number state _ holds =>
      rw [finish] at sound ⊢
      split at sound
      next complete =>
        rw [if_pos complete]
        exact .single (.number (holds.spelled complete))
      next => exact absurd (List.mem_singleton_self _) (sound _)
  | string => exact absurd (List.mem_singleton_self _) (sound _)

/-- The tokens that the scanner finds are spelled, unless there is a fault among them. -/
theorem spells_scanFrom {state : State} (holds : Holds state read)
    (sound : Faultless (scanFrom state written)) :
    Spells (scanFrom state written) (read ++ written) := by
  induction written generalizing state read with
  | nil =>
      rw [List.append_nil]
      exact spells_finish holds sound
  | cons c rest ih =>
      rw [scanFrom_cons] at sound ⊢
      obtain ⟨done, left, split, spells, held⟩ :=
        scanned_step holds fun fault member => sound fault (List.mem_append_left _ member)
      have others := ih held fun fault member => sound fault (List.mem_append_right _ member)
      rw [← List.singleton_append, ← List.append_assoc, split, List.append_assoc]
      exact spells.append others

/-- A text spells the tokens that the scanner finds, unless there is a fault among them. -/
theorem spells_of_scan {text : String} (scanned : scan text = tokens) (sound : Faultless tokens) :
    Spells tokens text.toList := by
  subst scanned
  exact spells_scanFrom .between sound

/-- The scanner finds exactly the tokens that a text spells. -/
theorem scan_eq_iff {text : String} (separated : Separated tokens) (sound : Faultless tokens) :
    scan text = tokens ↔ Spells tokens text.toList :=
  ⟨fun scanned => spells_of_scan scanned sound, fun spells => scanFrom_of_spells spells separated⟩

end SceneForge.Json.Token
