import Mathlib.Data.List.Chain
import Mathlib.Tactic.IntervalCases
import SceneForge.Proofs.Json.Lexical

/-!
# Scanning spelled texts

The scanner finds the tokens that a text spells, as long as no number stands directly behind
another. It takes a string piece by piece, holding back the first half of a surrogate pair, and
a number part by part.
-/

namespace SceneForge.Json.Token

variable {tokens : List Token} {token : Token} {written rest read : List Char} {c : Char}

theorem scanFrom_cons (state : State) (c : Char) (rest : List Char) :
    scanFrom state (c :: rest) = (step state c).1 ++ scanFrom (step state c).2 rest := rfl

/-! ## Strings -/

section Strings

variable {characters : Except Category (List Char)} {high : Option Nat} {pieces : List Piece}

/-- The characters of a string of which `characters` have been read, in reverse order, and
`pieces` are to come. -/
def remaining (characters : Except Category (List Char)) (pieces : List Piece) :
    Except Category (List Char) :=
  characters.bind fun read => (decode pieces).map (read.reverse ++ ·)

/-- Pieces behind the first half of a surrogate pair, if there is one. -/
def held : (high : Option Nat) → List Piece → List Piece
  | none, pieces => pieces
  | some unit, pieces => .unit unit :: pieces

/-- The characters of a string in which the first half of a surrogate pair stays alone, if there
is one. -/
def settled (characters : Except Category (List Char)) (high : Option Nat) :
    Except Category (List Char) :=
  if high.isSome then spoil characters else characters

/-- Between two pieces of a string. -/
def resting : Option Nat → Escape
  | none => .none
  | some unit => .high unit

@[simp] theorem append_spoil (characters : Except Category (List Char)) (c : Char) :
    append (spoil characters) c = spoil characters := by
  cases characters <;> rfl

@[simp] theorem remaining_spoil (characters : Except Category (List Char)) (pieces : List Piece) :
    remaining (spoil characters) pieces = spoil characters := by
  cases characters <;> rfl

theorem remaining_nil (characters : Except Category (List Char)) :
    remaining characters [] = characters.map List.reverse := by
  cases characters with
  | error problem => rfl
  | ok read => simp [remaining, decode, Except.bind, Except.map]

theorem remaining_ok_nil (pieces : List Piece) : remaining (.ok []) pieces = decode pieces := by
  cases decoded : decode pieces <;> simp [remaining, decoded, Except.bind, Except.map]

/-- A character of which the rest of a string takes notice is one that has been read. -/
theorem remaining_append (rest : Except Category (List Char)) (c : Char) :
    (characters.bind fun read => (append rest c).map (read.reverse ++ ·)) =
      (append characters c).bind fun read => rest.map (read.reverse ++ ·) := by
  cases characters with
  | error problem => rfl
  | ok read =>
      cases rest with
      | error problem => rfl
      | ok others => simp [append, Except.bind, Except.map]

theorem remaining_character (c : Char) (pieces : List Piece) :
    remaining characters (.character c :: pieces) = remaining (append characters c) pieces :=
  remaining_append (decode pieces) c

theorem remaining_error (fails : decode pieces = .error .malformed) :
    remaining characters pieces = spoil characters := by
  rw [remaining, fails]
  rfl

theorem remaining_unit {unit : Nat} (not_high : ¬ IsHigh unit) (not_low : ¬ IsLow unit) :
    remaining characters (.unit unit :: pieces) =
      remaining (append characters (Char.ofNat unit)) pieces := by
  rw [remaining, decode.eq_def]
  dsimp only
  rw [if_neg not_high, if_neg not_low]
  exact remaining_append (decode pieces) _

theorem remaining_low {unit : Nat} (not_high : ¬ IsHigh unit) (low : IsLow unit) :
    remaining characters (.unit unit :: pieces) = spoil characters := by
  apply remaining_error
  rw [decode.eq_def]
  dsimp only
  rw [if_neg not_high, if_pos low]

theorem remaining_pair {high low : Nat} (is_high : IsHigh high) (is_low : IsLow low) :
    remaining characters (.unit high :: .unit low :: pieces) =
      remaining (append characters (paired high low)) pieces := by
  rw [remaining, decode, if_pos is_high, if_pos is_low]
  exact remaining_append (decode pieces) _

theorem remaining_lone {unit : Nat} (is_high : IsHigh unit)
    (alone : ∀ low rest, pieces = .unit low :: rest → ¬ IsLow low) :
    remaining characters (.unit unit :: pieces) = spoil characters := by
  apply remaining_error
  rw [decode.eq_def]
  dsimp only
  rw [if_pos is_high]
  split
  next low rest => exact if_neg (alone low rest rfl)
  next => rfl

/-- With one more piece, a string in progress goes on with other characters. -/
def Takes (characters : Except Category (List Char)) (high : Option Nat) (piece : Piece)
    (next : Except Category (List Char)) (nextHigh : Option Nat) : Prop :=
  (∀ unit ∈ nextHigh, IsHigh unit) ∧
    ∀ rest, remaining characters (held high (piece :: rest)) = remaining next (held nextHigh rest)

theorem takes_character (halves : ∀ unit ∈ high, IsHigh unit) (c : Char) :
    Takes characters high (.character c) (append (settled characters high) c) none := by
  refine ⟨nofun, fun rest => ?_⟩
  cases high with
  | none => exact remaining_character c rest
  | some unit =>
      exact (remaining_lone (halves unit rfl) (by simp)).trans (by simp [settled, held])

/-- What stands at the end of an escape of a 16-bit unit is the first half of a surrogate pair,
or nothing. -/
theorem takes_unit (characters : Except Category (List Char))
    (halves : ∀ unit ∈ high, IsHigh unit) (unit : Nat) :
    ∃ next nextHigh, unitStep characters high unit = .string next (resting nextHigh) ∧
      Takes characters high (.unit unit) next nextHigh := by
  cases high with
  | some first =>
      have is_high := halves first rfl
      by_cases low : IsLow unit
      · exact ⟨append characters (paired first unit), none, if_pos low, nofun,
          fun rest => remaining_pair is_high low⟩
      · refine ⟨spoil characters, none, if_neg low, nofun, fun rest => ?_⟩
        exact (remaining_lone is_high (by simp [low])).trans (by simp)
  | none =>
      by_cases is_high : IsHigh unit
      · refine ⟨characters, some unit, if_pos is_high, ?_, fun rest => rfl⟩
        simpa using is_high
      · by_cases low : IsLow unit
        · refine ⟨spoil characters, none, (if_neg is_high).trans (if_pos low), nofun, fun rest => ?_⟩
          exact (remaining_low is_high low).trans (by simp)
        · exact ⟨append characters (Char.ofNat unit), none, (if_neg is_high).trans (if_neg low), nofun,
            fun rest => remaining_unit is_high low⟩

theorem remaining_held_nil (halves : ∀ unit ∈ high, IsHigh unit) :
    remaining characters (held high []) = (settled characters high).map List.reverse := by
  cases high with
  | none => exact remaining_nil characters
  | some unit =>
      rw [held, remaining_lone (halves unit rfl) (by simp)]
      cases characters <;> rfl

theorem stringStep_resting_backslash (characters : Except Category (List Char))
    (high : Option Nat) :
    stringStep characters (resting high) '\\' = ([], .string characters (.backslash high)) := by
  cases high <;> rfl

theorem stringStep_resting (no_backslash : c ≠ '\\') :
    stringStep characters (resting high) c = plainStep (settled characters high) c := by
  cases high with
  | none => rfl
  | some unit => exact if_neg no_backslash

theorem plainStep_of_printed (no_quote : c ≠ '\"') (no_backslash : c ≠ '\\')
    (printed : 0x20 ≤ c.toNat) :
    plainStep characters c = ([], .string (append characters c) .none) := by
  rw [plainStep, if_neg no_quote, if_neg no_backslash, if_neg (by omega)]

theorem escaped?_u : escaped? 'u' = none := by decide

theorem stringStep_backslash {letter : Char} (escapes : escaped? letter = some c) :
    stringStep characters (.backslash high) letter =
      ([], .string (append (settled characters high) c) .none) := by
  have not_unit : letter ≠ 'u' := by
    intro same
    rw [same, escaped?_u] at escapes
    cases escapes
  rw [stringStep, if_neg not_unit]
  dsimp only
  rw [escapes]
  rfl

theorem scanFrom_hex {digits : List Nat} (spelled : Digits hexDigit? digits written)
    (nonempty : digits ≠ []) (count value : Nat) (four : count + digits.length = 4) (rest : List Char) :
    scanFrom (.string characters (.hex high count value)) (written ++ rest) =
      scanFrom (unitStep characters high (digits.foldl (16 * · + ·) value)) rest := by
  induction spelled generalizing count value with
  | nil => contradiction
  | @cons digit c others _ first spelled ih =>
      rw [List.cons_append, scanFrom_cons]
      simp only [step, stringStep, first]
      rw [List.length_cons] at four
      by_cases last : others = []
      · subst last
        cases spelled
        rw [if_pos (by simpa using four)]
        rfl
      · have more := List.length_pos_iff.mpr last
        rw [if_neg (by omega)]
        exact ih last _ _ (by omega)

/-- The scanner takes a piece of a string. -/
theorem scanFrom_piece (characters : Except Category (List Char)) {piece : Piece}
    {part : List Char} (spelled : SpellsPiece piece part) (halves : ∀ unit ∈ high, IsHigh unit) :
    ∃ next nextHigh, Takes characters high piece next nextHigh ∧ ∀ rest,
      scanFrom (.string characters (resting high)) (part ++ rest) =
        scanFrom (.string next (resting nextHigh)) rest := by
  cases spelled with
  | @plain c no_quote no_backslash printed =>
      refine ⟨_, none, takes_character halves c, fun rest => ?_⟩
      rw [List.cons_append, List.nil_append, scanFrom_cons, step, stringStep_resting no_backslash,
        plainStep_of_printed no_quote no_backslash printed]
      rfl
  | @escape letter c escapes =>
      refine ⟨_, none, takes_character halves c, fun rest => ?_⟩
      rw [List.cons_append, List.cons_append, List.nil_append, scanFrom_cons, step,
        stringStep_resting_backslash, List.nil_append, scanFrom_cons, step, stringStep_backslash escapes]
      rfl
  | @unit digits written spelled four =>
      obtain ⟨next, nextHigh, stepped, takes⟩ := takes_unit characters halves
        (digits.foldl (16 * · + ·) 0)
      refine ⟨next, nextHigh, takes, fun rest => ?_⟩
      have nonempty : digits ≠ [] := by
        intro empty
        simp [empty] at four
      rw [List.cons_append, List.cons_append, scanFrom_cons, step, stringStep_resting_backslash,
        List.nil_append, ← stepped, ← scanFrom_hex spelled nonempty 0 0 (by omega)]
      rfl

/-- The scanner reads a string to its end. -/
theorem scanFrom_pieces {parts : List (List Char)} (spelled : List.Forall₂ SpellsPiece pieces parts)
    (halves : ∀ unit ∈ high, IsHigh unit) (rest : List Char) :
    scanFrom (.string characters (resting high)) (parts.flatten ++ '\"' :: rest) =
      .string ((remaining characters (held high pieces)).map String.ofList) ::
        scanFrom .between rest := by
  induction spelled generalizing characters high with
  | nil =>
      rw [remaining_held_nil halves, List.flatten_nil, List.nil_append, scanFrom_cons, step,
        stringStep_resting (by decide)]
      cases settled characters high <;> rfl
  | cons first _ ih =>
      obtain ⟨next, nextHigh, ⟨nextHalves, takes⟩, scanned⟩ :=
        scanFrom_piece characters first halves
      rw [List.flatten_cons, List.append_assoc, scanned, ih nextHalves, takes]

end Strings

/-! ## Numbers -/

section Numbers

variable {negative : Bool} {digits whole fraction : List Nat}

/-- A text that does not go on with a number. -/
def EndsNumber (rest : List Char) : Prop :=
  ∀ c ∈ rest.head?, Decimal.digit? c = none ∧ c ≠ '.' ∧ c ≠ 'e' ∧ c ≠ 'E'

theorem scanFrom_continued {state next : NumberState} (steps : state.step c = .continued next)
    (rest : List Char) : scanFrom (.number state) (c :: rest) = scanFrom (.number next) rest := by
  rw [scanFrom_cons, step, steps]
  rfl

theorem scanFrom_ended {state : NumberState} (complete : state.place.complete)
    (ends : EndsNumber rest) :
    scanFrom (.number state) rest = .number state.literal.value :: scanFrom .between rest := by
  cases rest with
  | nil => exact if_pos complete
  | cons c rest =>
      obtain ⟨no_digit, no_point, no_mark, no_capital⟩ := ends c rfl
      have finished : state.step c = .finished := by
        rw [NumberState.step, no_digit]
        cases place : state.place <;> simp_all [NumberPlace.complete]
      rw [scanFrom_cons, step, finished]
      rfl

theorem scanFrom_whole (spelled : Digits Decimal.digit? digits written) (rest : List Char) :
    scanFrom (.number ⟨.whole, negative, whole, [], false, []⟩) (written ++ rest) =
      scanFrom (.number ⟨.whole, negative, digits.reverse ++ whole, [], false, []⟩) rest := by
  induction spelled generalizing whole with
  | nil => rfl
  | cons first _ ih =>
      rw [List.cons_append, scanFrom_continued (by rw [NumberState.step, first]), ih]
      simp

theorem scanFrom_fraction (spelled : Digits Decimal.digit? digits written) (rest : List Char) :
    scanFrom (.number ⟨.fraction, negative, whole, fraction, false, []⟩) (written ++ rest) =
      scanFrom (.number ⟨.fraction, negative, whole, digits.reverse ++ fraction, false, []⟩) rest := by
  induction spelled generalizing fraction with
  | nil => rfl
  | cons first _ ih =>
      rw [List.cons_append, scanFrom_continued (by rw [NumberState.step, first]), ih]
      simp

theorem scanFrom_exponent (spelled : Digits Decimal.digit? digits written)
    {down : Bool} {exponent : List Nat} (rest : List Char) :
    scanFrom (.number ⟨.exponent, negative, whole, fraction, down, exponent⟩) (written ++ rest) =
      scanFrom (.number ⟨.exponent, negative, whole, fraction, down, digits.reverse ++ exponent⟩)
        rest := by
  induction spelled generalizing exponent with
  | nil => rfl
  | cons first _ ih =>
      rw [List.cons_append, scanFrom_continued (by rw [NumberState.step, first]), ih]
      simp

theorem exists_digit {digit : Nat} (read : Decimal.digit? c = some digit) :
    digit < 10 ∧ c = Char.ofNat (48 + digit) := by
  rw [Decimal.digit?] at read
  split at read
  next range =>
    cases read
    have least : 48 ≤ c.toNat := range.1
    have greatest : c.toNat ≤ 57 := range.2
    have zero : '0'.toNat = 48 := rfl
    rw [zero]
    refine ⟨by omega, ?_⟩
    rw [Nat.add_sub_cancel' least, Char.ofNat_toNat]
  next => cases read

theorem begin_digit {digit : Nat} (first : Decimal.digit? c = some digit) (positive : digit ≠ 0) :
    begin c = ([], .number ⟨.whole, false, [digit], [], false, []⟩) := by
  obtain ⟨small, rfl⟩ := exists_digit first
  interval_cases digit
  · contradiction
  all_goals rfl

/-- The scanner reads the sign and the whole part of a number. -/
theorem scanFrom_integer {sign integer : List Char} (signed : SpellsSign negative sign)
    (counted : SpellsWhole whole integer) (rest : List Char) :
    ∃ place, (place = .zero ∨ place = .whole) ∧
      scanFrom .between (sign ++ integer ++ rest) =
        scanFrom (.number ⟨place, negative, whole.reverse, [], false, []⟩) rest := by
  cases counted with
  | zero =>
      refine ⟨.zero, .inl rfl, ?_⟩
      cases signed <;> rfl
  | @positive digit c digits written first positive others =>
      refine ⟨.whole, .inr rfl, ?_⟩
      rw [List.reverse_cons, ← scanFrom_whole others]
      cases signed with
      | plus =>
          rw [List.nil_append, List.cons_append, scanFrom_cons, step, begin_digit first positive]
          rfl
      | minus =>
          rw [List.cons_append, List.nil_append, List.cons_append, scanFrom_cons]
          exact scanFrom_continued (by simp [NumberState.step, first, positive]) _

/-- The scanner reads the fraction part of a number. -/
theorem scanFrom_decimals (negative : Bool) (whole : List Nat) {decimals : List Char}
    {place : NumberPlace} (counted : place = .zero ∨ place = .whole) (pointed : SpellsFraction fraction decimals)
    (rest : List Char) :
    ∃ next, (next = .zero ∨ next = .whole ∨ next = .fraction) ∧
      scanFrom (.number ⟨place, negative, whole, [], false, []⟩) (decimals ++ rest) =
        scanFrom (.number ⟨next, negative, whole, fraction.reverse, false, []⟩) rest := by
  cases pointed with
  | absent => exact ⟨place, counted.imp_right .inl, rfl⟩
  | @present _ written some_digit spelled =>
      refine ⟨.fraction, .inr (.inr rfl), ?_⟩
      have point : NumberState.step ⟨place, negative, whole, [], false, []⟩ '.' =
          .continued ⟨.point, negative, whole, [], false, []⟩ := by
        rcases counted with rfl | rfl <;> rfl
      rw [List.cons_append, scanFrom_continued point]
      cases spelled with
      | nil => contradiction
      | cons first others =>
          rw [List.reverse_cons, ← scanFrom_fraction others, List.cons_append,
            scanFrom_continued (by rw [NumberState.step, first])]

/-- The scanner reads the mark of an exponent up to its first digit. -/
theorem scanFrom_mark {down : Bool} {mark : List Char} {place : NumberPlace} {digit : Nat}
    (counted : place = .zero ∨ place = .whole ∨ place = .fraction) (marked : SpellsMark down mark)
    (first : Decimal.digit? c = some digit) (rest : List Char) :
    scanFrom (.number ⟨place, negative, whole, fraction, false, []⟩) (mark ++ c :: rest) =
      scanFrom (.number ⟨.exponent, negative, whole, fraction, down, [digit]⟩) rest := by
  have begins {mark : Char} (marks : mark = 'e' ∨ mark = 'E') :
      NumberState.step ⟨place, negative, whole, fraction, false, []⟩ mark =
        .continued ⟨.mark, negative, whole, fraction, false, []⟩ := by
    rcases counted with rfl | rfl | rfl <;> rcases marks with rfl | rfl <;> rfl
  cases marked with
  | unsigned marks =>
      rw [List.cons_append, scanFrom_continued (begins marks), List.nil_append]
      exact scanFrom_continued (by rw [NumberState.step, first]) rest
  | plus marks =>
      rw [List.cons_append, scanFrom_continued (begins marks), List.cons_append,
        scanFrom_continued rfl, List.nil_append]
      exact scanFrom_continued (by rw [NumberState.step, first]) rest
  | minus marks =>
      rw [List.cons_append, scanFrom_continued (begins marks), List.cons_append,
        scanFrom_continued rfl, List.nil_append]
      exact scanFrom_continued (by rw [NumberState.step, first]) rest

/-- The scanner reads a number to its end. -/
theorem scanFrom_number {literal : Literal} (spelled : SpellsNumber literal written)
    (ends : EndsNumber rest) :
    scanFrom .between (written ++ rest) = .number literal.value :: scanFrom .between rest := by
  cases spelled with
  | @intro negative whole fraction exponent sign integer decimals power signed counted pointed raised =>
      obtain ⟨place, placed, scanned⟩ :=
        scanFrom_integer signed counted (decimals ++ (power ++ rest))
      obtain ⟨next, nextPlaced, continued⟩ :=
        scanFrom_decimals negative whole.reverse placed pointed (power ++ rest)
      rw [List.append_assoc, List.append_assoc, scanned, continued]
      cases raised with
      | absent =>
          rw [List.nil_append, scanFrom_ended _ ends]
          · simp [NumberState.literal]
          · rcases nextPlaced with rfl | rfl | rfl <;> rfl
      | @present down digits mark written marked some_digit spelled =>
          cases spelled with
          | nil => contradiction
          | cons first others =>
              rw [List.append_assoc, List.cons_append, scanFrom_mark nextPlaced marked first,
                scanFrom_exponent others, scanFrom_ended rfl ends]
              simp [NumberState.literal]

end Numbers

/-! ## Tokens -/

section Tokens

/-- The token of a number. -/
def IsNumber : Token → Prop
  | .number _ => True
  | _ => False

/-- No number stands directly behind a number. -/
def Separated (tokens : List Token) : Prop :=
  tokens.IsChain fun token next => token.IsNumber → ¬ next.IsNumber

theorem separated_cons (no_number : ¬ token.IsNumber) :
    Separated (token :: tokens) ↔ Separated tokens := by
  rw [Separated, List.isChain_cons]
  exact and_iff_right fun _ _ is_number => absurd is_number no_number

theorem begin_blank (blank : isBlank c) : begin c = ([], .between) := if_pos blank

theorem endsNumber_cons {c : Char} (written : List Char)
    (stops : Decimal.digit? c = none ∧ c ≠ '.' ∧ c ≠ 'e' ∧ c ≠ 'E') : EndsNumber (c :: written) := by
  intro first same
  cases same
  exact stops

theorem endsNumber_of_spells (spells : Spells tokens rest)
    (no_number : ∀ token ∈ tokens.head?, ¬ token.IsNumber) : EndsNumber rest := by
  cases spells with
  | nil => exact nofun
  | @blank _ c rest blank _ =>
      apply endsNumber_cons
      simp only [isBlank, Bool.or_eq_true, decide_eq_true_eq] at blank
      rcases blank with ((rfl | rfl) | rfl) | rfl <;> decide
  | token lexeme _ =>
      cases lexeme with
      | number => exact absurd trivial (no_number _ rfl)
      | _ => exact endsNumber_cons _ (by decide)

theorem scanFrom_lexeme (lexeme : Lexeme token written)
    (ends : token.IsNumber → EndsNumber rest) :
    scanFrom .between (written ++ rest) = token :: scanFrom .between rest := by
  cases lexeme with
  | number spelled => exact scanFrom_number spelled (ends trivial)
  | @string pieces parts spelled =>
      have scanned := @scanFrom_pieces (.ok []) none pieces parts spelled nofun rest
      rw [held, remaining_ok_nil] at scanned
      rw [List.cons_append, List.cons_append, List.append_assoc, List.singleton_append]
      exact scanned
  | _ => rfl

/-- The scanner finds the tokens that a text spells. -/
theorem scanFrom_of_spells (spells : Spells tokens written) (separated : Separated tokens) :
    scanFrom .between written = tokens := by
  induction spells with
  | nil => rfl
  | blank blank _ ih =>
      rw [scanFrom_cons, step, begin_blank blank]
      exact ih separated
  | token lexeme spells ih =>
      obtain ⟨first, others⟩ := List.isChain_cons.mp separated
      rw [scanFrom_lexeme lexeme, ih others]
      intro is_number
      exact endsNumber_of_spells spells fun next member => first next member is_number

end Tokens

end SceneForge.Json.Token
