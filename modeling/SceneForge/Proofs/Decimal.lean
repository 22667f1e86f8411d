import SceneForge.Decimal.Reading
import SceneForge.Proofs.Binary.Arithmetic
import SceneForge.Proofs.Json.Lexical

/-!
# Integers in decimal

How integers are written in decimal, and that reading such a spelling rounds the integer once,
however many digits there are.
-/

namespace SceneForge.Decimal

open Binary Json.Token

variable {c : Char} {digit : Nat} {digits : List Nat} {written : List Char}

/-- How an integer is written: at least one digit, with or without a sign in front. -/
inductive SpellsInteger : ℤ → List Char → Prop
  | unsigned {digits : List Nat} {written : List Char} (some_digit : digits ≠ [])
      (spelled : Digits digit? digits written) : SpellsInteger (ofDigits digits) written
  | plus {digits : List Nat} {written : List Char} (some_digit : digits ≠ [])
      (spelled : Digits digit? digits written) : SpellsInteger (ofDigits digits) ('+' :: written)
  | minus {digits : List Nat} {written : List Char} (some_digit : digits ≠ [])
      (spelled : Digits digit? digits written) : SpellsInteger (-ofDigits digits) ('-' :: written)

section Digits

theorem digit?_of_isDigit (isDigit : c.isDigit) : digit? c = some (c.toNat - '0'.toNat) := by
  rw [Char.isDigit, Bool.and_eq_true, decide_eq_true_eq, decide_eq_true_eq] at isDigit
  exact if_pos isDigit

theorem isDigit_of_digit? (read : digit? c = some digit) : c.isDigit := by
  rw [digit?] at read
  split at read
  next range =>
    rw [Char.isDigit, Bool.and_eq_true, decide_eq_true_eq, decide_eq_true_eq]
    exact range
  next => cases read

/-- A digit has no upper case. -/
theorem toLower_of_isDigit (isDigit : c.isDigit) : c.toLower = c := by
  rw [Char.isDigit, Bool.and_eq_true, decide_eq_true_eq, decide_eq_true_eq] at isDigit
  have range : c.val ≤ '9'.val := isDigit.2
  refine dif_neg ?_
  rintro ⟨upper, -⟩
  exact absurd (UInt32.le_trans upper range) (by decide)

theorem takeDigits_of_digits (spelled : Digits digit? digits written) :
    takeDigits written = (digits, []) := by
  induction spelled with
  | nil => rfl
  | cons read _ ih => simp only [takeDigits, read, ih]

theorem ofText?_of_digits (some_digit : digits ≠ []) (spelled : Digits digit? digits written) :
    ofText? written = some ⟨ofDigits digits, 0⟩ := by
  have nonempty : digits.isEmpty = false := List.isEmpty_eq_false_iff.mpr some_digit
  simp [ofText?, takeDigits_of_digits spelled, nonempty, exponentPart?]

/-- The digits of a natural number spell it. -/
theorem exists_digits_toDigits (n : Nat) :
    ∃ digits, Digits digit? digits (Nat.toDigits 10 n) ∧ digits ≠ [] ∧ ofDigits digits = n := by
  refine ⟨(Nat.toDigits 10 n).map (·.toNat - '0'.toNat), ?_, by simp, ?_⟩
  · rw [Digits, List.forall₂_map_left_iff, List.forall₂_same]
    exact fun c member =>
      digit?_of_isDigit (Nat.isDigit_of_mem_toDigits (by decide) (by decide) member)
  · rw [ofDigits, List.foldl_map, ← Nat.ofDigitChars_eq_foldl, Nat.ofDigitChars_ten_toDigits]

/-- Every integer has a spelling: the one in which it is printed. -/
theorem spellsInteger_toString (n : ℤ) : SpellsInteger n (toString n).toList := by
  cases n with
  | ofNat n =>
      obtain ⟨digits, spelled, some_digit, same⟩ := exists_digits_toDigits n
      have printed : (toString (Int.ofNat n)).toList = Nat.toDigits 10 n := by
        change (Nat.repr n).toList = _
        rw [Nat.repr_eq_ofList_toDigits, String.toList_ofList]
      have spells := SpellsInteger.unsigned some_digit spelled
      rwa [same, ← printed] at spells
  | negSucc n =>
      obtain ⟨digits, spelled, some_digit, same⟩ := exists_digits_toDigits (n + 1)
      have printed : (toString (Int.negSucc n)).toList = '-' :: Nat.toDigits 10 (n + 1) := by
        change ("-" ++ Nat.repr (n + 1)).toList = _
        rw [String.toList_append, Nat.repr_eq_ofList_toDigits]
        simp
      have spells := SpellsInteger.minus some_digit spelled
      rwa [same, ← printed] at spells

end Digits

section Rounding

/-- A whole number is rounded like any other quotient: where its digits alone decide, it is
beyond the range. -/
theorem toDouble_natural (negative : Bool) (n : Nat) :
    toDouble negative ⟨n, 0⟩ =
      .ofPattern ⟨negative, Format.double.roundCode (n * 2 ^ Format.double.unitExponent) 1⟩ := by
  have leading : leadingExponent ⟨n, 0⟩ = (Nat.toDigits 10 n).length - 1 := by
    simp [leadingExponent, Decimal.digits]
  rw [toDouble]
  dsimp only
  congr 2
  split_ifs with small large
  · have zero : n = 0 := small.resolve_right (by omega)
    rw [zero, Nat.zero_mul]
    exact (Nat.le_zero.mp (Format.roundCode_le Nat.one_pos (Nat.zero_le _))).symm
  · have long : 10 ^ 401 ≤ n := by
      have digits := Nat.length_toDigits_le_iff (b := 10) (n := n) (k := 401) (by decide) (by decide)
      omega
    refine (le_antisymm (Format.roundCode_le_infinityCode ..) (Nat.not_lt.mp fun finite => ?_)).symm
    rw [Format.roundCode_lt_infinityCode_iff (by decide) Nat.one_pos] at finite
    have limit : Format.double.units (Format.double.infinityCode - 1) +
        Format.double.units Format.double.infinityCode ≤
          2 * (10 ^ 401 * 2 ^ Format.double.unitExponent) := by
      decide +kernel
    have scaled := Nat.mul_le_mul_right (2 ^ Format.double.unitExponent) long
    omega
  · simp

/-- Reading the digits of a number rounds it. -/
theorem rounds_toDouble_natural (negative : Bool) (n : Nat) :
    (toDouble negative ⟨n, 0⟩).pattern.Rounds .double (Pattern.factor negative * n) := by
  rw [toDouble_natural]
  have rounds := Double.rounds_ofPattern
    (Pattern.rounds_roundCode .double negative (n * 2 ^ Format.double.unitExponent) Nat.one_pos)
  have exact : ((n * 2 ^ Format.double.unitExponent : ℕ) : ℚ) / (1 : ℕ) /
      2 ^ Format.double.unitExponent = n := by
    push_cast
    field_simp
  rwa [exact] at rounds

end Rounding

/-- Digits do not spell an infinity or what is not a number. -/
theorem ofList_toLower_ne (some_digit : digits ≠ []) (spelled : Digits digit? digits written)
    {letter : Char} (noDigit : letter.isDigit = false) (letters : List Char) :
    String.ofList (written.map Char.toLower) ≠ String.ofList (letter :: letters) := by
  intro same
  cases spelled with
  | nil => exact some_digit rfl
  | cons read _ =>
      have isDigit := isDigit_of_digit? read
      rw [String.ofList_inj, List.map_cons, List.cons.injEq, toLower_of_isDigit isDigit] at same
      rw [same.1, noDigit] at isDigit
      cases isDigit

/-- Reading the spelling of an integer rounds the integer. -/
theorem SpellsInteger.exists_double? {n : ℤ} (spells : SpellsInteger n written) :
    ∃ x, double? (String.ofList written) = some x ∧ x.pattern.Rounds .double n := by
  -- Behind the sign there are digits alone, so that no word is meant.
  have magnitude {digits : List Nat} {written : List Char} (negative : Bool)
      (some_digit : digits ≠ []) (spelled : Digits digit? digits written) :
      (if String.ofList (written.map Char.toLower) = "inf" ∨
          String.ofList (written.map Char.toLower) = "infinity" then
          some (.ofPattern ⟨negative, Format.double.infinityCode⟩)
        else if String.ofList (written.map Char.toLower) = "nan" then
          some (.ofPattern (.notANumber .double))
        else (ofText? written).map (toDouble negative)) =
      some (toDouble negative ⟨ofDigits digits, 0⟩) := by
    have notInf := ofList_toLower_ne some_digit spelled (show 'i'.isDigit = false by decide)
    have notNaN := ofList_toLower_ne some_digit spelled (show 'n'.isDigit = false by decide)
    rw [if_neg (not_or.mpr ⟨notInf ['n', 'f'], notInf ['n', 'f', 'i', 'n', 'i', 't', 'y']⟩),
      if_neg (notNaN ['a', 'n']), ofText?_of_digits some_digit spelled, Option.map_some]
  have positive (digits : List Nat) := rounds_toDouble_natural false (ofDigits digits)
  have opposite (digits : List Nat) := rounds_toDouble_natural true (ofDigits digits)
  simp only [Pattern.factor_false, one_mul, Pattern.factor_true, neg_one_mul] at positive opposite
  cases spells with
  | @unsigned digits written some_digit spelled =>
      refine ⟨_, ?_, positive digits⟩
      rw [← magnitude false some_digit spelled]
      cases spelled with
      | nil => exact absurd rfl some_digit
      | @cons _ c _ rest read _ =>
          have noPlus : c ≠ '+' := by
            rintro rfl
            cases read
          have noMinus : c ≠ '-' := by
            rintro rfl
            cases read
          simp [double?, noPlus, noMinus]
  | @plus digits written some_digit spelled =>
      refine ⟨_, ?_, positive digits⟩
      rw [← magnitude false some_digit spelled]
      simp [double?]
  | @minus digits written some_digit spelled =>
      refine ⟨_, ?_, by simpa using opposite digits⟩
      rw [← magnitude true some_digit spelled]
      simp [double?]

end SceneForge.Decimal
