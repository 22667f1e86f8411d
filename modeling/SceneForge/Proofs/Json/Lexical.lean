import Mathlib.Data.List.Forall2
import SceneForge.Json.Token

/-!
# The lexical grammar of JSON

How tokens are written. The grammar is that of RFC 8259: a relation between a token and its
characters for every kind of token, and blanks between tokens. It does not mention the
scanner. A token carries what its literal stands for, so that the relation says this, too: a
number is the value of its literal, and a string is what its pieces spell, surrogate pairs
being one character. A literal may be well-formed and stand for nothing.
-/

namespace SceneForge.Json.Token

/-- Digits, as `read` understands them, and the characters that they are written as. -/
def Digits (read : Char → Option Nat) (digits : List Nat) (written : List Char) : Prop :=
  List.Forall₂ (fun digit c => read c = some digit) digits written

/-- The sign of a number. There is none for a plus. -/
inductive SpellsSign : (negative : Bool) → List Char → Prop
  | plus : SpellsSign false []
  | minus : SpellsSign true ['-']

/-- The whole part of a number: no digit stands behind a leading zero. -/
inductive SpellsWhole : (digits : List Nat) → List Char → Prop
  | zero : SpellsWhole [0] ['0']
  | positive {digit : Nat} {c : Char} {digits : List Nat} {written : List Char}
      (first : Decimal.digit? c = some digit) (positive : digit ≠ 0)
      (others : Digits Decimal.digit? digits written) :
      SpellsWhole (digit :: digits) (c :: written)

/-- The fraction part of a number, which may be absent. -/
inductive SpellsFraction : (digits : List Nat) → List Char → Prop
  | absent : SpellsFraction [] []
  | present {digits : List Nat} {written : List Char} (some_digit : digits ≠ [])
      (spelled : Digits Decimal.digit? digits written) :
      SpellsFraction digits ('.' :: written)

/-- The mark of an exponent with its sign, which may be a plus. -/
inductive SpellsMark : (negative : Bool) → List Char → Prop
  | unsigned {mark : Char} (marks : mark = 'e' ∨ mark = 'E') : SpellsMark false [mark]
  | plus {mark : Char} (marks : mark = 'e' ∨ mark = 'E') : SpellsMark false [mark, '+']
  | minus {mark : Char} (marks : mark = 'e' ∨ mark = 'E') : SpellsMark true [mark, '-']

/-- The exponent of a number, which may be absent. -/
inductive SpellsExponent : (exponent : Option (Bool × List Nat)) → List Char → Prop
  | absent : SpellsExponent none []
  | present {negative : Bool} {digits : List Nat} {mark written : List Char}
      (marked : SpellsMark negative mark) (some_digit : digits ≠ [])
      (spelled : Digits Decimal.digit? digits written) :
      SpellsExponent (some (negative, digits)) (mark ++ written)

/-- A number. -/
inductive SpellsNumber : Literal → List Char → Prop
  | intro {negative : Bool} {whole fraction : List Nat} {exponent : Option (Bool × List Nat)}
      {sign integer decimals power : List Char}
      (signed : SpellsSign negative sign) (counted : SpellsWhole whole integer)
      (pointed : SpellsFraction fraction decimals) (raised : SpellsExponent exponent power) :
      SpellsNumber ⟨negative, whole, fraction, exponent, !fraction.isEmpty⟩
        (sign ++ integer ++ decimals ++ power)

/-- A piece of a string: a character, or a 16-bit unit that is given by its number. -/
inductive Piece where
  | character (c : Char)
  | unit (value : Nat)

/-- The pieces of a string: a character by itself, unless it is a quote, a backslash or a
control character, a character behind a backslash, or four hexadecimal digits. -/
inductive SpellsPiece : Piece → List Char → Prop
  | plain {c : Char} (no_quote : c ≠ '\"') (no_backslash : c ≠ '\\') (printed : 0x20 ≤ c.toNat) :
      SpellsPiece (.character c) [c]
  | escape {letter c : Char} (escapes : escaped? letter = some c) :
      SpellsPiece (.character c) ['\\', letter]
  | unit {digits : List Nat} {written : List Char} (spelled : Digits hexDigit? digits written)
      (four : digits.length = 4) :
      SpellsPiece (.unit (digits.foldl (16 * · + ·) 0)) ('\\' :: 'u' :: written)

/-- The first half of a surrogate pair. -/
def IsHigh (unit : Nat) : Prop := 0xd800 ≤ unit ∧ unit ≤ 0xdbff

/-- The second half of a surrogate pair. -/
def IsLow (unit : Nat) : Prop := 0xdc00 ≤ unit ∧ unit ≤ 0xdfff

instance : DecidablePred IsHigh := fun unit =>
  inferInstanceAs (Decidable (0xd800 ≤ unit ∧ unit ≤ 0xdbff))

instance : DecidablePred IsLow := fun unit =>
  inferInstanceAs (Decidable (0xdc00 ≤ unit ∧ unit ≤ 0xdfff))

/-- The character of a surrogate pair. -/
def paired (high low : Nat) : Char :=
  Char.ofNat (0x10000 + (high - 0xd800) * 0x400 + (low - 0xdc00))

/-- The characters that the pieces of a string stand for. Half a surrogate pair stands for
nothing. -/
def decode : List Piece → Except Category (List Char)
  | [] => .ok []
  | .character c :: rest => append (decode rest) c
  | .unit unit :: rest =>
      if IsHigh unit then
        match rest with
        | .unit low :: rest =>
            if IsLow low then append (decode rest) (paired unit low) else .error .malformed
        | _ => .error .malformed
      else if IsLow unit then .error .malformed
      else append (decode rest) (Char.ofNat unit)

/-- The characters of a token. -/
inductive Lexeme : Token → List Char → Prop
  | openArray : Lexeme .openArray ['[']
  | closeArray : Lexeme .closeArray [']']
  | openObject : Lexeme .openObject ['\x7b']
  | closeObject : Lexeme .closeObject ['\x7d']
  | comma : Lexeme .comma [',']
  | colon : Lexeme .colon [':']
  | null : Lexeme .null ['n', 'u', 'l', 'l']
  | true : Lexeme (.bool true) ['t', 'r', 'u', 'e']
  | false : Lexeme (.bool false) ['f', 'a', 'l', 's', 'e']
  | number {literal : Literal} {written : List Char} (spelled : SpellsNumber literal written) :
      Lexeme (.number literal.value) written
  | string {pieces : List Piece} {parts : List (List Char)}
      (spelled : List.Forall₂ SpellsPiece pieces parts) :
      Lexeme (.string ((decode pieces).map String.ofList)) ('\"' :: parts.flatten ++ ['\"'])

/-- A text as a sequence of tokens, with any blanks around them. -/
inductive Spells : List Token → List Char → Prop
  | nil : Spells [] []
  | blank {tokens : List Token} {c : Char} {rest : List Char} (blank : isBlank c)
      (spells : Spells tokens rest) : Spells tokens (c :: rest)
  | token {token : Token} {tokens : List Token} {written rest : List Char}
      (lexeme : Lexeme token written) (spells : Spells tokens rest) :
      Spells (token :: tokens) (written ++ rest)

namespace Spells

variable {tokens others : List Token} {token : Token} {written rest : List Char}

theorem append (first : Spells tokens written) (second : Spells others rest) :
    Spells (tokens ++ others) (written ++ rest) := by
  induction first with
  | nil => exact second
  | blank blank _ ih => exact .blank blank ih
  | token lexeme _ ih =>
      rw [List.cons_append, List.append_assoc]
      exact .token lexeme ih

theorem single (lexeme : Lexeme token written) : Spells [token] written := by
  have spells := Spells.token lexeme .nil
  rwa [List.append_nil] at spells

end Spells

end SceneForge.Json.Token
