import SceneForge.Json.Number

/-!
# JSON tokens

A text as its sequence of tokens, up to the first place where no token can go on.
The scanner is a machine that takes one character at a time; what it holds between
two characters is a `State`. Two readings of a faulty text can differ, because
values that nobody asked for are skipped with fewer checks, so a `Fault` records
the category for both.
-/

namespace SceneForge.Json

/-- Where scanning stopped. -/
structure Fault where
  /-- The category for a reader that wants the value. -/
  whenRead : Category
  /-- The category for a reader that skips the value. -/
  whenSkipped : Category
  /-- Whether the fault is inside a string. -/
  inString : Bool
  deriving DecidableEq

namespace Fault

/-- The text ends here, inside a value. -/
def ended : Fault := ⟨.ended, .ended, false⟩

/-- The next character cannot stand here. -/
def malformed : Fault := ⟨.malformed, .malformed, false⟩

end Fault

/-- A token. The value of a number or a string is missing if its literal is
well-formed but stands for nothing. -/
inductive Token where
  | openArray
  | closeArray
  | openObject
  | closeObject
  | comma
  | colon
  | null
  | bool (value : Bool)
  | number (value : Except Category Number)
  | string (value : Except Category String)
  | fault (fault : Fault)

namespace Token

/-- How far a number literal has got. -/
inductive NumberPlace where
  | sign
  | zero
  | whole
  | point
  | fraction
  | mark
  | markSign
  | exponent
  deriving DecidableEq

/-- A number literal in progress; digits are held in reverse order. -/
structure NumberState where
  place : NumberPlace
  negative : Bool
  whole : List Nat
  fraction : List Nat
  exponentNegative : Bool
  exponent : List Nat

/-- Inside a string: which escape is being read. A surrogate escape waits for its
partner. -/
inductive Escape where
  | none
  /-- After a backslash; with the first half of a surrogate pair if there is one. -/
  | backslash (high : Option Nat)
  /-- Hexadecimal digits read so far, their number and their value. -/
  | hex (high : Option Nat) (count value : Nat)
  /-- After the first half of a surrogate pair. -/
  | high (value : Nat)
  /-- After a character that is no hexadecimal digit, with this many bytes to go
  until the escape would have been complete. -/
  | badHex (missing : Nat)
  deriving DecidableEq

/-- What the scanner holds between two characters. -/
inductive State where
  | between
  /-- Inside a word: its next character, the characters after that, and its token. -/
  | word (next : Char) (rest : List Char) (token : Token)
  | number (state : NumberState)
  /-- Inside a string: its characters in reverse order, or why it has no value. -/
  | string (characters : Except Category (List Char)) (escape : Escape)
  | stopped

/-- The value of a hexadecimal digit. -/
def hexDigit? (c : Char) : Option Nat :=
  if '0' ≤ c ∧ c ≤ '9' then some (c.toNat - '0'.toNat)
  else if 'a' ≤ c ∧ c ≤ 'f' then some (c.toNat - 'a'.toNat + 10)
  else if 'A' ≤ c ∧ c ≤ 'F' then some (c.toNat - 'A'.toNat + 10)
  else .none

/-- The blanks between tokens. -/
def isBlank (c : Char) : Bool := c = ' ' || c = '\t' || c = '\n' || c = '\r'

/-- What a character begins, between two tokens. -/
def begin (c : Char) : List Token × State :=
  if isBlank c then ([], .between)
  else match c with
    | '[' => ([.openArray], .between)
    | ']' => ([.closeArray], .between)
    | '\x7b' => ([.openObject], .between)
    | '\x7d' => ([.closeObject], .between)
    | ',' => ([.comma], .between)
    | ':' => ([.colon], .between)
    | '\"' => ([], .string (.ok []) .none)
    | 'n' => ([], .word 'u' ['l', 'l'] .null)
    | 't' => ([], .word 'r' ['u', 'e'] (.bool true))
    | 'f' => ([], .word 'a' ['l', 's', 'e'] (.bool false))
    | '-' => ([], .number ⟨.sign, true, [], [], false, []⟩)
    | '0' => ([], .number ⟨.zero, false, [0], [], false, []⟩)
    | c => match Decimal.digit? c with
        | some digit => ([], .number ⟨.whole, false, [digit], [], false, []⟩)
        | none => ([.fault .malformed], .stopped)

/-- The literal of a number in progress. -/
def NumberState.literal (state : NumberState) : Literal where
  negative := state.negative
  whole := state.whole.reverse
  fraction := state.fraction.reverse
  exponent :=
    if state.exponent.isEmpty then none else some (state.exponentNegative, state.exponent.reverse)
  pointed := !state.fraction.isEmpty

/-- Whether the literal may end at a place. -/
def NumberPlace.complete : NumberPlace → Bool
  | .zero | .whole | .fraction | .exponent => true
  | .sign | .point | .mark | .markSign => false

/-- What follows the last character of a number. -/
inductive NumberStep where
  | continued (state : NumberState)
  /-- The number is over and the character belongs to what follows. -/
  | finished
  | refused

/-- One more character of a number. -/
def NumberState.step (state : NumberState) (c : Char) : NumberStep :=
  let marked : NumberStep :=
    if c = 'e' ∨ c = 'E' then .continued { state with place := .mark } else .finished
  let pointed : NumberStep :=
    if c = '.' then .continued { state with place := .point } else marked
  match state.place, Decimal.digit? c with
  | .sign, some digit =>
      .continued { state with place := if digit = 0 then .zero else .whole, whole := [digit] }
  | .sign, none => .refused
  | .zero, some _ => .refused
  | .zero, none => pointed
  | .whole, some digit => .continued { state with whole := digit :: state.whole }
  | .whole, none => pointed
  | .point, some digit | .fraction, some digit =>
      .continued { state with place := .fraction, fraction := digit :: state.fraction }
  | .point, none => .refused
  | .fraction, none => marked
  | .mark, some digit | .markSign, some digit | .exponent, some digit =>
      .continued { state with place := .exponent, exponent := digit :: state.exponent }
  | .mark, none =>
      if c = '+' then .continued { state with place := .markSign }
      else if c = '-' then
        .continued { state with place := .markSign, exponentNegative := true }
      else .refused
  | .markSign, none => .refused
  | .exponent, none => .finished

/-- Appends a character to a string in progress. -/
def append (characters : Except Category (List Char)) (c : Char) :
    Except Category (List Char) :=
  characters.map (c :: ·)

/-- Marks a string in progress as without value, unless it is already. -/
def spoil (characters : Except Category (List Char)) : Except Category (List Char) :=
  characters.bind fun _ => .error .malformed

/-- The fault of a string in progress; skipping reports `category`, reading an
earlier problem first. -/
def stringFault (characters : Except Category (List Char)) (category : Category) : Fault where
  whenRead := match characters with
    | .ok _ => category
    | .error earlier => earlier
  whenSkipped := category
  inString := true

/-- A character of a string outside any escape. -/
def plainStep (characters : Except Category (List Char)) (c : Char) : List Token × State :=
  if c = '\"' then ([.string (characters.map fun cs => String.ofList cs.reverse)], .between)
  else if c = '\\' then ([], .string characters (.backslash none))
  else if c.toNat < 0x20 then ([.fault (stringFault characters .malformed)], .stopped)
  else ([], .string (append characters c) .none)

/-- The character that a one-letter escape stands for. -/
def escaped? : Char → Option Char
  | '\"' => some '\"'
  | '\\' => some '\\'
  | '/' => some '/'
  | 'b' => some '\x08'
  | 'f' => some '\x0c'
  | 'n' => some '\n'
  | 'r' => some '\r'
  | 't' => some '\t'
  | _ => none

/-- The end of an escape that spells the 16-bit unit `unit`. -/
def unitStep (characters : Except Category (List Char)) (high : Option Nat) (unit : Nat) :
    State :=
  let isLow := 0xdc00 ≤ unit ∧ unit ≤ 0xdfff
  let isHigh := 0xd800 ≤ unit ∧ unit ≤ 0xdbff
  match high with
  | some high =>
      if isLow then
        let code := 0x10000 + (high - 0xd800) * 0x400 + (unit - 0xdc00)
        .string (append characters (Char.ofNat code)) .none
      else .string (spoil characters) .none
  | none =>
      if isHigh then .string characters (.high unit)
      else if isLow then .string (spoil characters) .none
      else .string (append characters (Char.ofNat unit)) .none

/-- One more character of a string. -/
def stringStep (characters : Except Category (List Char)) (escape : Escape) (c : Char) :
    List Token × State :=
  match escape with
  | .none => plainStep characters c
  | .backslash high =>
      if c = 'u' then ([], .string characters (.hex high 0 0))
      else
        let characters := if high.isSome then spoil characters else characters
        match escaped? c with
        | some c => ([], .string (append characters c) .none)
        | none => ([.fault (stringFault characters .malformed)], .stopped)
  | .hex high count value =>
      match hexDigit? c with
      | some digit =>
          if count = 3 then ([], unitStep characters high (16 * value + digit))
          else ([], .string characters (.hex high (count + 1) (16 * value + digit)))
      | none =>
          if 4 - count ≤ c.utf8Size then ([.fault (stringFault characters .malformed)], .stopped)
          else ([], .string characters (.badHex (4 - count - c.utf8Size)))
  | .high value =>
      if c = '\\' then ([], .string characters (.backslash (some value)))
      else plainStep (spoil characters) c
  | .badHex missing =>
      if missing ≤ c.utf8Size then ([.fault (stringFault characters .malformed)], .stopped)
      else ([], .string characters (.badHex (missing - c.utf8Size)))

/-- One character: the tokens it completes, and the next state. -/
def step (state : State) (c : Char) : List Token × State :=
  match state with
  | .between => begin c
  | .word next rest token =>
      if c = next then
        match rest with
        | [] => ([token], .between)
        | next :: rest => ([], .word next rest token)
      else ([.fault .malformed], .stopped)
  | .number state =>
      match state.step c with
      | .continued next => ([], .number next)
      | .finished => let (tokens, next) := begin c; (.number state.literal.value :: tokens, next)
      | .refused => ([.fault .malformed], .stopped)
  | .string characters escape => stringStep characters escape c
  | .stopped => ([], .stopped)

/-- The tokens that the end of the text completes. -/
def finish : State → List Token
  | .between => []
  | .word .. => [.fault .ended]
  | .number state =>
      if state.place.complete then [.number state.literal.value]
      else [.fault ⟨.ended, .malformed, false⟩]
  | .string characters _ => [.fault (stringFault characters .ended)]
  | .stopped => []

/-- The tokens of a text from a state on. -/
def scanFrom (state : State) : List Char → List Token
  | [] => finish state
  | c :: rest =>
      let (tokens, next) := step state c
      tokens ++ scanFrom next rest

/-- The tokens of a text. -/
def scan (text : String) : List Token := scanFrom .between text.toList

end Token

end SceneForge.Json
