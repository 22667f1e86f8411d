import SceneForge.Decimal.Reading
import SceneForge.Toml.Table

/-!
# Reading TOML

The grammar of TOML 1.0. A reader takes characters from the beginning of a text and
fails without a reason, because only whether a text is accepted matters. Containers
may be nested 79 deep, and a key may have 79 parts.
-/

namespace SceneForge.Toml

/-- A reader of `α`. -/
abbrev Scanner (α : Type) := StateT (List Char) Option α

namespace Scanner

variable {α : Type}

/-- The next character, which is not taken. -/
def peek : Scanner (Option Char) := return (← get).head?

/-- Takes a character that satisfies a condition. -/
def satisfy (condition : Char → Bool) : Scanner Char := fun text =>
  match text with
  | c :: rest => if condition c then some (c, rest) else none
  | [] => none

/-- Takes a given character. -/
def char (c : Char) : Scanner Unit := do let _ ← satisfy (· == c)

/-- Takes given characters. -/
def chars : (expected : List Char) → Scanner Unit
  | [] => return ()
  | c :: rest => do
      char c
      chars rest

/-- Takes characters as long as they satisfy a condition. -/
def takeWhile (condition : Char → Bool) : Scanner (List Char) := fun text =>
  some (text.takeWhile condition, text.dropWhile condition)

/-- Takes characters, at least one, as long as they satisfy a condition. -/
def takeSome (condition : Char → Bool) : Scanner (List Char) := do
  let first ← satisfy condition
  return first :: (← Scanner.takeWhile condition)

/-- Reads what satisfies the reader as often as it takes anything. -/
def manyFrom (scanner : Scanner α) (text : List Char) : List α × List Char :=
  match scanner text with
  | none => ([], text)
  | some (value, rest) =>
      if _shorter : rest.length < text.length then
        let (values, remaining) := manyFrom scanner rest
        (value :: values, remaining)
      else ([], text)
termination_by text.length

/-- Reads repeatedly. -/
def many (scanner : Scanner α) : Scanner (List α) := fun text => some (manyFrom scanner text)

/-- Reads repeatedly, with a separator in between. A separator that nothing follows
is left. -/
def separated (scanner : Scanner α) (separator : Char) : Scanner (List α) := do
  match ← optional scanner with
  | none => return []
  | some first =>
      return first :: (← many do
        char separator
        scanner)

/-- Requires the end of the text. -/
def finish : Scanner Unit := do if (← get).isEmpty then return () else failure

end Scanner

open Scanner

/-- Whether a character may stand in a comment. -/
def isPrintable (c : Char) : Bool := c == '\t' || (' ' ≤ c && c != '\x7f')

/-- Whether a character is a blank. -/
def isBlank (c : Char) : Bool := c == ' ' || c == '\t'

/-- Blanks. -/
def blanks : Scanner Unit := do let _ ← takeWhile isBlank

/-- The end of a line. -/
def newline : Scanner Unit := chars ['\n'] <|> chars ['\r', '\n']

/-- A comment, up to the end of its line. -/
def comment : Scanner Unit := do
  char '#'
  let _ ← takeWhile isPrintable

/-- What may follow on a line: blanks, a comment, and its end. -/
def lineEnd : Scanner Unit := do
  blanks
  let _ ← optional comment
  newline <|> finish

/-- Blanks, ends of lines and comments. -/
def gap : Scanner Unit := do
  let blank : Scanner Unit := do let _ ← takeSome isBlank
  let _ ← many (blank <|> newline <|> comment)

/-! ## Strings -/

/-- The value of a hexadecimal digit. -/
def hexDigit? (c : Char) : Option Nat :=
  if '0' ≤ c ∧ c ≤ '9' then some (c.toNat - '0'.toNat)
  else if 'a' ≤ c ∧ c ≤ 'f' then some (c.toNat - 'a'.toNat + 10)
  else if 'A' ≤ c ∧ c ≤ 'F' then some (c.toNat - 'A'.toNat + 10)
  else none

/-- A character given by so many hexadecimal digits. -/
def codePoint (width : Nat) : Scanner Char := do
  let digits ← (List.replicate width ()).mapM fun _ => satisfy fun c => (hexDigit? c).isSome
  let n := (digits.filterMap hexDigit?).foldl (fun n d => 16 * n + d) 0
  if n.isValidChar then return Char.ofNat n else failure

/-- An escaped character. -/
def escaped : Scanner Char := do
  char '\\'
  match ← satisfy fun _ => true with
  | 'b' => return '\x08'
  | 't' => return '\t'
  | 'n' => return '\n'
  | 'f' => return '\x0c'
  | 'r' => return '\r'
  | '\"' => return '\"'
  | '\\' => return '\\'
  | 'u' => codePoint 4
  | 'U' => codePoint 8
  | _ => failure

/-- Whether a character stands for itself between quotes. -/
def isPlain (quote : Char) (c : Char) : Bool :=
  isPrintable c && c != quote && (quote == '\'' || c != '\\')

/-- A character between quotes; between apostrophes nothing is escaped. -/
def quotedChar (quote : Char) : Scanner Char :=
  satisfy (isPlain quote) <|> (if quote == '\'' then failure else escaped)

/-- A string on one line. -/
def shortString (quote : Char) : Scanner String := do
  char quote
  let content ← many (quotedChar quote)
  char quote
  return String.ofList content

/-- A backslash at the end of a line, with all white space that follows. -/
def lineJoin : Scanner Unit := do
  char '\\'
  blanks
  newline
  let blank : Scanner Unit := do let _ ← takeSome isBlank
  let _ ← many (blank <|> newline)

/-- A piece of a string of several lines: a character, the end of a line, or a joined
line. -/
def longPiece (quote : Char) : Scanner (List Char) :=
  (if quote == '\'' then failure else do
    lineJoin
    return []) <|>
  (do
    newline
    return ['\n']) <|>
  (do return [← quotedChar quote])

/-- One or two quotes that do not end a string of several lines. -/
def innerQuotes (quote : Char) : Scanner (List Char) := do
  let quotes ← takeSome (· == quote)
  if quotes.length ≤ 2 then return quotes else failure

/-- A string of several lines. It may end in up to two quotes of its own. -/
def longString (quote : Char) : Scanner String := do
  chars [quote, quote, quote]
  let _ ← optional newline
  let content ← many (longPiece quote <|> innerQuotes quote)
  let quotes ← takeSome (· == quote)
  if quotes.length < 3 ∨ 5 < quotes.length then failure
  return String.ofList (content.flatten ++ quotes.drop 3)

/-- A string of any form. -/
def string : Scanner String :=
  longString '\"' <|> longString '\'' <|> shortString '\"' <|> shortString '\''

/-! ## Numbers and dates -/

/-- Digits, between which single underscores may stand. -/
def digits (isDigit : Char → Bool) : Scanner (List Char) := do
  let first ← satisfy isDigit
  let others ← many do
    let _ ← optional (char '_')
    satisfy isDigit
  match ← peek with
  | some '_' => failure
  | _ => return first :: others

/-- A sign, if there is one. -/
def sign : Scanner (List Char) := do
  return (← optional (satisfy fun c => c == '+' || c == '-')).toList

/-- A decimal integer: a zero, or digits of which the first is not zero. -/
def decimal : Scanner (List Char) := do
  let sign ← sign
  match ← peek with
  | some '0' =>
      char '0'
      return sign ++ ['0']
  | _ => return sign ++ (← digits Char.isDigit)

/-- An exponent. -/
def exponent : Scanner (List Char) := do
  let mark ← satisfy fun c => c == 'e' || c == 'E'
  let sign ← sign
  return mark :: (sign ++ (← digits Char.isDigit))

/-- A fraction. -/
def fraction : Scanner (List Char) := do
  char '.'
  return '.' :: (← digits Char.isDigit)

/-- A number with a fraction or an exponent, or one of the words for what is no
finite number. A number too great to be finite is refused. -/
def real : Scanner String :=
  (do
    let whole ← decimal
    let fraction ← optional fraction
    let exponent ← optional exponent
    if fraction.isNone && exponent.isNone then failure
    let spelling := String.ofList (whole ++ fraction.getD [] ++ exponent.getD [])
    if Decimal.double? spelling = Decimal.double? "inf" then failure
    return spelling) <|>
  (do
    let sign ← sign
    chars ['i', 'n', 'f']
    return String.ofList (sign ++ ['i', 'n', 'f'])) <|>
  (do
    let sign ← sign
    chars ['n', 'a', 'n']
    return String.ofList (sign ++ ['n', 'a', 'n']))

/-- The number that digits of a base spell. -/
def ofDigits (base : Nat) (digits : List Char) : Nat :=
  (digits.filterMap hexDigit?).foldl (fun n d => base * n + d) 0

/-- A natural number behind the mark of its base. -/
def based (mark : Char) (base : Nat) : Scanner Int := do
  chars ['0', mark]
  return ofDigits base (← digits fun c => (hexDigit? c).any (· < base))

/-- An integer of 64 bits. -/
def integer : Scanner Int := do
  let value ← based 'x' 16 <|> based 'o' 8 <|> based 'b' 2 <|> (do
    let spelling ← decimal
    let magnitude : Int := ofDigits 10 spelling
    return if spelling.head? = some '-' then -magnitude else magnitude)
  if -2 ^ 63 ≤ value ∧ value < 2 ^ 63 then return value else failure

/-- A number of exactly so many digits within bounds. -/
def field (width least greatest : Nat) : Scanner (Nat × List Char) := do
  let digits ← (List.replicate width ()).mapM fun _ => satisfy Char.isDigit
  let value := ofDigits 10 digits
  if least ≤ value ∧ value ≤ greatest then return (value, digits) else failure

/-- How many days a month has. -/
def monthLength (year month : Nat) : Nat :=
  if month = 2 then if year % 4 = 0 ∧ (year % 100 ≠ 0 ∨ year % 400 = 0) then 29 else 28
  else if month = 4 ∨ month = 6 ∨ month = 9 ∨ month = 11 then 30
  else 31

/-- A day. -/
def day : Scanner (List Char) := do
  let (year, yearDigits) ← field 4 0 9999
  char '-'
  let (month, monthDigits) ← field 2 1 12
  char '-'
  let (_, dayDigits) ← field 2 1 (monthLength year month)
  return yearDigits ++ '-' :: monthDigits ++ '-' :: dayDigits

/-- A time of day. -/
def time : Scanner (List Char) := do
  let (_, hours) ← field 2 0 23
  char ':'
  let (_, minutes) ← field 2 0 59
  char ':'
  let (_, seconds) ← field 2 0 60
  let fraction ← optional do
    char '.'
    takeSome Char.isDigit
  return hours ++ ':' :: minutes ++ ':' :: seconds ++
    (fraction.map ('.' :: ·)).getD []

/-- A distance from universal time. -/
def offset : Scanner (List Char) :=
  (do return [← satisfy fun c => c == 'Z' || c == 'z']) <|>
  (do
    let sign ← satisfy fun c => c == '+' || c == '-'
    let (_, hours) ← field 2 0 23
    char ':'
    let (_, minutes) ← field 2 0 59
    return sign :: hours ++ ':' :: minutes)

/-- A date, a time, or both. -/
def date : Scanner String :=
  (do
    let day ← day
    let time ← optional do
      let mark ← satisfy fun c => c == 'T' || c == 't' || c == ' '
      let time ← time
      return mark :: time ++ (← optional offset).getD []
    return String.ofList (day ++ time.getD [])) <|>
  (String.ofList <$> time)

/-- A truth value. -/
def boolean : Scanner Bool :=
  (do
    chars ['t', 'r', 'u', 'e']
    return true) <|>
  (do
    chars ['f', 'a', 'l', 's', 'e']
    return false)

/-! ## Keys, values and sections -/

/-- Whether a character may stand in a key without quotes. -/
def isBare (c : Char) : Bool := c.isAlphanum || c == '_' || c == '-'

/-- How deep containers may be nested, and how many parts a key may have. -/
def depthLimit : Nat := 79

/-- A key: the path and the last part. -/
def key : Scanner (List String × String) := do
  let part : Scanner String := do
    blanks
    let name ← shortString '\"' <|> shortString '\'' <|> (String.ofList <$> takeSome isBare)
    blanks
    return name
  let parts ← separated part '.'
  match parts.reverse with
  | [] => failure
  | last :: before => if parts.length ≤ depthLimit then return (before.reverse, last) else failure

/-- A key and its value. -/
def line (value : Scanner Value) : Scanner Line := do
  let (path, key) ← key
  char '='
  blanks
  return ⟨path, key, ← value⟩

/-- An array of values. -/
def array (value : Scanner Value) : Scanner Value := do
  char '['
  let elements ← separated
    (do
      gap
      let element ← value
      gap
      return element) ','
  if !elements.isEmpty then
    let _ ← optional (char ',')
  gap
  char ']'
  return .array elements

/-- A table in braces. -/
def inlineTable (value : Scanner Value) : Scanner Value := do
  char '\x7b'
  let lines ← separated
    (do
      let line ← line value
      blanks
      return line) ','
  blanks
  char '\x7d'
  match Members.ofLines lines with
  | some members => return .table .inline members
  | none => failure

/-- A value that holds at most `depth` nested containers. -/
def value : (depth : Nat) → Scanner Value
  | 0 => scalar
  | depth + 1 => array (value depth) <|> inlineTable (value depth) <|> scalar
where
  /-- A value that is no container. -/
  scalar : Scanner Value :=
    (.string <$> string) <|> (.boolean <$> boolean) <|> (.date <$> date) <|>
      (.real <$> real) <|> (.integer <$> integer)

/-- Lines that hold nothing. -/
def emptyLines : Scanner Unit := do
  let remark : Scanner Unit := do
    comment
    newline <|> finish
  let blank : Scanner Unit := do let _ ← takeSome isBlank
  let _ ← many (blank <|> newline <|> remark)

/-- A line of a section. -/
def sectionLine : Scanner Line := do
  let line ← line (value depthLimit)
  lineEnd
  emptyLines
  return line

/-- The header of a section: path, last part, and whether it may be repeated. -/
def header : Scanner (List String × String × Bool) := do
  let found ←
    (do
      chars ['[', '[']
      let (path, last) ← key
      chars [']', ']']
      return (path, last, true)) <|>
    (do
      char '['
      let (path, last) ← key
      char ']'
      return (path, last, false))
  lineEnd
  emptyLines
  return found

/-- A section. -/
def tableSection : Scanner Section := do
  let (path, key, repeated) ← header
  return ⟨path, key, repeated, ← many sectionLine⟩

/-- A whole text. -/
def document : Scanner Members := do
  let _ ← optional (char '\ufeff')
  emptyLines
  let lines ← many sectionLine
  let sections ← many tableSection
  finish
  match Members.ofSections lines sections with
  | some members => return members
  | none => failure

/-- The table that a text describes. -/
def read? (text : String) : Option Members := (document.run text.toList).map (·.1)

end SceneForge.Toml
