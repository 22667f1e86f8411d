import SceneForge.Power
import SceneForge.Text.Visible

/-!
# Quoted text and hexadecimal digits

Two ways of putting a text into a message: the quoted form in which every
character that cannot be seen is spelled by its code point, and fixed-width
hexadecimal numbers.
-/

namespace SceneForge.Text

/-- The last `width` hexadecimal digits of a number, in lower case. -/
def hex (width n : Nat) : String :=
  let digits := Nat.toDigits 16 (n % 16 ^ width)
  String.ofList (List.replicate (width - digits.length) '0' ++ digits)

/-- A character as it stands in a quoted text. -/
def quotedChar (c : Char) : List Char :=
  match c with
  | '\x00' => ['\\', '0']
  | '\t' => ['\\', 't']
  | '\r' => ['\\', 'r']
  | '\n' => ['\\', 'n']
  | '\\' => ['\\', '\\']
  | '\"' => ['\\', '\"']
  | c =>
      if isVisible c then [c]
      else '\\' :: 'u' :: '\x7b' :: (Nat.toDigits 16 c.toNat ++ ['\x7d'])

/-- A text between quotes, with every character that could be misread escaped. -/
def quoted (text : String) : String :=
  String.ofList ('\"' :: (text.toList.flatMap quotedChar ++ ['\"']))

end SceneForge.Text
