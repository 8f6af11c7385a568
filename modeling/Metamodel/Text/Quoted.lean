import Metamodel.Text.CharClass

/-!
String literals of generated code.

A character that can be shown stands for itself. Quotes, backslashes and the common controls have
short escapes; everything else that has no printed form of its own, combining characters included,
is given by its code point.
-/

namespace Metamodel.Text

def hexText (n : Nat) : String := String.ofList (Nat.toDigits 16 n)

/-- A character inside a string literal. -/
def literalChar (c : Char) : String :=
  if c = '\x00' then "\\0"
  else if c = '\t' then "\\t"
  else if c = '\r' then "\\r"
  else if c = '\n' then "\\n"
  else if c = '"' then "\\\""
  else if c = '\\' then "\\\\"
  else if isPrintable c && !extendsGrapheme c then c.toString
  else "\\u\x7b" ++ hexText c.toNat ++ "\x7d"

/-- A text as a string literal. -/
def literal (s : String) : String := "\"" ++ String.join (s.toList.map literalChar) ++ "\""

end Metamodel.Text
