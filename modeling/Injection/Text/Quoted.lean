/-
  Quoted texts: a text between double quotes, on one line, in which only
  characters that stand for themselves on a screen are written as they are.
-/
import Injection.Text.Combining
import Injection.Text.Printable

namespace Injection.Text

/-- A number in base sixteen, in lower case, without leading zeros. -/
def hexadecimal (n : Nat) : String := String.ofList (Nat.toDigits 16 n)

/-- How a character is written between double quotes: the usual short escapes, its code point in
    braces if it would not show as a character of its own, itself otherwise. -/
def quotedChar (c : Char) : String :=
  match c with
  | '\x00' => "\\0"
  | '\t' => "\\t"
  | '\r' => "\\r"
  | '\n' => "\\n"
  | '"' => "\\\""
  | '\\' => "\\\\"
  | c =>
    if isCombining c || !isPrintable c then "\\u\x7b" ++ hexadecimal c.toNat ++ "\x7d"
    else c.toString

def quoted (s : String) : String := "\"" ++ String.join (s.toList.map quotedChar) ++ "\""

end Injection.Text
