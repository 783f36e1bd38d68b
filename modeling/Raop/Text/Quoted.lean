/-
# Quoted text in diagnostics

A text in a message stands in double quotes. A quote, a backslash and the
control characters with a short name are written with a backslash, any other
character without a visible form as its code point in braces, the rest as
itself.

Key definitions: `quote`.
-/
import Raop.Text.Printable
import Raop.Text.Numeral

namespace Raop.Text

/-- One character of quoted text. -/
def escape (c : Char) : List Char :=
  match c with
  | '"' => ['\\', '"']
  | '\\' => ['\\', '\\']
  | '\n' => ['\\', 'n']
  | '\r' => ['\\', 'r']
  | '\t' => ['\\', 't']
  | '\x00' => ['\\', '0']
  | c =>
    if isPrintable c then [c]
    else ['\\', 'u', '\x7b'] ++ Nat.toDigits 16 c.toNat ++ ['\x7d']

/-- A text in double quotes, with the characters that need it escaped. -/
def quote (s : String) : String :=
  String.ofList ('"' :: s.toList.flatMap escape ++ ['"'])

end Raop.Text
