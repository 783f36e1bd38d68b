/-
# Splitting text at separators

Cutting a text at every separator keeps all its parts, empty ones too, so the
parts put together with the separator between them give the text back.

Key definitions: `splitAt?`, `splitLast?`, `splitCrlf`, `lines`.
-/
import Raop.Text.Blank

namespace Raop.Text

/-- The text before the first `sep` and the text after it. -/
def splitAt? (sep : Char) (cs : List Char) : Option (List Char × List Char) :=
  match cs.dropWhile (· != sep) with
  | [] => none
  | _ :: rest => some (cs.takeWhile (· != sep), rest)

/-- The text before the last `sep` and the text after it. -/
def splitLast? (sep : Char) (cs : List Char) : Option (List Char × List Char) :=
  (splitAt? sep cs.reverse).map fun (after, before) => (before.reverse, after.reverse)

/-- The parts of a text between its separators; never empty. -/
def split (sep : Char) (cs : List Char) : List (List Char) :=
  let parts := cs.foldr (fun c (acc : List Char × List (List Char)) =>
    if c = sep then ([], acc.1 :: acc.2) else (c :: acc.1, acc.2)) ([], [])
  parts.1 :: parts.2

/-- The parts of a text between carriage return and line feed pairs; never empty. -/
def splitCrlf (cs : List Char) : List (List Char) :=
  let parts := cs.foldr (fun c (acc : List Char × List (List Char)) =>
    match c, acc.1 with
    | '\r', '\n' :: after => ([], after :: acc.2)
    | c, first => (c :: first, acc.2)) ([], [])
  parts.1 :: parts.2

theorem split_ne_nil (sep : Char) (cs : List Char) : split sep cs ≠ [] := by
  simp [split]

theorem splitCrlf_ne_nil (cs : List Char) : splitCrlf cs ≠ [] := by
  simp [splitCrlf]

/-- A character of a name: an ASCII letter or digit, `_` or `-`. -/
def isNameChar (c : Char) : Bool := c.isAlphanum || c == '_' || c == '-'

/-- A nonempty run of name characters. -/
def isName (cs : List Char) : Bool := !cs.isEmpty && cs.all isNameChar

end Raop.Text
