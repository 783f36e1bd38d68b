/-
# White space and trimming

White space is the Unicode property White_Space, 25 code points. A trimmed
text neither begins nor ends with it; the words of a text are the maximal runs
of other characters.

Key definitions: `isBlank`, `trim`, `words`, `trimEndOf`.
Key theorems: `isBlank_of_isWhitespace`.
-/
namespace Raop.Text

/-- White space: the characters with the property White_Space. -/
def isBlank (c : Char) : Bool :=
  let n := c.toNat
  (9 ≤ n && n ≤ 13) || n = 0x20 || n = 0x85 || n = 0xA0 || n = 0x1680 ||
    (0x2000 ≤ n && n ≤ 0x200A) || n = 0x2028 || n = 0x2029 || n = 0x202F || n = 0x205F ||
    n = 0x3000

/-- A list without the members at its end that satisfy `p`. -/
def dropEndWhile {α : Type} (p : α → Bool) (xs : List α) : List α :=
  (xs.reverse.dropWhile p).reverse

/-- A text without white space at either end. -/
def trimChars (cs : List Char) : List Char :=
  dropEndWhile isBlank (cs.dropWhile isBlank)

/-- A text without white space at either end. -/
def trim (s : String) : String := String.ofList (trimChars s.toList)

/-- A text without the copies of `c` at its end. -/
def trimEndOf (c : Char) (cs : List Char) : List Char := dropEndWhile (· == c) cs

/-- The words of a text: its maximal runs of characters that are not white space. -/
def wordsChars (cs : List Char) : List (List Char) :=
  let step (c : Char) (acc : List Char × List (List Char)) :=
    if isBlank c then
      (([] : List Char), if acc.1.isEmpty then acc.2 else acc.1 :: acc.2)
    else (c :: acc.1, acc.2)
  let (word, rest) := cs.foldr step ([], [])
  if word.isEmpty then rest else word :: rest

/-- The words of a text: its maximal runs of characters that are not white space. -/
def words (s : String) : List String := (wordsChars s.toList).map String.ofList

/-- White space of the core library is white space here. -/
theorem isBlank_of_isWhitespace (c : Char) (h : c.isWhitespace = true) : isBlank c = true := by
  simp only [Char.isWhitespace, Bool.or_eq_true, decide_eq_true_eq] at h
  rcases h with ((h | h) | h) | h <;> subst h <;> decide

end Raop.Text
