/-
# Unsigned numerals

A numeral is a nonempty run of digits, with one `+` allowed in front and any
number of leading zeros; its value must fit the bound of the field it fills.

Key definitions: `readNat?`, `readBelow?`, `readHexByte?`, `natText`.
Key theorems: `readBelow?_lt`.
-/
namespace Raop.Text

/-- A text without one leading plus sign. -/
def dropPlus : List Char → List Char
  | '+' :: cs => cs
  | cs => cs

/-- The number that a run of decimal digits writes. -/
def digitsValue (cs : List Char) : Nat :=
  cs.foldl (fun n c => n * 10 + (c.toNat - 48)) 0

/-- The value of a decimal numeral. -/
def readNat? (cs : List Char) : Option Nat :=
  let digits := dropPlus cs
  if !digits.isEmpty && digits.all Char.isDigit then some (digitsValue digits) else none

/-- The value of a decimal numeral below `bound`. -/
def readBelow? (bound : Nat) (cs : List Char) : Option Nat :=
  (readNat? cs).bind fun n => if n < bound then some n else none

/-- The value of a hexadecimal digit of either case. -/
def hexDigit? (c : Char) : Option Nat :=
  if c.isDigit then some (c.toNat - 48)
  else if 'a' ≤ c ∧ c ≤ 'f' then some (c.toNat - 87)
  else if 'A' ≤ c ∧ c ≤ 'F' then some (c.toNat - 55)
  else none

/-- The value of a hexadecimal numeral below `bound`. -/
def readHexBelow? (bound : Nat) (cs : List Char) : Option Nat := do
  let digits := dropPlus cs
  if digits.isEmpty then none
  let values ← digits.mapM hexDigit?
  let n := values.foldl (fun n d => n * 16 + d) 0
  if n < bound then some n else none

/-- A number in decimal digits. -/
def natChars (n : Nat) : List Char := Nat.toDigits 10 n

/-- A number in decimal digits. -/
def natText (n : Nat) : String := String.ofList (natChars n)

/-- A number in lower-case hexadecimal digits, at least `width` of them. -/
def hexText (width n : Nat) : String :=
  let digits := Nat.toDigits 16 n
  String.ofList (List.replicate (width - digits.length) '0' ++ digits)

theorem readBelow?_lt {bound n : Nat} {cs : List Char} (h : readBelow? bound cs = some n) :
    n < bound := by
  simp only [readBelow?, Option.bind_eq_some_iff] at h
  obtain ⟨m, -, hm⟩ := h
  split at hm
  · next hlt => simp only [Option.some.injEq] at hm; omega
  · simp at hm

/-- The 8-bit number that a numeral writes. -/
def readU8? (cs : List Char) : Option UInt8 := (readBelow? 256 cs).map UInt8.ofNat

/-- The 16-bit number that a numeral writes. -/
def readU16? (cs : List Char) : Option UInt16 := (readBelow? 65536 cs).map UInt16.ofNat

/-- The 32-bit number that a numeral writes. -/
def readU32? (cs : List Char) : Option UInt32 := (readBelow? 4294967296 cs).map UInt32.ofNat

/-- The size that a numeral writes: at most 64 bits. -/
def readSize? (cs : List Char) : Option Nat := readBelow? 18446744073709551616 cs

end Raop.Text
