/-
# Numerals and what they write

A text is read as a number just if it is a numeral of this number that the
bound of the field admits (`readBelow?_eq_some_iff`), whatever zeros and plus
sign it begins with. The digits of a number are a word, and a numeral of this
number; so reading them gives the number.

Key definitions: `Numeral`.
Key theorems: `readNat?_eq_some_iff`, `Numeral.eq`, `readBelow?_eq_some_iff`,
`readU8?_eq_some_iff`, `readU16?_eq_some_iff`, `readU32?_eq_some_iff`, `word_natChars`,
`numeral_natChars`, `word_natText`, `readU16?_natText`, `readSize?_natText`.
-/
import Raop.Proofs.Text.Blank
import Raop.Text.Numeral

namespace Raop.Text

theorem isDigit_of_mem_natChars {n : Nat} {c : Char} (h : c ∈ natChars n) : c.isDigit = true :=
  Nat.isDigit_of_mem_toDigits (by decide) (by decide) h

/-- The digits of a number are a word. -/
theorem word_natChars (n : Nat) : Word (natChars n) :=
  ⟨Nat.toDigits_ne_nil, fun _ h => isBlank_of_isDigit (isDigit_of_mem_natChars h)⟩

theorem dropPlus_of_isDigit {cs : List Char} (h : ∀ c ∈ cs, c.isDigit = true) : dropPlus cs = cs := by
  cases cs with
  | nil => rfl
  | cons c cs =>
    have hc : c.isDigit = true := h c List.mem_cons_self
    unfold dropPlus
    split
    · next heq =>
      cases heq
      cases hc
    · rfl

theorem digitsValue_eq (cs : List Char) : digitsValue cs = Nat.ofDigitChars 10 cs 0 := by
  rw [Nat.ofDigitChars_eq_foldl, digitsValue]
  simp only [Nat.mul_comm 10]
  rfl

/-! ### Numerals -/

/-- A decimal numeral of a number: digits, at least one of them, and one plus sign allowed in front. -/
def Numeral (text : List Char) (n : Nat) : Prop :=
  ∃ digits, (text = digits ∨ text = '+' :: digits) ∧ digits ≠ [] ∧
    (∀ c ∈ digits, c.isDigit = true) ∧ Nat.ofDigitChars 10 digits 0 = n

/-- Digits alone write their number, leading zeros and all. -/
theorem numeral_iff_of_isDigit {cs : List Char} {n : Nat} (h : ∀ c ∈ cs, c.isDigit = true) :
    Numeral cs n ↔ cs ≠ [] ∧ Nat.ofDigitChars 10 cs 0 = n := by
  constructor
  · rintro ⟨digits, rfl | rfl, hne, -, hn⟩
    · exact ⟨hne, hn⟩
    · have hplus : '+'.isDigit = true := h '+' List.mem_cons_self
      exact absurd hplus (by decide)
  · rintro ⟨hne, hn⟩
    exact ⟨cs, .inl rfl, hne, h, hn⟩

/-- What is read as a number is a numeral of it, and every numeral is read. -/
theorem readNat?_eq_some_iff {cs : List Char} {n : Nat} : readNat? cs = some n ↔ Numeral cs n := by
  simp only [readNat?, digitsValue_eq, Option.ite_none_right_eq_some, Option.some.injEq,
    Bool.and_eq_true, Bool.not_eq_true', List.isEmpty_eq_false_iff, List.all_eq_true]
  constructor
  · rintro ⟨⟨hne, hdigits⟩, hn⟩
    refine ⟨dropPlus cs, ?_, hne, hdigits, hn⟩
    unfold dropPlus
    split
    · exact .inr rfl
    · exact .inl rfl
  · rintro ⟨digits, rfl | rfl, hne, hdigits, hn⟩
    · rw [dropPlus_of_isDigit hdigits]
      exact ⟨⟨hne, hdigits⟩, hn⟩
    · exact ⟨⟨hne, hdigits⟩, hn⟩

/-- A text is a numeral of one number at most. -/
theorem Numeral.eq {cs : List Char} {m n : Nat} (hm : Numeral cs m) (hn : Numeral cs n) : m = n :=
  Option.some.inj ((readNat?_eq_some_iff.2 hm).symm.trans (readNat?_eq_some_iff.2 hn))

instance (cs : List Char) (n : Nat) : Decidable (Numeral cs n) :=
  decidable_of_iff _ readNat?_eq_some_iff

theorem readBelow?_eq_some_iff {bound n : Nat} {cs : List Char} :
    readBelow? bound cs = some n ↔ Numeral cs n ∧ n < bound := by
  simp only [readBelow?, Option.bind_eq_some_iff, readNat?_eq_some_iff, Option.ite_none_right_eq_some,
    Option.some.injEq]
  constructor
  · rintro ⟨m, hm, hlt, rfl⟩
    exact ⟨hm, hlt⟩
  · rintro ⟨hn, hlt⟩
    exact ⟨n, hn, hlt, rfl⟩

/-- A word of fixed width is read from the numerals of the number that it is. -/
theorem map_readBelow?_eq_some_iff {α : Type} {bound : Nat} {ofNat : Nat → α} {toNat : α → Nat}
    (ofNat_toNat : ∀ a, ofNat (toNat a) = a) (toNat_ofNat : ∀ n < bound, toNat (ofNat n) = n)
    (toNat_lt : ∀ a, toNat a < bound) {cs : List Char} {a : α} :
    (readBelow? bound cs).map ofNat = some a ↔ Numeral cs (toNat a) := by
  simp only [Option.map_eq_some_iff, readBelow?_eq_some_iff]
  constructor
  · rintro ⟨n, ⟨hn, hlt⟩, rfl⟩
    rwa [toNat_ofNat n hlt]
  · intro h
    exact ⟨toNat a, ⟨h, toNat_lt a⟩, ofNat_toNat a⟩

section Words

variable {cs : List Char}

theorem readU8?_eq_some_iff {w : UInt8} : readU8? cs = some w ↔ Numeral cs w.toNat :=
  map_readBelow?_eq_some_iff (fun _ => UInt8.ofNat_toNat) (fun _ h => UInt8.toNat_ofNat_of_lt' h)
    UInt8.toNat_lt

theorem readU16?_eq_some_iff {w : UInt16} : readU16? cs = some w ↔ Numeral cs w.toNat :=
  map_readBelow?_eq_some_iff (fun _ => UInt16.ofNat_toNat) (fun _ h => UInt16.toNat_ofNat_of_lt' h)
    UInt16.toNat_lt

theorem readU32?_eq_some_iff {w : UInt32} : readU32? cs = some w ↔ Numeral cs w.toNat :=
  map_readBelow?_eq_some_iff (fun _ => UInt32.ofNat_toNat) (fun _ h => UInt32.toNat_ofNat_of_lt' h)
    UInt32.toNat_lt

end Words

/-! ### Numbers as texts -/

/-- The digits of a number are a numeral of it. -/
theorem numeral_natChars (n : Nat) : Numeral (natChars n) n :=
  (numeral_iff_of_isDigit fun _ h => isDigit_of_mem_natChars h).2
    ⟨(word_natChars n).1, Nat.ofDigitChars_ten_toDigits⟩

theorem word_natText (n : Nat) : Word (natText n).toList := by
  rw [natText, String.toList_ofList]
  exact word_natChars n

theorem numeral_natText (n : Nat) : Numeral (natText n).toList n := by
  rw [natText, String.toList_ofList]
  exact numeral_natChars n

theorem readU16?_natText (n : UInt16) : readU16? (natText n.toNat).toList = some n :=
  readU16?_eq_some_iff.2 (numeral_natText n.toNat)

/-- A size is read back, if it is one of 64 bits. -/
theorem readSize?_natText {n : Nat} (h : n < 18446744073709551616) :
    readSize? (trimChars (natText n).toList) = some n := by
  rw [trimChars_of_word (word_natText n)]
  exact readBelow?_eq_some_iff.2 ⟨numeral_natText n, h⟩

end Raop.Text
