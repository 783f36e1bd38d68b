/-
# UTF-8

Characters are written in one to four octets. Reading splits octets into
symbols: a well-formed character, or a maximal ill-formed run (the longest
start of a character that is cut short, or one octet that starts none). A
strict reader refuses any ill-formed run; a lenient one puts U+FFFD for each.

Key definitions: `encode`, `symbols`, `decode?`, `decodeLossy`.
-/
import Raop.Bytes

namespace Raop.Text

/-- The octets of a text. -/
def encodeChars (cs : List Char) : Bytes := cs.flatMap String.utf8EncodeChar

/-- The octets of a text. -/
def encode (s : String) : Bytes := encodeChars s.toList

namespace Utf8

/-- An octet between `lo` and `hi`, both included. -/
def within (lo hi b : UInt8) : Bool := lo ≤ b && b ≤ hi

/-- A continuation octet. -/
def isTail (b : UInt8) : Bool := within 0x80 0xBF b

/-- The range of the second octet after a first octet of a three-octet character. -/
def second3 (a : UInt8) : UInt8 × UInt8 :=
  if a = 0xE0 then (0xA0, 0xBF) else if a = 0xED then (0x80, 0x9F) else (0x80, 0xBF)

/-- The range of the second octet after a first octet of a four-octet character. -/
def second4 (a : UInt8) : UInt8 × UInt8 :=
  if a = 0xF0 then (0x90, 0xBF) else if a = 0xF4 then (0x80, 0x8F) else (0x80, 0xBF)

/-- The six low bits of a continuation octet. -/
def payload (b : UInt8) : Nat := b.toNat % 64

/-- The symbol that starts with octet `a`, and the octets after it. `none` is an ill-formed run. -/
def next (a : UInt8) (rest : Bytes) : Option Char × Bytes :=
  if a < 0x80 then (some (Char.ofNat a.toNat), rest)
  else if within 0xC2 0xDF a then
    match rest with
    | b :: r =>
      if isTail b then (some (Char.ofNat (a.toNat % 32 * 64 + payload b)), r) else (none, rest)
    | [] => (none, [])
  else if within 0xE0 0xEF a then
    match rest with
    | b :: r =>
      if within (second3 a).1 (second3 a).2 b then
        match r with
        | c :: r' =>
          if isTail c then
            (some (Char.ofNat ((a.toNat % 16 * 64 + payload b) * 64 + payload c)), r')
          else (none, r)
        | [] => (none, [])
      else (none, rest)
    | [] => (none, [])
  else if within 0xF0 0xF4 a then
    match rest with
    | b :: r =>
      if within (second4 a).1 (second4 a).2 b then
        match r with
        | c :: r' =>
          if isTail c then
            match r' with
            | d :: r'' =>
              if isTail d then
                (some (Char.ofNat
                  (((a.toNat % 8 * 64 + payload b) * 64 + payload c) * 64 + payload d)), r'')
              else (none, r')
            | [] => (none, [])
          else (none, r)
        | [] => (none, [])
      else (none, rest)
    | [] => (none, [])
  else (none, rest)

/-- A symbol leaves no more octets than it was given. -/
theorem length_next_le (a : UInt8) (rest : Bytes) : (next a rest).2.length ≤ rest.length := by
  unfold next
  repeat' split
  all_goals simp only [List.length_cons, List.length_nil]
  all_goals omega

/-- Symbols of `bs` put in front of `seen`, which is in reverse order. -/
def symbolsOnto (seen : List (Option Char)) : Bytes → List (Option Char)
  | [] => seen.reverse
  | a :: rest => symbolsOnto ((next a rest).1 :: seen) (next a rest).2
  termination_by bs => bs.length
  decreasing_by
    have := length_next_le a rest
    simp only [List.length_cons]
    omega

/-- The symbols of an octet string, in order. -/
def symbols (bs : Bytes) : List (Option Char) := symbolsOnto [] bs

theorem symbolsOnto_eq (seen : List (Option Char)) (bs : Bytes) :
    symbolsOnto seen bs = seen.reverse ++ symbols bs := by
  suffices ∀ (n : Nat) (bs : Bytes) (seen : List (Option Char)), bs.length ≤ n →
      symbolsOnto seen bs = seen.reverse ++ symbolsOnto [] bs from this _ bs seen (Nat.le_refl _)
  intro n
  induction n with
  | zero =>
    intro bs seen h
    have : bs = [] := List.length_eq_zero_iff.1 (by omega)
    subst this
    simp [symbolsOnto]
  | succ n ih =>
    intro bs seen h
    cases bs with
    | nil => simp [symbolsOnto]
    | cons a rest =>
      have := length_next_le a rest
      have hr : (next a rest).2.length ≤ n := by simp only [List.length_cons] at h; omega
      rw [symbolsOnto, ih _ _ hr, symbolsOnto, ih _ [_] hr]
      simp

theorem symbols_nil : symbols [] = [] := by simp [symbols, symbolsOnto]

theorem symbols_cons (a : UInt8) (rest : Bytes) :
    symbols (a :: rest) = (next a rest).1 :: symbols (next a rest).2 := by
  rw [symbols, symbolsOnto, symbolsOnto_eq]
  simp

end Utf8

/-- The characters of an octet string; nothing if a part of it is ill-formed. -/
def decodeChars? (bs : Bytes) : Option (List Char) := (Utf8.symbols bs).mapM id

/-- The characters of an octet string, with U+FFFD for each ill-formed run. -/
def decodeCharsLossy (bs : Bytes) : List Char := (Utf8.symbols bs).map (·.getD '\uFFFD')

/-- The text of an octet string; nothing if a part of it is ill-formed. -/
def decode? (bs : Bytes) : Option String := (decodeChars? bs).map String.ofList

/-- The text of an octet string, with U+FFFD for each ill-formed run. -/
def decodeLossy (bs : Bytes) : String := String.ofList (decodeCharsLossy bs)

end Raop.Text
