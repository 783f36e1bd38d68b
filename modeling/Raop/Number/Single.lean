/-
# Single-precision numbers as text

A finite binary32 number is `m · 2 ^ q` with `m < 2 ^ 24` and `-149 ≤ q`. A
decimal text is read as an exact quotient, which is rounded once to the nearest
such number, a tie to the even one. For writing with a fixed number of places
the exact value is rounded once on the decimal grid, again ties to even.

Key definitions: `Single.ofRatio`, `Single.read?`, `Single.fixed`.
-/
import Raop.Number.Rounding
import Raop.Text.Numeral

namespace Raop.Single

/-- The sign bit is set. -/
def isNegative (x : Float32) : Bool := 2147483648 ≤ x.toBits.toNat

/-- The 8 exponent bits. -/
def exponentField (x : Float32) : Nat := x.toBits.toNat / 8388608 % 256

/-- The 23 fraction bits. -/
def fractionField (x : Float32) : Nat := x.toBits.toNat % 8388608

/-- A finite number without its sign, as `m` and `q` of `m · 2 ^ q`. -/
def magnitude (x : Float32) : Nat × Int :=
  if exponentField x = 0 then (fractionField x, -149)
  else (8388608 + fractionField x, (exponentField x : Int) - 150)

/-- `num · 2 ^ (-q) / den`, rounded to the nearest integer. -/
def scaled (num den : Nat) (q : Int) : Nat :=
  if 0 ≤ q then roundHalfEven num (den * Nat.pow 2 q.toNat)
  else roundHalfEven (num * Nat.pow 2 (-q).toNat) den

/-- The exponent `q` for which `num / den` has 24 binary digits before the point, but at least -149. -/
def gridExponent (num den : Nat) : Int :=
  let e : Int := (Nat.log2 num : Int) - (Nat.log2 den : Int)
  let above : Bool :=
    if 0 ≤ e then den * Nat.pow 2 e.toNat ≤ num else den ≤ num * Nat.pow 2 (-e).toNat
  max (-149) (if above then e - 23 else e - 24)

/-- The bits of the number nearest to `num / den`; infinity from half a step beyond the largest. -/
def ratioBits (num den : Nat) : Nat :=
  if num = 0 then 0
  else
    let q := gridExponent num den
    let m := scaled num den q
    let bits := if m < 8388608 then m else (q + 150).toNat * 8388608 + (m - 8388608)
    min bits 0x7F800000

/-- The number nearest to `± num / den`. -/
def ofRatio (negative : Bool) (num den : Nat) : Float32 :=
  Float32.ofBits (UInt32.ofNat (ratioBits num den + if negative then 2147483648 else 0))

/-- The number nearest to `± m · 10 ^ e`. Far outside the range the result is zero or infinite. -/
def ofDecimal (negative : Bool) (m : Nat) (e : Int) : Float32 :=
  let digits : Int := (Nat.toDigits 10 m).length
  if m = 0 ∨ digits + e < -60 then ofRatio negative 0 1
  else if 60 < digits + e then ofRatio negative (Nat.pow 10 60) 1
  else if 0 ≤ e then ofRatio negative (m * Nat.pow 10 e.toNat) 1
  else ofRatio negative m (Nat.pow 10 (-e).toNat)

/-- The exponent part of a decimal text: nothing, or `e`, a sign or none, and digits. -/
def readExponent? : List Char → Option Int
  | [] => some 0
  | c :: cs =>
    if c = 'e' ∨ c = 'E' then
      let (negative, digits) := match cs with
        | '-' :: r => (true, r)
        | '+' :: r => (false, r)
        | r => (false, r)
      if !digits.isEmpty && digits.all Char.isDigit then
        let n := Text.digitsValue digits
        some (if negative then -(n : Int) else n)
      else none
    else none

/-- A decimal text without its sign: digits with at most one point among them, then an exponent. -/
def readUnsigned? (negative : Bool) (cs : List Char) : Option Float32 := do
  let whole := cs.takeWhile Char.isDigit
  let rest := cs.dropWhile Char.isDigit
  let (part, rest) := match rest with
    | '.' :: r => (r.takeWhile Char.isDigit, r.dropWhile Char.isDigit)
    | r => ([], r)
  if whole.isEmpty && part.isEmpty then none
  else
    let e ← readExponent? rest
    return ofDecimal negative (Text.digitsValue (whole ++ part)) (e - part.length)

/-- A number text: a sign or none, then `inf`, `infinity` or `nan` in any case, or a decimal. -/
def read? (cs : List Char) : Option Float32 :=
  let (negative, cs) := match cs with
    | '-' :: r => (true, r)
    | '+' :: r => (false, r)
    | r => (false, r)
  let lower := cs.map Char.toLower
  if lower = "inf".toList ∨ lower = "infinity".toList then
    some (Float32.ofBits (if negative then 0xFF800000 else 0x7F800000))
  else if lower = "nan".toList then
    some (Float32.ofBits (if negative then 0xFFC00000 else 0x7FC00000))
  else readUnsigned? negative cs

/-- A natural number of `10 ^ (-places)` units, written with a point. -/
def placesText (places units : Nat) : String :=
  let part := Nat.toDigits 10 (units % Nat.pow 10 places)
  Text.natText (units / Nat.pow 10 places) ++ "." ++
    String.ofList (List.replicate (places - part.length) '0' ++ part)

/-- A number with a fixed count of decimal places. -/
def fixed (places : Nat) (x : Float32) : String :=
  if exponentField x = 255 then
    if fractionField x ≠ 0 then "NaN" else if isNegative x then "-inf" else "inf"
  else
    let (m, q) := magnitude x
    (if isNegative x then "-" else "") ++ placesText places (scaled (m * Nat.pow 10 places) 1 (-q))

end Raop.Single
