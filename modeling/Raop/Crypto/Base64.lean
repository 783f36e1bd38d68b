/-
# Base64

Three octets are four symbols of six bits. At the end, one octet is two symbols
and two octets are three; the bits left over must be zero, so every octet
string has one spelling. Padding is not written. On reading it may be missing,
partial or full, but never more than completes the last group of four.

Key definitions: `Base64.encode`, `Base64.decode?`.
-/
import Raop.Bytes
import Raop.Text.Blank

namespace Raop.Base64

/-- The symbol of a six-bit number. -/
def symbol (n : Nat) : Char :=
  if n < 26 then Char.ofNat (65 + n)
  else if n < 52 then Char.ofNat (97 + (n - 26))
  else if n < 62 then Char.ofNat (48 + (n - 52))
  else if n = 62 then '+' else '/'

/-- The six-bit number of a symbol. -/
def value? (c : Char) : Option Nat :=
  if 'A' ≤ c ∧ c ≤ 'Z' then some (c.toNat - 65)
  else if 'a' ≤ c ∧ c ≤ 'z' then some (c.toNat - 97 + 26)
  else if '0' ≤ c ∧ c ≤ '9' then some (c.toNat - 48 + 52)
  else if c = '+' then some 62
  else if c = '/' then some 63
  else none

/-- Six-bit numbers of an octet string, in front of which `done` stands in reverse. -/
def sextetsOnto (done : List Nat) : Bytes → List Nat
  | [] => done.reverse
  | [a] => (a.toNat % 4 * 16 :: a.toNat / 4 :: done).reverse
  | [a, b] =>
    (b.toNat % 16 * 4 :: (a.toNat % 4 * 16 + b.toNat / 16) :: a.toNat / 4 :: done).reverse
  | a :: b :: c :: rest =>
    sextetsOnto (c.toNat % 64 :: (b.toNat % 16 * 4 + c.toNat / 64) ::
      (a.toNat % 4 * 16 + b.toNat / 16) :: a.toNat / 4 :: done) rest

/-- The octets of six-bit numbers, in front of which `done` stands in reverse; nothing if a bit is left over. -/
def octetsOnto (done : Bytes) : List Nat → Option Bytes
  | [] => some done.reverse
  | [_] => none
  | [a, b] =>
    if b % 16 = 0 then some (UInt8.ofNat (a * 4 + b / 16) :: done).reverse else none
  | [a, b, c] =>
    if c % 4 = 0 then
      some (UInt8.ofNat (b % 16 * 16 + c / 4) :: UInt8.ofNat (a * 4 + b / 16) :: done).reverse
    else none
  | a :: b :: c :: d :: rest =>
    octetsOnto (UInt8.ofNat (c % 4 * 64 + d) :: UInt8.ofNat (b % 16 * 16 + c / 4) ::
      UInt8.ofNat (a * 4 + b / 16) :: done) rest

/-- The spelling of an octet string, without padding. -/
def encode (bs : Bytes) : String := String.ofList ((sextetsOnto [] bs).map symbol)

/-- The octets of a text without white space around it. -/
def decodeChars? (cs : List Char) : Option Bytes :=
  let body := Text.trimEndOf '=' cs
  let padding := cs.length - body.length
  if padding ≤ (4 - body.length % 4) % 4 then
    (body.mapM value?).bind (octetsOnto [])
  else none

/-- The octets of a text; white space around it does not count. -/
def decode? (s : String) : Option Bytes := decodeChars? (Text.trimChars s.toList)

end Raop.Base64
