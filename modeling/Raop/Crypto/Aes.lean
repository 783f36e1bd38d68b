/-
# The AES-128 block cipher, decryption

Octets are elements of the field with 256 elements, with multiplication modulo
x^8 + x^4 + x^3 + x + 1. A block is sixteen octets, column by column. The key
expands to eleven round keys, which decryption uses from the last to the first.

Key definitions: `Aes.roundKeys`, `Aes.decryptWith`.
-/
import Raop.Bytes

namespace Raop.Aes

/-- The product of an element and x. -/
def double (a : UInt8) : UInt8 := if 0x80 ≤ a then (a + a) ^^^ 0x1B else a + a

/-- The product of two elements. -/
def times (a b : UInt8) : UInt8 :=
  ((List.range 8).foldl (fun (acc : UInt8 × UInt8) i =>
    (if b.toNat.testBit i then acc.1 ^^^ acc.2 else acc.1, double acc.2)) (0, a)).1

/-- The inverse of an element; zero is its own. -/
def inverse (a : UInt8) : UInt8 :=
  -- a ^ 254, as the product of the squares a^2, a^4, ..., a^128
  ((List.range 7).foldl (fun (acc : UInt8 × UInt8) _ =>
    let square := times acc.2 acc.2
    (times acc.1 square, square)) (1, a)).1

/-- An octet with its bits moved up, those beyond the end coming in again below. -/
def rotate (a : UInt8) (n : Nat) : UInt8 :=
  UInt8.ofNat (a.toNat * Nat.pow 2 n) ||| UInt8.ofNat (a.toNat / Nat.pow 2 (8 - n))

/-- The substitution of an octet. -/
def substitute (a : UInt8) : UInt8 :=
  let i := inverse a
  i ^^^ rotate i 1 ^^^ rotate i 2 ^^^ rotate i 3 ^^^ rotate i 4 ^^^ 0x63

/-- The substitution of every octet. -/
def sbox : Array UInt8 := ((List.range 256).map fun n => substitute (UInt8.ofNat n)).toArray

/-- The octet that is substituted by each octet. -/
def invSbox : Array UInt8 :=
  (List.range 256).foldl (fun t n => t.setIfInBounds (sbox.getD n 0).toNat (UInt8.ofNat n))
    (Array.replicate 256 0)

/-- The products of every octet and a constant. -/
def multiples (k : UInt8) : Array UInt8 :=
  ((List.range 256).map fun n => times k (UInt8.ofNat n)).toArray

def by9 : Array UInt8 := multiples 9
def by11 : Array UInt8 := multiples 11
def by13 : Array UInt8 := multiples 13
def by14 : Array UInt8 := multiples 14

/-- An entry of a table for all octets. -/
def look (table : Array UInt8) (a : UInt8) : UInt8 := table.getD a.toNat 0

/-- Octet by octet sum. -/
def xor (a b : Bytes) : Bytes := List.zipWith (· ^^^ ·) a b

/-- The round key after `key`. -/
def nextKey (key : Bytes) (constant : UInt8) : Bytes :=
  let g := match key.drop 12 with
    | [a, b, c, d] => [look sbox b ^^^ constant, look sbox c, look sbox d, look sbox a]
    | _ => []
  let w0 := xor (key.take 4) g
  let w1 := xor ((key.drop 4).take 4) w0
  let w2 := xor ((key.drop 8).take 4) w1
  let w3 := xor (key.drop 12) w2
  w0 ++ w1 ++ w2 ++ w3

/-- The eleven round keys, the last one first. -/
def roundKeys (key : Bytes) : List Bytes :=
  ((List.range 10).foldl (fun (acc : List Bytes × UInt8) _ =>
    (nextKey (acc.1.headD []) acc.2 :: acc.1, double acc.2)) ([key], 1)).1

/-- Rows moved right by their index. -/
def unshiftRows : Bytes → Bytes
  | [a0, a1, a2, a3, b0, b1, b2, b3, c0, c1, c2, c3, d0, d1, d2, d3] =>
    [a0, d1, c2, b3, b0, a1, d2, c3, c0, b1, a2, d3, d0, c1, b2, a3]
  | block => block

/-- Columns multiplied by the inverse of the mixing polynomial. -/
def unmixColumns : Bytes → Bytes
  | a :: b :: c :: d :: rest =>
    (look by14 a ^^^ look by11 b ^^^ look by13 c ^^^ look by9 d) ::
    (look by9 a ^^^ look by14 b ^^^ look by11 c ^^^ look by13 d) ::
    (look by13 a ^^^ look by9 b ^^^ look by14 c ^^^ look by11 d) ::
    (look by11 a ^^^ look by13 b ^^^ look by9 c ^^^ look by14 d) :: unmixColumns rest
  | rest => rest

/-- Rows and substitution undone. -/
def unsubstitute (block : Bytes) : Bytes := (unshiftRows block).map (look invSbox)

/-- The rounds after the first key, with the remaining round keys. -/
def rounds (block : Bytes) : List Bytes → Bytes
  | [] => block
  | [key] => xor (unsubstitute block) key
  | key :: keys => rounds (unmixColumns (xor (unsubstitute block) key)) keys

/-- The decryption of a block under expanded round keys, the last one first. -/
def decryptWith (keys : List Bytes) (block : Bytes) : Bytes :=
  match keys with
  | [] => block
  | key :: keys => rounds (xor block key) keys

end Raop.Aes
