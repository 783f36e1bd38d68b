/-
# Private keys in PEM files

A PEM text is a label between boundary lines and padded base64 in lines of
sixty-four symbols, the last one shorter. What it holds is one value in the
distinguished encoding: the key itself, or a wrapper that names the algorithm.

Key definitions: `Der.read`, `Pem.parse?`, `PrivateKey.ofPem`.
-/
import Raop.Crypto.Base64
import Raop.Crypto.Rsa
import Raop.Text.Split

namespace Raop

namespace Der

/-- The length octets at the front, in their shortest form, with what follows them. -/
def readLength : Bytes → Option (Nat × Bytes)
  | [] => none
  | b :: rest =>
    if b < 0x80 then some (b.toNat, rest)
    else
      let count := b.toNat - 128
      let digits := rest.take count
      let n := Bytes.toNatBE digits
      if 1 ≤ count ∧ count ≤ 4 ∧ digits.length = count ∧ digits.head? ≠ some 0 ∧ 128 ≤ n then
        some (n, rest.drop count)
      else none

/-- The content of the value at the front, which has the given tag, with what follows it. -/
def read (tag : UInt8) (bs : Bytes) : Option (Bytes × Bytes) :=
  match bs with
  | [] => none
  | t :: rest => do
    if t ≠ tag then none
    let (n, rest) ← readLength rest
    if rest.length < n then none
    return (rest.take n, rest.drop n)

/-- The natural number at the front, in its shortest form, with what follows it. -/
def readNat (bs : Bytes) : Option (Nat × Bytes) := do
  let (content, rest) ← read 0x02 bs
  match content with
  | [] => none
  | [a] => if a < 0x80 then return (a.toNat, rest) else none
  | a :: b :: _ =>
    if a < 0x80 ∧ (a ≠ 0 ∨ 0x80 ≤ b) then return (Bytes.toNatBE content, rest) else none

/-- The content of the value of a tag that is all there is. -/
def readAll (tag : UInt8) (bs : Bytes) : Option Bytes := do
  let (content, rest) ← read tag bs
  if rest.isEmpty then return content else none

/-- The key in the octets of its own encoding. -/
def privateKey? (bs : Bytes) : Option PrivateKey := do
  let bs ← readAll 0x30 bs
  let (version, bs) ← readNat bs
  let (modulus, bs) ← readNat bs
  let (publicExponent, bs) ← readNat bs
  let (privateExponent, bs) ← readNat bs
  let (prime1, bs) ← readNat bs
  let (prime2, bs) ← readNat bs
  let (_, bs) ← readNat bs
  let (_, bs) ← readNat bs
  let (_, bs) ← readNat bs
  if version = 0 ∧ bs.isEmpty then
    return { modulus, publicExponent, privateExponent, prime1, prime2 }
  else none

/-- The algorithm identifier of RSA keys: an object identifier and a null. -/
def rsaAlgorithm : Bytes :=
  [0x06, 0x09, 0x2A, 0x86, 0x48, 0x86, 0xF7, 0x0D, 0x01, 0x01, 0x01, 0x05, 0x00]

/-- The key in a wrapper that names its algorithm. Attributes may follow it. -/
def wrappedKey? (bs : Bytes) : Option PrivateKey := do
  let bs ← readAll 0x30 bs
  let (version, bs) ← readNat bs
  let (algorithm, bs) ← read 0x30 bs
  let (key, bs) ← read 0x04 bs
  let rest ← if bs.isEmpty then some bs else (read 0xA0 bs).map (·.2)
  if version = 0 ∧ algorithm = rsaAlgorithm ∧ rest.isEmpty then privateKey? key else none

end Der

namespace Pem

/-- The lines of a text, which end with a line feed, a carriage return or both. -/
def lines (cs : List Char) : List (List Char) :=
  let parts := cs.foldr (fun c (acc : List Char × List (List Char) × Bool) =>
    if c = '\n' then ([], acc.1 :: acc.2.1, true)
    else if c = '\r' ∧ acc.2.2 ∧ acc.1.isEmpty then (acc.1, acc.2.1, false)
    else if c = '\r' then ([], acc.1 :: acc.2.1, false)
    else (c :: acc.1, acc.2.1, false)) ([], [], false)
  parts.1 :: parts.2.1

def beginMark : List Char := "-----BEGIN ".toList
def endMark : List Char := "-----END ".toList
def dashes : List Char := "-----".toList

/-- The lines of base64: all of sixty-four symbols but the last, which has at most as many. -/
def joinBody : List (List Char) → Option (List Char)
  | [] => none
  | [line] => if line.length ≤ 64 then some line else none
  | line :: lines => if line.length = 64 then (joinBody lines).map (line ++ ·) else none

/-- The label and the octets of a text. What stands before the first boundary line is passed over. -/
def parse? (text : String) : Option (String × Bytes) := do
  let ls := (lines text.toList).dropWhile fun l => !beginMark.isPrefixOf l
  let first ← ls.head?
  let ls := match ls.tail.reverse with
    | [] :: rest => rest.reverse
    | rest => rest.reverse
  let last ← ls.getLast?
  let label := (first.drop beginMark.length).takeWhile (· != '-')
  if first ≠ beginMark ++ label ++ dashes ∨ last ≠ endMark ++ label ++ dashes then none
  let body ← joinBody ls.dropLast
  if body.length % 4 ≠ 0 then none
  let octets ← Base64.decodeChars? body
  return (String.ofList label, octets)

end Pem

/-- The private key in a PEM text. -/
def PrivateKey.ofPem (text : String) : Except CryptoError PrivateKey :=
  let key := (Pem.parse? text).bind fun (label, octets) =>
    if label = "PRIVATE KEY" then Der.wrappedKey? octets
    else if label = "RSA PRIVATE KEY" then Der.privateKey? octets
    else none
  match key with
  | some k => if k.valid then .ok k else .error .invalidPrivateKey
  | none => .error .invalidPrivateKey

end Raop
