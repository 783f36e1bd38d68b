/-
# RSA with a private key

A key of two primes. Decryption undoes optimal asymmetric encryption padding
(SHA-1, empty label); signing applies padding of block type 1 to the message
itself, without naming a digest.

Key definitions: `PrivateKey`, `PrivateKey.valid`, `PrivateKey.decryptOaep`,
`PrivateKey.signRaw`.
-/
import Raop.Crypto.Error
import Raop.Crypto.Sha1

namespace Raop

/-- `b ^ e * acc` modulo `n`. -/
def powModOnto (n acc b e : Nat) : Nat :=
  if e = 0 then acc % n
  else powModOnto n (if e % 2 = 1 then acc * b % n else acc) (b * b % n) (e / 2)
  termination_by e

/-- A power modulo `n`. -/
def powMod (n b e : Nat) : Nat := powModOnto n 1 b e

/-- A private key: modulus, exponents and primes. -/
structure PrivateKey where
  modulus : Nat
  publicExponent : Nat
  privateExponent : Nat
  prime1 : Nat
  prime2 : Nat
  deriving DecidableEq, Repr, Inhabited

namespace PrivateKey

/-- The most bits of a modulus. -/
def maxBits : Nat := 4096

/-- The parts of a key fit together. -/
def valid (k : PrivateKey) : Bool :=
  k.modulus % 2 = 1 && k.modulus < Nat.pow 2 maxBits && k.publicExponent % 2 = 1 &&
  1 < k.publicExponent && k.publicExponent < Nat.pow 2 33 && 1 < k.prime1 && 1 < k.prime2 &&
  k.prime1 ≠ k.prime2 && k.prime1 * k.prime2 = k.modulus &&
  k.publicExponent * k.privateExponent % (k.prime1 - 1) = 1 % (k.prime1 - 1) &&
  k.publicExponent * k.privateExponent % (k.prime2 - 1) = 1 % (k.prime2 - 1)

/-- The octets of the modulus. -/
def size (k : PrivateKey) : Nat := (Nat.log2 k.modulus + 8) / 8

/-- The private operation on a number below the modulus. -/
def apply (k : PrivateKey) (n : Nat) : Bytes :=
  Bytes.ofNatBE k.size (powMod k.modulus n k.privateExponent)

/-- `length` octets drawn from a seed by digests of the seed and a counter. -/
def mask (seed : Bytes) (length : Nat) : Bytes :=
  ((List.range ((length + 19) / 20)).flatMap fun i =>
    Sha1.digest (seed ++ Bytes.be32 (UInt32.ofNat i))).take length

/-- Octet by octet sum. -/
def xor (a b : Bytes) : Bytes := List.zipWith (· ^^^ ·) a b

/-- The message in a padded block: a zero octet, the masked seed, then under its mask the digest
of the empty label, zeros, a one and the message. -/
def unpadOaep (block : Bytes) : Option Bytes :=
  match block with
  | [] => none
  | zero :: rest =>
    let maskedData := rest.drop 20
    let seed := xor (rest.take 20) (mask maskedData 20)
    let data := xor maskedData (mask seed maskedData.length)
    let tail := (data.drop 20).dropWhile (· == 0)
    if zero = 0 ∧ data.take 20 = Sha1.digest [] ∧ tail.head? = some 1 then some tail.tail
    else none

/-- The message of a ciphertext, which has exactly the length of the modulus. -/
def decryptOaep (k : PrivateKey) (ciphertext : Bytes) : Except CryptoError Bytes :=
  let c := Bytes.toNatBE ciphertext
  if ciphertext.length ≠ k.size ∨ k.size < 42 ∨ k.modulus ≤ c then .error .decryptionFailed
  else
    match unpadOaep (k.apply c) with
    | some message => .ok message
    | none => .error .decryptionFailed

/-- The signature of a message, which leaves room for eleven octets of padding. -/
def signRaw (k : PrivateKey) (message : Bytes) : Except CryptoError Bytes :=
  if k.size < message.length + 11 then .error .signingFailed
  else
    let block := 0 :: 1 :: List.replicate (k.size - 3 - message.length) 0xFF ++ 0 :: message
    .ok (k.apply (Bytes.toNatBE block))

end PrivateKey
end Raop
