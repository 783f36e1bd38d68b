/-
# Cipher block chaining of payloads

Each payload starts its chain anew from the initial vector: a whole block is
decrypted and added to the block before it, which for the first block is the
initial vector. Octets after the last whole block are not encrypted.

Key definitions: `Cbc.decrypt`, `Decryptor`, `Decryptor.ofBytes`, `Decryptor.decrypt`.
-/
import Raop.Crypto.Aes
import Raop.Crypto.Error

namespace Raop

namespace Cbc

/-- The octets of a block. -/
def blockSize : Nat := 16

/-- The payload decrypted after the block `prev`, in front of which `done` stands in reverse. -/
def decryptOnto (cipher : Bytes → Bytes) (done prev payload : Bytes) : Bytes :=
  let block := payload.take blockSize
  if _h : block.length = blockSize then
    decryptOnto cipher ((Aes.xor (cipher block) prev).reverse ++ done) block
      (payload.drop blockSize)
  else done.reverse ++ payload
  termination_by payload.length
  decreasing_by
    have h := ‹block.length = blockSize›
    simp only [block, List.length_take, blockSize] at h
    simp only [List.length_drop, blockSize]
    omega

/-- A payload decrypted under a block decryption and an initial vector. -/
def decrypt (cipher : Bytes → Bytes) (iv payload : Bytes) : Bytes :=
  decryptOnto cipher [] iv payload

end Cbc

/-- A key and an initial vector of sixteen octets each. -/
structure Decryptor where
  key : Bytes
  iv : Bytes
  deriving DecidableEq, Repr, Inhabited

namespace Decryptor

/-- The octets of a key and of an initial vector. -/
def keySize : Nat := 16

/-- The decryptor of a key and an initial vector, if both have the right length. -/
def ofBytes (key iv : Bytes) : Except CryptoError Decryptor :=
  if key.length ≠ keySize then .error (.invalidKeyLength keySize key.length)
  else if iv.length ≠ keySize then .error (.invalidKeyLength keySize iv.length)
  else .ok { key, iv }

/-- A payload decrypted. -/
def decrypt (d : Decryptor) (payload : Bytes) : Bytes :=
  let keys := Aes.roundKeys d.key
  Cbc.decrypt (Aes.decryptWith keys) d.iv payload

end Decryptor
end Raop
