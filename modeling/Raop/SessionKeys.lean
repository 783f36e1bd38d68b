/-
# Session keys

The key of a stream arrives encrypted for the receiver's private key, beside
the initial vector in the clear; both are sixteen octets in base64.

Key definitions: `SessionKeys.unwrap`.
-/
import Raop.Crypto.Base64
import Raop.Crypto.Cbc
import Raop.Crypto.Rsa

namespace Raop.SessionKeys

/-- The octets of a base64 text. -/
def decodeBase64 (s : String) : Except CryptoError Bytes :=
  match Base64.decode? s with
  | some bs => .ok bs
  | none => .error .invalidBase64

/-- The key and the initial vector of a stream. Both texts are decoded, and the key is decrypted,
before any length is looked at. -/
def unwrap (privateKey : Option PrivateKey) (wrappedKey iv : String) :
    Except CryptoError Decryptor :=
  match privateKey with
  | none => .error .missingPrivateKey
  | some k => do
    let wrapped ← decodeBase64 wrappedKey
    let key ← k.decryptOaep wrapped
    let iv ← decodeBase64 iv
    Decryptor.ofBytes key iv

end Raop.SessionKeys
