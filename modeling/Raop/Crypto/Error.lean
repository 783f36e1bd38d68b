/-
# Why a cryptographic step fails

Key definitions: `CryptoError`, `CryptoError.message`.
-/
import Raop.Text.Numeral

namespace Raop

/-- Why a cryptographic step fails. -/
inductive CryptoError where
  | invalidKeyLength (expected actual : Nat)
  | invalidPrivateKey
  | invalidBase64
  | decryptionFailed
  | signingFailed
  | missingPrivateKey
  deriving DecidableEq, Repr, Inhabited

namespace CryptoError

/-- The text of the error. -/
def message : CryptoError → String
  | invalidKeyLength expected actual =>
    "invalid key length: expected " ++ Text.natText expected ++ ", got " ++ Text.natText actual
  | invalidPrivateKey => "invalid private key"
  | invalidBase64 => "invalid base64"
  | decryptionFailed => "decryption failed"
  | signingFailed => "signing failed"
  | missingPrivateKey => "no RSA private key configured"

instance : ToString CryptoError := ⟨message⟩

end CryptoError
end Raop
