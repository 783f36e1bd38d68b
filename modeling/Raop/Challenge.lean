/-
# Challenge and response

A sender's challenge is answered by a signature over the challenge, the local
address and the hardware address, filled up with zeros.

Key definitions: `Challenge.message`, `Challenge.respond`.
-/
import Raop.Net.Address
import Raop.SessionKeys

namespace Raop.Challenge

/-- The least length of a message. -/
def minLength : Nat := 32

/-- The message that is signed. -/
def message (challenge : Bytes) (ip : IpAddress) (mac : Bytes) : Bytes :=
  Bytes.padTo minLength (challenge ++ ip.octets ++ mac)

/-- The answer to a challenge header. -/
def respond (key : PrivateKey) (challenge : String) (ip : IpAddress) (mac : Bytes) :
    Except CryptoError String := do
  let bs ← SessionKeys.decodeBase64 challenge
  let signature ← key.signRaw (message bs ip mac)
  return Base64.encode signature

end Raop.Challenge
