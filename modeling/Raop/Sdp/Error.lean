/-
# Why a stream description is refused

Key definitions: `SdpError`, `SdpError.message`.
-/
import Raop.Crypto.Error
import Raop.Text.Quoted

namespace Raop

/-- Why a stream description is refused. -/
inductive SdpError where
  /-- The line is no lower-case letter, `=` and a value. -/
  | invalidLine (line : String)
  /-- The line is not `audio`, a port, `RTP/AVP` and an index. -/
  | invalidMedia (value : String)
  /-- The attribute has no name. -/
  | invalidAttribute (value : String)
  | invalidRtpmap (value : String)
  | invalidFmtp (value : String)
  /-- The format of the media line and the lossless format differ. -/
  | unsupportedFormat (index : Option UInt32)
  /-- The format has no options line. -/
  | missingFmtp (index : Option UInt32)
  /-- The options line holds no option. -/
  | missingFormatOptions (index : UInt32)
  /-- One of key and initial vector is missing. -/
  | incompleteEncryption
  | invalidAlacParameters (detail : String)
  | crypto (cause : CryptoError)
  deriving DecidableEq, Repr, Inhabited

namespace SdpError

/-- A format index that may be missing. -/
def indexText : Option UInt32 → String
  | some n => "Some(" ++ Text.natText n.toNat ++ ")"
  | none => "None"

/-- The text of the error. -/
def message : SdpError → String
  | invalidLine line => "cannot parse SDP line " ++ Text.quote line
  | invalidMedia value => "cannot parse media line " ++ Text.quote value
  | invalidAttribute value => "cannot parse attribute " ++ Text.quote value
  | invalidRtpmap value => "cannot parse rtpmap entry " ++ Text.quote value
  | invalidFmtp value => "cannot parse fmtp entry " ++ Text.quote value
  | unsupportedFormat index => "audio format " ++ indexText index ++ " not supported"
  | missingFmtp index => "audio format " ++ indexText index ++ " lacks fmtp line"
  | missingFormatOptions index =>
    "audio format " ++ Text.natText index.toNat ++ " incomplete, format options not set"
  | incompleteEncryption => "rsaaeskey and aesiv must be announced together"
  | invalidAlacParameters detail => "invalid ALAC parameters: " ++ detail
  | crypto cause => cause.message

instance : ToString SdpError := ⟨message⟩

end SdpError
end Raop
