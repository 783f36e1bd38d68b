/-
# Decoders

A decoder factory looks at the announced stream and decides on a decoder. The
one for plain samples accepts sixteen bits per sample; the default one knows
the lossless format by name only and refuses it.

Key definitions: `DecodeError`, `Decoder`, `Decoder.decode`, `DecoderFactory.create`.
-/
import Raop.Audio.Format
import Raop.Sdp.Stream

namespace Raop

/-- Why sound is not decoded. -/
inductive DecodeError where
  | unsupportedFormat (detail : String)
  | malformed (detail : String)
  deriving DecidableEq, Repr, Inhabited

/-- The text of the error. -/
def DecodeError.message : DecodeError → String
  | unsupportedFormat detail => "unsupported audio format: " ++ detail
  | malformed detail => "malformed audio packet: " ++ detail

instance : ToString DecodeError := ⟨DecodeError.message⟩

/-- A decoder of plain samples. -/
structure Decoder where
  format : AudioFormat
  deriving DecidableEq, Repr, Inhabited

namespace Decoder

/-- A 16-bit sample of two octets. -/
def sample (hi lo : UInt8) : Int16 := (UInt16.ofNat (hi.toNat * 256 + lo.toNat)).toInt16

/-- The samples of a payload of whole samples. -/
def samples : Bytes → List Int16
  | hi :: lo :: rest => sample hi lo :: samples rest
  | _ => []

/-- The samples of a payload. -/
def decode (_ : Decoder) (payload : Bytes) : Except DecodeError (List Int16) :=
  if payload.length % 2 ≠ 0 then
    .error (.malformed ("odd PCM payload length " ++ Text.natText payload.length))
  else .ok (samples payload)

end Decoder

/-- How decoders are made for announced streams. -/
inductive DecoderFactory where
  /-- The payload is plain samples. -/
  | plain
  /-- The payload is lossless, for which there is no decoder. -/
  | lossless
  deriving DecidableEq, Repr, Inhabited

namespace DecoderFactory

/-- The format of a stream, that of a compact disc if its options are no lossless parameters. -/
def formatOf (stream : StreamDescription) : AudioFormat :=
  match stream.alac with
  | .ok p => .ofAlac p
  | .error _ => .compactDisc

/-- The decoder of a stream. -/
def create (factory : DecoderFactory) (stream : StreamDescription) :
    Except DecodeError Decoder :=
  match factory with
  | lossless => .error (.unsupportedFormat "AppleLossless (built without the \x60alac\x60 feature)")
  | plain =>
    let format := formatOf stream
    if format.bits ≠ 16 then
      .error (.unsupportedFormat (Text.natText format.bits.toNat ++ "-bit PCM"))
    else .ok { format }

end DecoderFactory
end Raop
