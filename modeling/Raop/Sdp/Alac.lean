/-
# Parameters of the lossless format

The options of the format are eleven numbers, each within the width of its
field. Laid out in order they are the twenty-four octets that a decoder is set
up with.

Key definitions: `AlacParameters`, `AlacParameters.ofOptions`, `AlacParameters.cookie`.
-/
import Raop.Bytes
import Raop.Sdp.Error

namespace Raop

/-- The parameters of the lossless format. -/
structure AlacParameters where
  framesPerPacket : UInt32
  compatibleVersion : UInt8
  bitDepth : UInt8
  pb : UInt8
  mb : UInt8
  kb : UInt8
  channels : UInt8
  maxRun : UInt16
  maxFrameBytes : UInt32
  avgBitRate : UInt32
  sampleRate : UInt32
  deriving DecidableEq, Repr, Inhabited

namespace AlacParameters

/-- The number of options. -/
def tokenCount : Nat := 11

/-- The field of a name, read from its token. -/
def field {α : Type} (read : List Char → Option α) (name token : String) : Except SdpError α :=
  match read token.toList with
  | some a => .ok a
  | none => .error (.invalidAlacParameters (name ++ ": " ++ Text.quote token))

/-- The parameters in the options of a format. -/
def ofOptions (options : List String) : Except SdpError AlacParameters :=
  match options with
  | [t0, t1, t2, t3, t4, t5, t6, t7, t8, t9, t10] => do
    let framesPerPacket ← field Text.readU32? "frameLength" t0
    let compatibleVersion ← field Text.readU8? "compatibleVersion" t1
    let bitDepth ← field Text.readU8? "bitDepth" t2
    let pb ← field Text.readU8? "pb" t3
    let mb ← field Text.readU8? "mb" t4
    let kb ← field Text.readU8? "kb" t5
    let channels ← field Text.readU8? "numChannels" t6
    let maxRun ← field Text.readU16? "maxRun" t7
    let maxFrameBytes ← field Text.readU32? "maxFrameBytes" t8
    let avgBitRate ← field Text.readU32? "avgBitRate" t9
    let sampleRate ← field Text.readU32? "sampleRate" t10
    return { framesPerPacket, compatibleVersion, bitDepth, pb, mb, kb, channels, maxRun,
             maxFrameBytes, avgBitRate, sampleRate }
  | _ => .error (.invalidAlacParameters
      ("expected " ++ Text.natText tokenCount ++ " tokens, got " ++ Text.natText options.length))

/-- The octets that a decoder is set up with. -/
def cookie (p : AlacParameters) : Bytes :=
  Bytes.be32 p.framesPerPacket ++
    [p.compatibleVersion, p.bitDepth, p.pb, p.mb, p.kb, p.channels] ++
    Bytes.be16 p.maxRun ++ Bytes.be32 p.maxFrameBytes ++ Bytes.be32 p.avgBitRate ++
    Bytes.be32 p.sampleRate

end AlacParameters
end Raop
