/-
# The description of a stream

Scanning the lines of a description collects the format index of the media
line, the index of the lossless format, the index and the options of the
format, the key, the initial vector and the least latency; of a repeated line
the last one counts, but an options line without options leaves the options of
an earlier one. The three indexes must agree.

Key definitions: `Scan`, `Scan.ofBody`, `StreamDescription`, `StreamDescription.validate`,
`StreamDescription.parse`.
-/
import Raop.Sdp.Alac
import Raop.Sdp.Line
import Raop.SessionKeys

namespace Raop

/-- What the lines of a description say. -/
structure Scan where
  /-- The format index of the media line. -/
  audio : Option UInt32 := none
  /-- The index of the lossless format. -/
  lossless : Option UInt32 := none
  /-- The index of the options line. -/
  fmtp : Option UInt32 := none
  options : Option (List String) := none
  wrappedKey : Option String := none
  iv : Option String := none
  minLatency : Option UInt32 := none
  deriving DecidableEq, Repr, Inhabited

namespace Scan

/-- The name of the lossless format. -/
def losslessName : String := "AppleLossless"

/-- What an attribute adds. -/
def addAttribute (s : Scan) (name : String) (value : List Char) : Except SdpError Scan :=
  if name = "rtpmap" then
    match SdpLine.rtpmap value with
    | .error e => .error e
    | .ok (index, encoding) =>
      .ok (if encoding = losslessName.toList then { s with lossless := some index } else s)
  else if name = "fmtp" then
    match SdpLine.fmtp value with
    | .error e => .error e
    | .ok (index, options) =>
      .ok { s with
        fmtp := some index
        options := if options.isEmpty then s.options else some options }
  else if name = "rsaaeskey" then .ok { s with wrappedKey := some (String.ofList value) }
  else if name = "aesiv" then .ok { s with iv := some (String.ofList value) }
  else if name = "min-latency" then
    .ok { s with minLatency := Text.readU32? (Text.trimChars value) }
  else .ok s

/-- What a line adds. -/
def add (s : Scan) (line : SdpLine) : Except SdpError Scan :=
  if line.kind = 'm' then
    (SdpLine.media line.value).map fun index => { s with audio := some index }
  else if line.kind = 'a' then
    match SdpLine.splitAttribute line.value with
    | .error e => .error e
    | .ok (name, value) => s.addAttribute name value
  else .ok s

/-- What the lines of a body say. -/
def ofBody (body : String) : Except SdpError Scan :=
  match SdpLine.parseAll body with
  | .error e => .error e
  | .ok lines => lines.foldlM add {}

/-- The format index and its options, if the indexes agree and there are options. -/
def format (s : Scan) : Except SdpError (UInt32 × List String) :=
  if s.lossless ≠ s.audio then .error (.unsupportedFormat s.audio)
  else if s.audio ≠ s.fmtp then .error (.missingFmtp s.audio)
  else match s.audio, s.options with
    | some index, some options => .ok (index, options)
    | audio, _ => .error (.missingFormatOptions (audio.getD 0))

/-- The decryptor of the stream, if it is encrypted. -/
def keys (s : Scan) (privateKey : Option PrivateKey) : Except SdpError (Option Decryptor) :=
  match s.wrappedKey, s.iv with
  | some key, some iv =>
    match SessionKeys.unwrap privateKey key iv with
    | .ok d => .ok (some d)
    | .error e => .error (.crypto e)
  | none, none => .ok none
  | _, _ => .error .incompleteEncryption

end Scan

/-- A stream that is announced. -/
structure StreamDescription where
  formatIndex : UInt32
  options : List String
  keys : Option Decryptor
  minLatency : Option UInt32
  deriving DecidableEq, Repr, Inhabited

namespace StreamDescription

/-- The format index of a body, whose keys are not looked at. -/
def validate (body : String) : Except SdpError UInt32 :=
  match Scan.ofBody body with
  | .error e => .error e
  | .ok s => s.format.map (·.1)

/-- The stream that a body describes. -/
def parse (body : String) (privateKey : Option PrivateKey) : Except SdpError StreamDescription :=
  match Scan.ofBody body with
  | .error e => .error e
  | .ok s =>
    match s.format with
    | .error e => .error e
    | .ok (formatIndex, options) =>
      (s.keys privateKey).map fun keys =>
        { formatIndex, options, keys, minLatency := s.minLatency }

/-- The stream is encrypted. -/
def isEncrypted (s : StreamDescription) : Bool := s.keys.isSome

/-- The parameters of the lossless format. -/
def alac (s : StreamDescription) : Except SdpError AlacParameters :=
  AlacParameters.ofOptions s.options

end StreamDescription
end Raop
