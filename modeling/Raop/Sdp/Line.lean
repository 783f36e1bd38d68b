/-
# Lines of a stream description

A description is lines of a lower-case letter, `=` and a value; blank lines may
follow the last one. Media lines and attributes have a form of their own.

Key definitions: `SdpLine`, `SdpLine.parseAll`, `SdpLine.media`, `SdpLine.splitAttribute`,
`SdpLine.rtpmap`, `SdpLine.fmtp`.
-/
import Raop.Sdp.Error
import Raop.Text.Split

namespace Raop

/-- A line: its letter and its value. -/
structure SdpLine where
  kind : Char
  value : List Char
  deriving DecidableEq, Repr, Inhabited

namespace SdpLine

/-- The line in a text without its line end. -/
def parse (line : List Char) : Except SdpError SdpLine :=
  match line with
  | kind :: '=' :: value =>
    if kind.isLower then .ok { kind, value } else .error (.invalidLine (String.ofList line))
  | _ => .error (.invalidLine (String.ofList line))

/-- The raw lines of a body, without line ends and without blank lines at the end. -/
def rawLines (body : List Char) : List (List Char) :=
  Text.dropEndWhile List.isEmpty ((Text.split '\n' body).map (Text.trimEndOf '\r'))

/-- The lines of a body; the first malformed one is the error. -/
def parseAll (body : String) : Except SdpError (List SdpLine) :=
  (rawLines body.toList).mapM parse

/-- A format index: digits alone. -/
def index? (cs : List Char) : Option UInt32 :=
  if cs.all Char.isDigit then Text.readU32? cs else none

/-- A text behind the given start. -/
def after? (start : String) (cs : List Char) : Option (List Char) :=
  if start.toList.isPrefixOf cs then some (cs.drop start.length) else none

/-- The format index of a media line. -/
def media (value : List Char) : Except SdpError UInt32 :=
  let index := do
    let rest ← after? "audio " value
    let (port, rest) ← Text.splitAt? ' ' rest
    if port.isEmpty then none
    index? (← after? "RTP/AVP " rest)
  match index with
  | some n => .ok n
  | none => .error (.invalidMedia (String.ofList value))

/-- The name and the value of an attribute: the longest run of name characters, and what follows
it less one colon. -/
def splitAttribute (value : List Char) : Except SdpError (String × List Char) :=
  let name := value.takeWhile Text.isNameChar
  let rest := match value.dropWhile Text.isNameChar with
    | ':' :: rest => rest
    | rest => rest
  if name.isEmpty then .error (.invalidAttribute (String.ofList value))
  else .ok (String.ofList name, rest)

/-- The index and the encoding of a format. -/
def rtpmap (value : List Char) : Except SdpError (UInt32 × List Char) :=
  let entry := do
    let (index, encoding) ← Text.splitAt? ' ' value
    return (← index? index, encoding)
  match entry with
  | some e => .ok e
  | none => .error (.invalidRtpmap (String.ofList value))

/-- The index and the options of a format. -/
def fmtp (value : List Char) : Except SdpError (UInt32 × List String) :=
  match Text.wordsChars value with
  | [] => .error (.invalidFmtp (String.ofList value))
  | index :: options =>
    match index? index with
    | some n => .ok (n, options.map String.ofList)
    | none => .error (.invalidFmtp (String.ofList value))

end SdpLine
end Raop
