/-
# The transport specification

A SETUP names the transport and a list of options, each a key with or without
a value. The list keeps its order and its unknown options, so an answer echoes
what was asked, position by position.

Key definitions: `Transport`, `Transport.parse`, `Transport.render`,
`Transport.set`, `Transport.replace?`, `Transport.port?`.
-/
import Raop.Text.Quoted
import Raop.Text.Split

namespace Raop

/-- Why a transport specification is refused. -/
inductive TransportError where
  | unsupportedProtocol (name : String)
  | malformedOption (text : String)
  | unsupportedValue (key value : String)
  | invalidPort (key value : String)
  deriving DecidableEq, Repr, Inhabited

namespace TransportError

/-- The text of the error. -/
def message : TransportError → String
  | unsupportedProtocol name => "unsupported transport protocol: " ++ name
  | malformedOption text => "malformed transport option: " ++ Text.quote text
  | unsupportedValue key value => "unsupported " ++ key ++ ": " ++ value
  | invalidPort key value => "invalid port for " ++ key ++ ": " ++ value

instance : ToString TransportError := ⟨message⟩

end TransportError

/-- An option: a key, and a value unless it is a flag. -/
structure TransportOption where
  key : String
  value : Option String := none
  deriving DecidableEq, Repr, Inhabited

namespace TransportOption

/-- The option in a text: a nonempty name, then `=` and a value or nothing. -/
def parse (text : List Char) : Except TransportError TransportOption :=
  let (key, value) := match Text.splitAt? '=' text with
    | some (key, value) => (key, some (String.ofList value))
    | none => (text, none)
  if Text.isName key then .ok { key := String.ofList key, value }
  else .error (.malformedOption (String.ofList text))

/-- The text of an option. -/
def render (o : TransportOption) : String :=
  match o.value with
  | some value => o.key ++ "=" ++ value
  | none => o.key

/-- The option with its key and a new value. -/
def withValue (o : TransportOption) (value : String) : TransportOption :=
  { o with value := some value }

end TransportOption

/-- The options of the one transport that is supported. -/
structure Transport where
  options : List TransportOption := []
  deriving DecidableEq, Repr, Inhabited

namespace Transport

/-- The name of the transport. -/
def protocol : String := "RTP/AVP/UDP"

def interleaved : String := "interleaved"
def mode : String := "mode"
def controlPort : String := "control_port"
def timingPort : String := "timing_port"
def serverPort : String := "server_port"

/-- The options in the parts between semicolons; the first that is malformed is the error. -/
def parseOptions : List (List Char) → Except TransportError (List TransportOption)
  | [] => .ok []
  | part :: parts =>
    match TransportOption.parse (Text.trimChars part) with
    | .error e => .error e
    | .ok o =>
      match parseOptions parts with
      | .error e => .error e
      | .ok os => .ok (o :: os)

/-- The specification in a text. Semicolons at its end carry no option. -/
def parse (value : String) : Except TransportError Transport :=
  let text := Text.trimEndOf ';' (Text.trimChars value.toList)
  match Text.split ';' text with
  | [] => .error (.unsupportedProtocol "")
  | name :: parts =>
    let name := String.ofList (Text.trimChars name)
    if name = protocol then (parseOptions parts).map fun options => { options }
    else .error (.unsupportedProtocol name)

/-- The text of a specification. -/
def render (t : Transport) : String :=
  protocol ++ String.join (t.options.map fun o => ";" ++ o.render)

/-- The value of the first option of a key. -/
def get? (t : Transport) (key : String) : Option String :=
  (t.options.find? fun o => o.key == key).bind (·.value)

/-- A value as a port number. -/
def readPort (key value : String) : Except TransportError UInt16 :=
  match Text.readU16? value.toList with
  | some n => .ok n
  | none => .error (.invalidPort key value)

/-- The port that the first option of a key names, if it has a value. -/
def port? (t : Transport) (key : String) : Except TransportError (Option UInt16) :=
  match t.get? key with
  | none => .ok none
  | some value => (readPort key value).map some

/-- The options with the first one of a key changed; nothing if there is none. -/
def replaceIn? (key value : String) : List TransportOption → Option (List TransportOption)
  | [] => none
  | o :: os =>
    if o.key = key then some (o.withValue value :: os)
    else (replaceIn? key value os).map (o :: ·)

/-- The specification with the value of the first option of a key changed; nothing if there is none. -/
def replace? (t : Transport) (key value : String) : Option Transport :=
  (replaceIn? key value t.options).map fun options => { options }

/-- The specification with an option at its end. -/
def push (t : Transport) (o : TransportOption) : Transport := { options := t.options ++ [o] }

/-- The specification with the first option of a key changed, or the option added at its end. -/
def set (t : Transport) (key value : String) : Transport :=
  (t.replace? key value).getD (t.push { key, value := some value })

end Transport
end Raop
