/-
# Parameter bodies

A parameter body is lines of a name, a colon and a value; blank lines do not
count. The one parameter that matters is the volume, in decibels.

Key definitions: `Parameters.parse`, `Parameters.parseVolume`, `Parameters.volumeBody`.
-/
import Raop.Error
import Raop.Message.Request
import Raop.Number.Single

namespace Raop.Parameters

/-- The media type of parameter bodies. -/
def mediaType : String := "text/parameters"

/-- The name of the volume. -/
def volume : String := "volume"

/-- The request's body is read as parameters: it has no media type, or theirs. -/
def areIn (request : Request) : Bool :=
  match request.headers.contentType? with
  | none => true
  | some type => type = mediaType

/-- The lines of a body without line ends, blank lines left out. -/
def lines (body : List Char) : List (List Char) :=
  ((Text.split '\n' body).map (Text.trimEndOf '\r')).filter fun line => !line.isEmpty

/-- The name and the value of a line, the value without spaces in front. -/
def parseLine (line : List Char) : Except Error (String × String) :=
  let invalid := Error.protocol ("cannot parse parameter line " ++ Text.quote (String.ofList line))
  match Text.splitAt? ':' line with
  | none => .error invalid
  | some (name, value) =>
    if Text.isName name then
      .ok (String.ofList name, String.ofList (value.dropWhile (· == ' ')))
    else .error invalid

/-- The names and values of a body; the first malformed line is the error. -/
def parse (body : String) : Except Error (List (String × String)) :=
  (lines body.toList).mapM parseLine

/-- A volume, which is a number. -/
def parseVolume (value : String) : Except Error Float32 :=
  match Single.read? (Text.trimChars value.toList) with
  | some db =>
    if db.isNaN then .error (.protocol ("invalid volume " ++ Text.quote value)) else .ok db
  | none => .error (.protocol ("invalid volume " ++ Text.quote value))

/-- The body that gives the volume. -/
def volumeBody (value : String) : String := volume ++ ": " ++ value ++ "\r\n"

/-- A volume with six places. -/
def formatVolume (db : Float32) : String := Single.fixed 6 db

end Raop.Parameters
