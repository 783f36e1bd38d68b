/-
# Header fields

Header fields form an insertion-ordered map whose names are compared without
regard to ASCII case. Storing a name that is there replaces the entry where it
stands, spelling included.

Key definitions: `Headers`, `Headers.insert`, `Headers.erase`, `Headers.get?`,
`Headers.ofLines`.
-/
import Raop.Text.Split
import Raop.Text.Numeral

namespace Raop

/-- A text in ASCII lower case. -/
def foldCase (s : String) : List Char := s.toList.map Char.toLower

/-- Two names are equal up to ASCII case. -/
def sameName (a b : String) : Bool := foldCase a == foldCase b

/-- Header fields in the order of their first insertion. -/
structure Headers where
  entries : List (String × String) := []
  deriving DecidableEq, Repr, Inhabited

namespace Headers

/-- No fields. -/
def empty : Headers := {}

/-- The entries with `name` stored: in its old place, else at the end. -/
def store (name value : String) : List (String × String) → List (String × String)
  | [] => [(name, value)]
  | e :: es => if sameName e.1 name then (name, value) :: es else e :: store name value es

/-- The entries without the first one called `name`. -/
def discard (name : String) : List (String × String) → List (String × String)
  | [] => []
  | e :: es => if sameName e.1 name then es else e :: discard name es

/-- Stores a field, in the place of one of that name if there is one. -/
def insert (h : Headers) (name value : String) : Headers := ⟨store name value h.entries⟩

/-- Removes the field of a name. -/
def erase (h : Headers) (name : String) : Headers := ⟨discard name h.entries⟩

/-- The value of a field. -/
def get? (h : Headers) (name : String) : Option String :=
  (h.entries.find? fun e => sameName e.1 name).map (·.2)

/-- There is a field of that name. -/
def contains (h : Headers) (name : String) : Bool := (h.get? name).isSome

/-- The number of fields. -/
def size (h : Headers) : Nat := h.entries.length

/-- Fields stored one after the other. -/
def ofList (fields : List (String × String)) : Headers :=
  fields.foldl (fun h f => h.insert f.1 f.2) empty

/-- The sequence number of a request and its answer. -/
def cseq? (h : Headers) : Option UInt32 :=
  (h.get? "CSeq").bind fun v => Text.readU32? (Text.trimChars v.toList)

/-- The announced length of the body. -/
def contentLength? (h : Headers) : Option Nat :=
  (h.get? "Content-Length").bind fun v => Text.readSize? (Text.trimChars v.toList)

/-- The media type of the body. -/
def contentType? (h : Headers) : Option String := h.get? "Content-Type"

/-- The session identifier. -/
def session? (h : Headers) : Option String := h.get? "Session"

/-- The transport specification. -/
def transport? (h : Headers) : Option String := h.get? "Transport"

/-- One header line: a name and a value around the first colon, both trimmed. -/
def fieldOfLine? (line : List Char) : Option (String × String) :=
  (Text.splitAt? ':' line).map fun (name, value) =>
    (String.ofList (Text.trimChars name), String.ofList (Text.trimChars value))

/-- Fields stored from header lines, empty lines aside; the error is the first line that has no colon. -/
def addLines (h : Headers) : List (List Char) → Except String Headers
  | [] => .ok h
  | line :: lines =>
    if line.isEmpty then addLines h lines
    else match fieldOfLine? line with
      | some (name, value) => addLines (h.insert name value) lines
      | none => .error (String.ofList line)

/-- The fields of header lines; the error is the first line that has no colon. -/
def ofLines (lines : List (List Char)) : Except String Headers := addLines empty lines

/-- Fields as they stand on the wire, one line each. -/
def render (h : Headers) : String :=
  String.join (h.entries.map fun (name, value) => name ++ ": " ++ value ++ "\r\n")

end Headers
end Raop
