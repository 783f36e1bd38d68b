/-
# Status codes and responses

A response has a status line, header fields and a body. A reply is a response
under construction: its Content-Length is set once, when it is finished, and
only if it was given a body.

Key definitions: `Status`, `Response`, `Response.encode`, `Reply`, `Reply.toResponse`.
-/
import Raop.Message.Headers
import Raop.Text.Utf8

namespace Raop

/-- A three-digit status, or any other 16-bit number that a peer sends in its place. -/
structure Status where
  code : UInt16
  deriving DecidableEq, Repr, Inhabited

namespace Status

def ok : Status := ⟨200⟩
def badRequest : Status := ⟨400⟩
def invalidState : Status := ⟨455⟩
def internalError : Status := ⟨500⟩
def notImplemented : Status := ⟨501⟩

/-- The phrase that goes with a status. -/
def reason (s : Status) : String :=
  match s.code.toNat with
  | 200 => "OK"
  | 400 => "Bad Request"
  | 401 => "Unauthorized"
  | 403 => "Forbidden"
  | 404 => "Not Found"
  | 405 => "Method Not Allowed"
  | 406 => "Not Acceptable"
  | 451 => "Parameter Not Understood"
  | 453 => "Not Enough Bandwidth"
  | 454 => "Session Not Found"
  | 455 => "Method Not Valid in This State"
  | 457 => "Invalid Range"
  | 461 => "Unsupported Transport"
  | 500 => "Internal Server Error"
  | 501 => "Not Implemented"
  | 503 => "Service Unavailable"
  | _ => "Unknown"

/-- The request succeeded. -/
def isSuccess (s : Status) : Bool := s.code.toNat / 100 = 2

/-- The sender is at fault. -/
def isClientError (s : Status) : Bool := s.code.toNat / 100 = 4

/-- The receiver is at fault. -/
def isServerError (s : Status) : Bool := s.code.toNat / 100 = 5

end Status

/-- An answer to a request. -/
structure Response where
  version : String := "RTSP/1.0"
  status : Status
  reason : String
  headers : Headers := {}
  body : Bytes := []
  deriving DecidableEq, Repr, Inhabited

namespace Response

/-- The response with a header field stored. -/
def withHeader (r : Response) (name value : String) : Response :=
  { r with headers := r.headers.insert name value }

/-- The body as text. -/
def bodyText (r : Response) : String := Text.decodeLossy r.body

/-- The head of a response, its blank line included. -/
def head (r : Response) : String :=
  r.version ++ " " ++ Text.natText r.status.code.toNat ++ " " ++ r.reason ++ "\r\n" ++
    r.headers.render ++ "\r\n"

/-- The octets of a response. -/
def encode (r : Response) : Bytes := Text.encode r.head ++ r.body

end Response

/-- A response under construction. -/
structure Reply where
  status : Status := .ok
  headers : Headers := {}
  body : Option Bytes := none
  deriving DecidableEq, Repr, Inhabited

namespace Reply

/-- The reply with a header field stored. -/
def withHeader (r : Reply) (name value : String) : Reply :=
  { r with headers := r.headers.insert name value }

/-- The reply with a sequence number. -/
def withCseq (r : Reply) (n : UInt32) : Reply := r.withHeader "CSeq" (Text.natText n.toNat)

/-- The reply with a session identifier. -/
def withSession (r : Reply) (id : String) : Reply := r.withHeader "Session" id

/-- The reply with a body of a media type. -/
def withBody (r : Reply) (body : Bytes) (mediaType : String) : Reply :=
  { r.withHeader "Content-Type" mediaType with body := some body }

/-- The reply with parameter lines as its body. -/
def withText (r : Reply) (text : String) : Reply := r.withBody (Text.encode text) "text/parameters"

/-- The finished response: the reason of its status, and the length of its body if it has one. -/
def toResponse (r : Reply) : Response :=
  { status := r.status
    reason := r.status.reason
    headers := match r.body with
      | some body => r.headers.insert "Content-Length" (Text.natText body.length)
      | none => r.headers
    body := r.body.getD [] }

end Reply
end Raop
