/-
# Requests

A request has a method, a target, header fields and a body. Written out, its
Content-Length is always that of the body, and absent when the body is empty.

Key definitions: `Request`, `Request.encode`, `Request.bodyText`.
-/
import Raop.Message.Method
import Raop.Message.Headers
import Raop.Text.Utf8

namespace Raop

/-- A request of a sender. -/
structure Request where
  method : Method
  uri : String
  headers : Headers := {}
  body : Bytes := []
  deriving DecidableEq, Repr, Inhabited

namespace Request

/-- The request with a header field stored. -/
def withHeader (r : Request) (name value : String) : Request :=
  { r with headers := r.headers.insert name value }

/-- The request with a sequence number. -/
def withCseq (r : Request) (n : UInt32) : Request := r.withHeader "CSeq" (Text.natText n.toNat)

/-- The request with a body. -/
def withBody (r : Request) (body : Bytes) : Request := { r with body := body }

/-- The body as text, without carriage returns. -/
def bodyText (r : Request) : String :=
  String.ofList ((Text.decodeCharsLossy r.body).filter (· != '\r'))

/-- The header fields as they are sent: without the stored Content-Length, and with the
length of the body at the end if there is one. -/
def wireFields (r : Request) : Headers :=
  ⟨r.headers.entries.filter (fun e => !sameName e.1 "Content-Length") ++
    if r.body.isEmpty then [] else [("Content-Length", Text.natText r.body.length)]⟩

/-- The head of a request, its blank line included. -/
def head (r : Request) : String :=
  r.method.token ++ " " ++ r.uri ++ " RTSP/1.0\r\n" ++ r.wireFields.render ++ "\r\n"

/-- The octets of a request. -/
def encode (r : Request) : Bytes := Text.encode r.head ++ r.body

end Request
end Raop
