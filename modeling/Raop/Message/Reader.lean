/-
# Reading messages from a stream

Octets arrive in arbitrary pieces and are kept until a message is complete. A
head ends at the first blank line; the body follows with the announced length.

Requests are read in one go: the octets stay in the buffer until head and body
are both there and both acceptable, so nothing is taken on an error. Responses
are read in two: the head leaves the buffer as soon as it is complete, and is
remembered until its body has arrived.

Key definitions: `splitHead?`, `RequestReader`, `RequestReader.next`,
`RequestReader.drain`, `ResponseReader`, `ResponseReader.next`.
Key theorems: `length_splitHead?`, `RequestReader.next_shorter`.
-/
import Raop.Message.Request
import Raop.Message.Response

namespace Raop

/-- The octets of a blank line after a line: two line ends. -/
def blankLine : Bytes := [13, 10, 13, 10]

/-- `splitHead?` with the octets passed so far in reverse order. -/
def splitHeadAfter (passed : Bytes) : Bytes → Option (Bytes × Bytes)
  | [] => none
  | b :: rest =>
    if blankLine.isPrefixOf (b :: rest) then some (passed.reverse, (b :: rest).drop 4)
    else splitHeadAfter (b :: passed) rest

/-- The octets before the first blank line, and those after it. -/
def splitHead? (bs : Bytes) : Option (Bytes × Bytes) := splitHeadAfter [] bs

theorem splitHeadAfter_eq_some {passed bs head rest : Bytes}
    (h : splitHeadAfter passed bs = some (head, rest)) :
    ∃ front, head = passed.reverse ++ front ∧ bs = front ++ blankLine ++ rest := by
  induction bs generalizing passed with
  | nil => simp [splitHeadAfter] at h
  | cons b bs ih =>
    rw [splitHeadAfter] at h
    split at h
    · next hp =>
      obtain ⟨t, ht⟩ := List.isPrefixOf_iff_prefix.1 hp
      simp only [Option.some.injEq, Prod.mk.injEq] at h
      obtain ⟨rfl, rfl⟩ := h
      refine ⟨[], by simp, ?_⟩
      rw [← ht]
      simp [blankLine]
    · obtain ⟨front, rfl, rfl⟩ := ih h
      exact ⟨b :: front, by simp, by simp⟩

/-- A message is its head, the blank line and the rest. -/
theorem eq_of_splitHead? {bs head rest : Bytes} (h : splitHead? bs = some (head, rest)) :
    bs = head ++ blankLine ++ rest := by
  obtain ⟨front, rfl, rfl⟩ := splitHeadAfter_eq_some h
  simp

theorem length_splitHead? {bs head rest : Bytes} (h : splitHead? bs = some (head, rest)) :
    bs.length = head.length + 4 + rest.length := by
  rw [eq_of_splitHead? h]
  simp [blankLine]
  omega

/-- Why octets are no request. -/
inductive RequestError where
  /-- The request line has not three words, or names another protocol. -/
  | invalidRequestLine (text : String)
  | invalidMethod (token : String)
  /-- A header line without a colon, or a head beyond its limit. -/
  | invalidHeader (text : String)
  | invalidContentLength (value : String)
  | bodyTooLarge (size limit : Nat)
  /-- The head is not well-formed UTF-8. -/
  | invalidUtf8
  deriving DecidableEq, Repr, Inhabited

namespace RequestError

/-- The text of the error. -/
def message : RequestError → String
  | invalidRequestLine text => "Invalid request line: " ++ text
  | invalidMethod token => "Invalid method: " ++ token
  | invalidHeader text => "Invalid header: " ++ text
  | invalidContentLength value => "Invalid Content-Length: " ++ value
  | bodyTooLarge size limit =>
    "Body too large: " ++ Text.natText size ++ " > " ++ Text.natText limit
  | invalidUtf8 => "Invalid UTF-8 in headers"

instance : ToString RequestError := ⟨message⟩

end RequestError

/-- Octets received that belong to no request yet. -/
structure RequestReader where
  buffer : Bytes := []
  deriving DecidableEq, Repr, Inhabited

namespace RequestReader

/-- The largest body of a request. -/
def maxBody : Nat := 1048576

/-- The largest head that may still be incomplete. -/
def maxHead : Nat := 65536

/-- More octets received. -/
def feed (r : RequestReader) (data : Bytes) : RequestReader := ⟨r.buffer ++ data⟩

/-- The request line: a method, a target and a protocol between white space. -/
def readRequestLine (line : List Char) : Except RequestError (Method × String) :=
  match Text.wordsChars line with
  | [method, uri, protocol] =>
    match Method.ofToken? (String.ofList method) with
    | none => .error (.invalidMethod (String.ofList method))
    | some m =>
      if "RTSP/".toList.isPrefixOf protocol then .ok (m, String.ofList uri)
      else .error (.invalidRequestLine ("Invalid protocol: " ++ String.ofList protocol))
  | _ => .error (.invalidRequestLine (String.ofList line))

/-- A request without its body, from the text of its head. -/
def readHead (head : List Char) : Except RequestError Request :=
  match Text.splitCrlf head with
  | [] => .error (.invalidRequestLine "")
  | line :: lines =>
    match readRequestLine line with
    | .error e => .error e
    | .ok (method, uri) =>
      match Headers.ofLines lines with
      | .error line => .error (.invalidHeader line)
      | .ok headers => .ok { method, uri, headers }

/-- The length of the body that the header fields announce: none without the field. -/
def bodyLength (headers : Headers) : Except RequestError Nat :=
  match headers.get? "Content-Length" with
  | none => .ok 0
  | some value =>
    match Text.readSize? (Text.trimChars value.toList) with
    | none => .error (.invalidContentLength value)
    | some n => if maxBody < n then .error (.bodyTooLarge n maxBody) else .ok n

/-- A request without its body and the length of the body, from the octets of its head. -/
def readPreamble (head : Bytes) : Except RequestError (Request × Nat) :=
  match Text.decodeChars? head with
  | none => .error .invalidUtf8
  | some text =>
    match readHead text with
    | .error e => .error e
    | .ok request =>
      match bodyLength request.headers with
      | .error e => .error e
      | .ok n => .ok (request, n)

/-- The next request, if it is complete, and the reader after it. -/
def next (r : RequestReader) : Except RequestError (Option Request) × RequestReader :=
  match splitHead? r.buffer with
  | none =>
    if maxHead < r.buffer.length then (.error (.invalidHeader "Headers too large"), r)
    else (.ok none, r)
  | some (head, rest) =>
    match readPreamble head with
    | .error e => (.error e, r)
    | .ok (request, n) =>
      if rest.length < n then (.ok none, r)
      else (.ok (some { request with body := rest.take n }), ⟨rest.drop n⟩)

/-- A request that was read has left the buffer. -/
theorem next_shorter {r r' : RequestReader} {request : Request}
    (h : r.next = (.ok (some request), r')) : r'.buffer.length < r.buffer.length := by
  unfold next at h
  split at h
  · split at h <;> simp at h
  · next head rest hs =>
    have := length_splitHead? hs
    split at h
    · simp at h
    · split at h
      · simp at h
      · simp only [Prod.mk.injEq] at h
        obtain ⟨-, rfl⟩ := h
        simp only [List.length_drop]
        omega

/-- All complete requests in order, the first error if reading stops at one, and the reader after them. -/
def drain (r : RequestReader) : List Request × Option RequestError × RequestReader :=
  match _step : r.next with
  | (.error e, r') => ([], some e, r')
  | (.ok none, r') => ([], none, r')
  | (.ok (some request), r') =>
    let (requests, e, r'') := drain r'
    (request :: requests, e, r'')
  termination_by r.buffer.length
  decreasing_by exact next_shorter ‹_›

end RequestReader

/-- Why octets are no response. -/
inductive ResponseError where
  | invalidStatusLine (line : String)
  | invalidHeader (line : String)
  | invalidContentLength
  | responseTooLarge (size : Nat)
  deriving DecidableEq, Repr, Inhabited

namespace ResponseError

/-- The text of the error. -/
def message : ResponseError → String
  | invalidStatusLine line => "invalid status line: " ++ line
  | invalidHeader line => "invalid header: " ++ line
  | invalidContentLength => "invalid content length"
  | responseTooLarge size => "response too large: " ++ Text.natText size ++ " bytes"

instance : ToString ResponseError := ⟨message⟩

end ResponseError

/-- Octets received that belong to no response yet, and a head that waits for its body. -/
structure ResponseReader where
  buffer : Bytes := []
  /-- The most octets that the buffer may hold. -/
  limit : Nat := 1048576
  /-- A response without its body, and the length of the body. -/
  pending : Option (Response × Nat) := none
  deriving DecidableEq, Repr, Inhabited

namespace ResponseReader

/-- More octets received; refused beyond the limit. -/
def feed (r : ResponseReader) (data : Bytes) : Except ResponseError ResponseReader :=
  let size := r.buffer.length + data.length
  if r.limit < size then .error (.responseTooLarge size)
  else .ok { r with buffer := r.buffer ++ data }

/-- The reader without anything received. -/
def reset (r : ResponseReader) : ResponseReader := { r with buffer := [], pending := none }

/-- The status line: a version, a status and a reason that may be missing, between single spaces. -/
def readStatusLine (line : List Char) : Except ResponseError Response :=
  let invalid := ResponseError.invalidStatusLine (String.ofList line)
  match Text.splitAt? ' ' line with
  | none => .error invalid
  | some (version, rest) =>
    let (code, reason) := (Text.splitAt? ' ' rest).getD (rest, [])
    if "RTSP/".toList.isPrefixOf version then
      match Text.readU16? code with
      | none => .error invalid
      | some n =>
        .ok { version := String.ofList version, status := ⟨n⟩, reason := String.ofList reason }
    else .error invalid

/-- A response without its body and the length of the body, from the text of its head. -/
def readHead (head : List Char) : Except ResponseError (Response × Nat) :=
  match Text.splitCrlf head with
  | [] => .error (.invalidStatusLine "")
  | line :: lines =>
    match readStatusLine line with
    | .error e => .error e
    | .ok response =>
      match Headers.ofLines lines with
      | .error line => .error (.invalidHeader line)
      | .ok headers =>
        match headers.get? "Content-Length" with
        | none => .ok ({ response with headers }, 0)
        | some value =>
          match Text.readSize? (Text.trimChars value.toList) with
          | none => .error .invalidContentLength
          | some n => .ok ({ response with headers }, n)

/-- The response whose head is `response`, once its body of `n` octets is there. -/
def nextBody (r : ResponseReader) (response : Response) (n : Nat) :
    Option Response × ResponseReader :=
  if r.buffer.length < n then (none, { r with pending := some (response, n) })
  else (some { response with body := r.buffer.take n },
    { r with buffer := r.buffer.drop n, pending := none })

/-- The next response, if it is complete, and the reader after it. A head that is refused is gone. -/
def next (r : ResponseReader) : Except ResponseError (Option Response) × ResponseReader :=
  match r.pending with
  | some (response, n) =>
    let (result, r) := r.nextBody response n
    (.ok result, r)
  | none =>
    match splitHead? r.buffer with
    | none => (.ok none, r)
    | some (head, rest) =>
      let r := { r with buffer := rest }
      match readHead (Text.decodeCharsLossy head) with
      | .error e => (.error e, r)
      | .ok (response, n) =>
        let (result, r) := r.nextBody response n
        (.ok result, r)

/-- A response that was read from its head on has left the buffer. -/
theorem next_shorter {r r' : ResponseReader} {response : Response} (hp : r.pending = none)
    (h : r.next = (.ok (some response), r')) :
    r'.buffer.length < r.buffer.length ∧ r'.pending = none := by
  unfold next at h
  rw [hp] at h
  dsimp only at h
  split at h
  · simp at h
  · next head rest hs =>
    have := length_splitHead? hs
    split at h
    · simp at h
    · next response n _ =>
      unfold nextBody at h
      dsimp only at h
      split at h
      · simp at h
      · simp only [Prod.mk.injEq] at h
        obtain ⟨-, rfl⟩ := h
        exact ⟨by simp only [List.length_drop]; omega, rfl⟩

/-- What is left to read: the octets, and a head that waits. -/
def weight (r : ResponseReader) : Nat := r.buffer.length + if r.pending.isSome then 1 else 0

/-- A response that was read leaves less to read. -/
theorem weight_next {r r' : ResponseReader} {response : Response}
    (h : r.next = (.ok (some response), r')) : r'.weight < r.weight := by
  cases hp : r.pending with
  | none =>
    obtain ⟨hl, hn⟩ := next_shorter hp h
    simp only [weight, hp, hn]
    simpa using hl
  | some p =>
    unfold next at h
    rw [hp] at h
    obtain ⟨head, n⟩ := p
    dsimp only [nextBody] at h
    split at h
    · simp at h
    · simp only [Prod.mk.injEq] at h
      obtain ⟨-, rfl⟩ := h
      simp only [weight, hp, List.length_drop, Option.isSome_none, Option.isSome_some, if_true]
      simp only [Bool.false_eq_true, if_false]
      omega

/-- All complete responses in order, the first error if reading stops at one, and the reader after them. -/
def drain (r : ResponseReader) : List Response × Option ResponseError × ResponseReader :=
  match _step : r.next with
  | (.error e, r') => ([], some e, r')
  | (.ok none, r') => ([], none, r')
  | (.ok (some response), r') =>
    let (responses, e, r'') := drain r'
    (response :: responses, e, r'')
  termination_by r.weight
  decreasing_by exact weight_next ‹_›

end ResponseReader
end Raop
