/-
# Replies are read back

A response whose fields have distinct names, whose first line holds no line
end, and whose Content-Length is that of its body is written so that a reader
takes exactly it, whatever its body is and whatever follows
(`ResponseReader.next_encode`). A reply is such a response, however it came
about: any calls store fields one after the other, each in the place of an
earlier one of its name, and the Content-Length is written last
(`Reply.plain_ofCalls`, `Reply.Plain.sendable_toResponse`). So a reply is read
as the response that was made of it, with nothing left (`Reply.reads_back`).

Key definitions: `Response.Sendable`, `ReplyCall`, `ReplyCall.Plain`, `Reply.ofCalls`,
`Reply.Plain`.
Key theorems: `ResponseReader.next_encode`, `Reply.plain_ofCalls`,
`Reply.Plain.sendable_toResponse`, `Reply.reads_back`.
-/
import Raop.Proofs.Message.Responses
import Raop.Proofs.Text.Numeral

namespace Raop

open Text

/-! ### Responses that are sent -/

namespace Response

/-- A response as readers take them: each part of its head is read as itself, and its fields announce
its body. -/
structure Sendable (r : Response) : Prop where
  version : r.version = "RTSP/1.0"
  oneLine_reason : OneLine r.reason.toList
  fields : ∀ e ∈ r.headers.entries, Headers.Field e
  distinct : (Headers.names r.headers.entries).Nodup
  announced : r.headers.contentLength? = some r.body.length ∨
    r.headers.get? "Content-Length" = none ∧ r.body = []

/-- The first line of a response. -/
def statusLine (r : Response) : List Char :=
  r.version.toList ++ ' ' :: ((natText r.status.code.toNat).toList ++ ' ' :: r.reason.toList)

/-- A head is written as its lines and an empty line. -/
theorem toList_head (r : Response) :
    r.head.toList =
      joinLines (r.statusLine :: r.headers.entries.map Headers.fieldLine) ++ ['\r', '\n'] := by
  have hspace : " ".toList = [' '] := by decide
  have hend : "\r\n".toList = ['\r', '\n'] := by decide
  rw [head, joinLines_cons, statusLine]
  simp only [String.toList_append, Headers.toList_render, hspace, hend]
  simp

namespace Sendable

variable {r : Response}

theorem word_version (hr : r.Sendable) : Word r.version.toList := by
  rw [hr.version]
  decide

theorem oneLine_statusLine (hr : r.Sendable) : OneLine r.statusLine := by
  have hcode : OneLine (natText r.status.code.toNat).toList := Headers.oneLine_of_word (word_natText _)
  refine OneLine.append_cons (by decide) (by decide) (Headers.oneLine_of_word hr.word_version) ?_
  exact OneLine.append_cons (by decide) (by decide) hcode hr.oneLine_reason

/-- The first line reads as the version, the status and the reason, spaces in the reason and all. -/
theorem readStatusLine_statusLine (hr : r.Sendable) :
    ResponseReader.readStatusLine r.statusLine =
      .ok { version := r.version, status := r.status, reason := r.reason } := by
  have hversion : ' ' ∉ r.version.toList := fun h =>
    absurd (hr.word_version.2 _ h) (by decide)
  have hcode : ' ' ∉ (natText r.status.code.toNat).toList := fun h =>
    absurd ((word_natText _).2 _ h) (by decide)
  have hrtsp : "RTSP/".toList.isPrefixOf r.version.toList = true := by
    rw [hr.version]
    decide
  unfold ResponseReader.readStatusLine statusLine
  simp only [splitAt?_append _ hversion, splitAt?_append _ hcode, Option.getD_some, hrtsp, if_true,
    readU16?_natText, String.ofList_toList]

/-- What is sent is a response without its body and the length of the body. -/
theorem readHead_eq (hr : r.Sendable) {text : List Char}
    (ht : splitCrlf text = r.statusLine :: r.headers.entries.map Headers.fieldLine) :
    ResponseReader.readHead text = .ok ({ r with body := [] }, r.body.length) := by
  have hlines := Headers.ofLines_fieldLines hr.fields hr.distinct
  unfold ResponseReader.readHead
  simp only [ht, hr.readStatusLine_statusLine, hlines]
  rcases hr.announced with hlength | ⟨hnone, hbody⟩
  · obtain ⟨value, hget, hread⟩ := Option.bind_eq_some_iff.1 hlength
    simp only [hget, hread]
  · simp only [hnone, hbody, List.length_nil]

end Sendable
end Response

namespace ResponseReader

/-- **A response that is sent is taken, whatever follows it.** -/
theorem next_encode {response : Response} (hr : response.Sendable) (limit : Nat) (rest : Bytes) :
    next { buffer := response.encode ++ rest, limit } =
      (.ok (some response), { buffer := rest, limit }) := by
  obtain ⟨text, hcut, hs⟩ := splitHead?_encode_fields hr.oneLine_statusLine
    (by simp [Response.statusLine]) hr.fields (response.body ++ rest)
  rw [← Response.toList_head, ← List.append_assoc] at hs
  have hread : readHead (decodeCharsLossy (encodeChars text)) =
      .ok ({ response with body := [] }, response.body.length) := by
    rw [decodeCharsLossy_encodeChars]
    exact hr.readHead_eq hcut
  have hwhole : ¬ (response.body ++ rest).length < response.body.length := by
    rw [List.length_append]
    omega
  calc next { buffer := response.encode ++ rest, limit }
      = next { buffer := response.body ++ rest, limit,
               pending := some ({ response with body := [] }, response.body.length) } :=
        next_of_head rfl hs hread
    _ = (.ok (some response), { buffer := rest, limit }) := by
        rw [next_of_pending rfl, if_neg hwhole]
        simp only [List.take_left, List.drop_left]

end ResponseReader

/-! ### How a reply comes about -/

/-- What is called on a reply under construction. -/
inductive ReplyCall where
  | cseq (n : UInt32)
  | session (id : String)
  | header (name value : String)
  | text (body : String)
  | body (octets : Bytes) (mediaType : String)
  deriving DecidableEq, Repr

namespace Reply

/-- The reply after a call. -/
def call (r : Reply) : ReplyCall → Reply
  | .cseq n => r.withCseq n
  | .session id => r.withSession id
  | .header name value => r.withHeader name value
  | .text body => r.withText body
  | .body octets mediaType => r.withBody octets mediaType

/-- The reply of a status after calls in order. -/
def ofCalls (status : Status) (calls : List ReplyCall) : Reply := calls.foldl call { status }

end Reply

namespace ReplyCall

/-- The field that a call stores. -/
def field : ReplyCall → String × String
  | cseq n => ("CSeq", natText n.toNat)
  | session id => ("Session", id)
  | header name value => (name, value)
  | text _ => ("Content-Type", "text/parameters")
  | body _ mediaType => ("Content-Type", mediaType)

/-- The field could have come from a line, and is no Content-Length. -/
structure Plain (c : ReplyCall) : Prop where
  field : Headers.Field c.field
  other : sameName c.field.1 "Content-Length" = false

theorem plain_cseq (n : UInt32) : (cseq n).Plain where
  field := Headers.field_of_word (by decide) (by decide) (word_natText _)
  other := (by decide : sameName "CSeq" "Content-Length" = false)

theorem plain_text (body : String) : (text body).Plain where
  field := Headers.field_of_word (by decide) (by decide) (by decide)
  other := (by decide : sameName "Content-Type" "Content-Length" = false)

end ReplyCall

namespace Reply

/-- A call stores its field, whatever else it does. -/
theorem headers_call (r : Reply) (c : ReplyCall) :
    (r.call c).headers = r.headers.insert c.field.1 c.field.2 := by
  cases c <;> rfl

/-- A reply whose fields are read as themselves, and whose Content-Length is still to come. -/
structure Plain (r : Reply) : Prop where
  fields : ∀ e ∈ r.headers.entries, Headers.Field e
  distinct : (Headers.names r.headers.entries).Nodup
  no_length : foldCase "Content-Length" ∉ Headers.names r.headers.entries

theorem Plain.call {r : Reply} {c : ReplyCall} (hr : r.Plain) (hc : c.Plain) : (r.call c).Plain := by
  have hname : ¬ foldCase "Content-Length" = foldCase c.field.1 := fun h => by
    simpa [hc.other] using Headers.sameName_iff.2 h.symm
  refine ⟨fun e he => ?_, ?_, ?_⟩
  · rw [headers_call] at he
    rcases Headers.mem_store he with rfl | he
    · exact hc.field
    · exact hr.fields e he
  · rw [headers_call]
    exact Headers.nodup_store _ _ hr.distinct
  · rw [headers_call, Headers.insert, Headers.names_store]
    split
    · exact hr.no_length
    · exact fun h => (List.mem_append.1 h).elim hr.no_length fun h => hname (List.mem_singleton.1 h)

theorem Plain.foldl {calls : List ReplyCall} (hcalls : ∀ c ∈ calls, c.Plain) {r : Reply}
    (hr : r.Plain) : (calls.foldl Reply.call r).Plain := by
  induction calls generalizing r with
  | nil => exact hr
  | cons c calls ih =>
    obtain ⟨hc, hcalls⟩ := List.forall_mem_cons.1 hcalls
    exact ih hcalls (hr.call hc)

theorem plain_ofCalls (status : Status) {calls : List ReplyCall} (hcalls : ∀ c ∈ calls, c.Plain) :
    (ofCalls status calls).Plain :=
  Plain.foldl hcalls ⟨by simp, List.nodup_nil, by simp [Headers.names]⟩

theorem oneLine_reason (s : Status) : OneLine s.reason.toList := by
  unfold Status.reason OneLine
  split <;> decide

/-- A finished reply announces its body, if that has a length of 64 bits. -/
theorem Plain.sendable_toResponse {r : Reply} (hr : r.Plain)
    (hlength : r.toResponse.body.length < 18446744073709551616) : r.toResponse.Sendable := by
  obtain ⟨status, headers, body⟩ := r
  cases body with
  | none =>
    have hnone : headers.get? "Content-Length" = none := by
      rw [Headers.get?, Option.map_eq_none_iff, List.find?_eq_none]
      intro e he hname
      exact hr.no_length (List.mem_map.2 ⟨e, he, Headers.sameName_iff.1 hname⟩)
    exact ⟨rfl, oneLine_reason status, hr.fields, hr.distinct, .inr ⟨hnone, rfl⟩⟩
  | some body =>
    refine ⟨rfl, oneLine_reason status, fun e he => ?_, Headers.nodup_store _ _ hr.distinct, .inl ?_⟩
    · rcases Headers.mem_store he with rfl | he
      · exact Headers.field_of_word (by decide) (by decide) (word_natText _)
      · exact hr.fields e he
    · have hget : (headers.insert "Content-Length" (natText body.length)).get? "Content-Length" =
          some (natText body.length) := Headers.get?_insert_self _ _ _
      exact Option.bind_eq_some_iff.2 ⟨_, hget, readSize?_natText hlength⟩

/-- **A reply is read as the response that was made of it.** Whatever calls a reply came about by, if
their fields are trimmed, hold no line end and no colon in their names, and none of them is a
Content-Length, then a new reader whose limit, a size of 64 bits, has room for its octets takes them,
and reads one response from them, the same, with nothing left over. -/
theorem reads_back (status : Status) {calls : List ReplyCall} (hcalls : ∀ c ∈ calls, c.Plain)
    {limit : UInt64} (hlimit : (ofCalls status calls).toResponse.encode.length ≤ limit.toNat) :
    ∃ fed, ResponseReader.feed { limit := limit.toNat } (ofCalls status calls).toResponse.encode =
        .ok fed ∧
      fed.drain = ([(ofCalls status calls).toResponse], none, { limit := limit.toNat }) := by
  have hplain := plain_ofCalls status hcalls
  generalize ofCalls status calls = reply at hlimit hplain ⊢
  have hlength : reply.toResponse.body.length < 18446744073709551616 := by
    have hbody : reply.toResponse.body.length ≤ reply.toResponse.encode.length := by
      rw [Response.encode, List.length_append]
      omega
    have hsize := limit.toNat_lt
    omega
  have hfeed : ResponseReader.feed { limit := limit.toNat } reply.toResponse.encode =
      .ok { buffer := reply.toResponse.encode, limit := limit.toNat } := by
    simp only [ResponseReader.feed, List.length_nil, Nat.zero_add, List.nil_append,
      Nat.not_lt.2 hlimit, if_false]
  have hnext := ResponseReader.next_encode (hplain.sendable_toResponse hlength) limit.toNat []
  have hend : ResponseReader.next { limit := limit.toNat } = (.ok none, { limit := limit.toNat }) :=
    ResponseReader.next_of_unended rfl rfl
  rw [List.append_nil] at hnext
  exact ⟨_, hfeed, ResponseReader.drain_of_taken hnext (ResponseReader.drain_of_waiting hend)⟩

/-- A field with a carriage return and a colon in its value and one without a value, a body that is
replaced by one that begins with a blank line, and a media type that is replaced where it stands. -/
def oddCalls : List ReplyCall :=
  [.header "content-type" "é", .cseq 7, .header "X-Odd" "a\rb: c", .text "volume: 0\r\n",
    .session "", .body (blankLine ++ [255, 0]) "x", .cseq 8]

theorem reads_back_oddCalls :
    (ofCalls .ok oddCalls).toResponse.headers.entries =
        [("Content-Type", "x"), ("CSeq", "8"), ("X-Odd", "a\rb: c"), ("Session", ""),
          ("Content-Length", "6")] ∧
      ∃ fed, ResponseReader.feed { limit := 200 } (ofCalls .ok oddCalls).toResponse.encode = .ok fed ∧
        fed.drain = ([(ofCalls .ok oddCalls).toResponse], none, { limit := 200 }) := by
  have hodd : Headers.Field ("X-Odd", "a\rb: c") :=
    ⟨by decide, by decide, by unfold OneLine; decide, by decide, by unfold OneLine; decide⟩
  have hempty : Headers.Field ("Session", "") :=
    ⟨by decide, by decide, by unfold OneLine; decide, by decide, by unfold OneLine; decide⟩
  have hcalls : ∀ c ∈ oddCalls, c.Plain := by
    simp only [oddCalls, List.forall_mem_cons, List.not_mem_nil, false_imp_iff, implies_true, and_true]
    exact ⟨⟨Headers.field_of_word (by decide) (by decide) (by decide), by decide⟩, ReplyCall.plain_cseq 7,
      ⟨hodd, by decide⟩, ReplyCall.plain_text _, ⟨hempty, by decide⟩,
      ⟨Headers.field_of_word (by decide) (by decide) (by decide), by decide⟩, ReplyCall.plain_cseq 8⟩
  exact ⟨by decide, reads_back .ok hcalls (by decide : _ ≤ (200 : UInt64).toNat)⟩

end Reply
end Raop
