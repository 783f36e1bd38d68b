/-
# Requests that are passed on are read again

What a reader takes from octets is fit to be sent (`sendable_of_next`): its
method is a token, its target a word, its fields have distinct names and no
line end in them, and its body is within the limit. Such a request is written
so that a reader takes exactly it, whatever follows (`next_encode`): with the
Content-Length of its body in place of the one it came with. So a chain of
requests written one after the other is read as the same requests
(`drain_encode`), and nothing in a target, a field or a body can start a
request of its own.

Key definitions: `Request.Sendable`, `Request.Readable`, `Request.PassedOn`.
Key theorems: `RequestReader.sendable_of_next`, `RequestReader.next_encode`,
`RequestReader.drain_encode_of_readable`.
-/
import Raop.Proofs.Message.Pieces
import Raop.Proofs.Message.Preamble

namespace Raop

open Text

/-! ### Methods -/

namespace Method

theorem isKnown_of_mem_known {m : Method} (h : m ∈ known) : m.isKnown = true := by
  revert m
  decide

/-- A method that was read from a token is read from its own token. -/
theorem ofToken?_token_of_ofToken? {t : String} {m : Method} (h : ofToken? t = some m) :
    ofToken? m.token = some m := by
  have h' := h
  rw [ofToken?] at h'
  split at h'
  · simp only [Option.some.injEq] at h'
    cases hf : known.find? fun m => m.token.toList == t.toList.map Char.toUpper with
    | none =>
      rw [hf, Option.getD_none] at h'
      subst h'
      exact h
    | some k =>
      rw [hf, Option.getD_some] at h'
      rw [← h']
      exact ofToken?_token k (isKnown_of_mem_known (List.mem_of_find?_eq_some hf))
  · cases h'

/-- The token of a method is a word. -/
theorem word_token {m : Method} (h : ofToken? m.token = some m) : Word m.token.toList := by
  rw [ofToken?] at h
  split at h
  · next hn => exact word_of_isName hn
  · cases h

end Method

namespace Request

/-! ### Fit to be sent -/

/-- A request as readers take them: each of its parts is read as itself. -/
structure Sendable (r : Request) : Prop where
  method : Method.ofToken? r.method.token = some r.method
  uri : Word r.uri.toList
  fields : ∀ e ∈ r.headers.entries, Headers.Field e
  distinct : (Headers.names r.headers.entries).Nodup
  body : r.body.length ≤ RequestReader.maxBody

/-- A reader that was fed some octets takes the request. -/
def Readable (r : Request) : Prop :=
  ∃ data reader, (({} : RequestReader).feed data).next = (.ok (some r), reader)

/-- A request that was sent and what was read of it: the same but for the Content-Length, which is
that of the body, at the end, if there is a body. -/
structure PassedOn (sent got : Request) : Prop where
  method : got.method = sent.method
  uri : got.uri = sent.uri
  body : got.body = sent.body
  fields : got.headers.entries =
    sent.headers.entries.filter (fun e => !sameName e.1 "Content-Length") ++
      if sent.body = [] then [] else [("Content-Length", natText sent.body.length)]

end Request

namespace RequestReader

/-- What a request line names is fit to be sent. -/
theorem RequestLine.fit {line : List Char} {m : Method} {uri : String} (h : RequestLine line m uri) :
    Method.ofToken? m.token = some m ∧ Word uri.toList := by
  obtain ⟨token, protocol, hwords, hmethod, -⟩ := h
  have hmem : uri.toList ∈ wordsChars line := by simp [wordsChars_eq_iff.2 hwords]
  exact ⟨Method.ofToken?_token_of_ofToken? hmethod, word_of_mem_wordsChars hmem⟩

/-- **What a reader takes is fit to be sent.** -/
theorem sendable_of_next {r r' : RequestReader} {request : Request}
    (h : r.next = (.ok (some request), r')) : request.Sendable := by
  obtain ⟨head, rest, preamble, n, -, hp, -, rfl, -⟩ := next_eq_taken_iff.1 h
  obtain ⟨text, -, hh, hk⟩ := readPreamble_eq_ok_iff.1 hp
  obtain ⟨line, lines, hs, hline, ho, -⟩ := readHead_eq_ok_iff.1 hh
  have hlines : ∀ l ∈ lines, OneLine l := fun l hl =>
    oneLine_of_mem_splitCrlf (hs ▸ List.mem_cons_of_mem _ hl)
  obtain ⟨hmethod, huri⟩ := (readRequestLine_eq_ok_iff.1 hline).fit
  exact ⟨hmethod, huri, Headers.field_of_ofLines hlines ho, Headers.nodup_of_ofLines ho,
    (List.length_take_le _ _).trans (bodyLength_eq_ok_iff.1 hk).1⟩

end RequestReader

namespace Request

/-! ### Sent and read again -/

/-- The fields that are kept when a request is sent: all but its Content-Length. -/
def keptFields (r : Request) : List (String × String) :=
  r.headers.entries.filter fun e => !sameName e.1 "Content-Length"

theorem sameName_of_mem_keptFields {r : Request} {e : String × String} (h : e ∈ r.keptFields) :
    sameName e.1 "Content-Length" = false := by
  simpa using (List.mem_filter.1 h).2

theorem wireFields_of_nil {r : Request} (h : r.body = []) : r.wireFields = ⟨r.keptFields⟩ := by
  simp [wireFields, keptFields, h]

theorem wireFields_of_ne_nil {r : Request} (h : r.body ≠ []) :
    r.wireFields = ⟨r.keptFields ++ [("Content-Length", natText r.body.length)]⟩ := by
  simp [wireFields, keptFields, h]

theorem Sendable.field_of_mem_wireFields {r : Request} (hr : r.Sendable) {e : String × String}
    (h : e ∈ r.wireFields.entries) : Headers.Field e := by
  have hkept : ∀ e ∈ r.keptFields, Headers.Field e := fun e he =>
    hr.fields e (List.mem_filter.1 he).1
  by_cases hb : r.body = []
  · rw [wireFields_of_nil hb] at h
    exact hkept e h
  · rw [wireFields_of_ne_nil hb] at h
    rcases List.mem_append.1 h with h | h
    · exact hkept e h
    · rw [List.mem_singleton.1 h]
      exact Headers.field_of_word (by decide) (by decide) (word_natText _)

theorem Sendable.nodup_wireFields {r : Request} (hr : r.Sendable) :
    (Headers.names r.wireFields.entries).Nodup := by
  have hkept : (Headers.names r.keptFields).Nodup :=
    hr.distinct.sublist (List.filter_sublist.map _)
  by_cases hb : r.body = []
  · rw [wireFields_of_nil hb]
    exact hkept
  · rw [wireFields_of_ne_nil hb, Headers.names_append]
    refine List.nodup_append.2 ⟨hkept, by simp [Headers.names], ?_⟩
    intro a ha b hb' hab
    obtain ⟨e, he, rfl⟩ := List.mem_map.1 ha
    have hcl : foldCase e.1 = foldCase "Content-Length" :=
      hab.trans (List.mem_singleton.1 hb')
    have := sameName_of_mem_keptFields he
    rw [Headers.sameName_iff.2 hcl] at this
    cases this

/-- The fields that are sent announce the length of the body. -/
theorem Sendable.bodyLength_wireFields {r : Request} (hr : r.Sendable) :
    RequestReader.bodyLength r.wireFields = .ok r.body.length := by
  have hkept : r.keptFields.find? (fun e => sameName e.1 "Content-Length") = none := by
    rw [List.find?_eq_none]
    intro e he
    simp [sameName_of_mem_keptFields he]
  refine RequestReader.bodyLength_eq_ok_iff.2 ⟨hr.body, ?_⟩
  by_cases hb : r.body = []
  · refine .inl ⟨?_, by rw [hb]; rfl⟩
    rw [wireFields_of_nil hb, Headers.get?, hkept]
    rfl
  · have hname : sameName "Content-Length" "Content-Length" = true := by decide
    refine .inr ⟨natText r.body.length, ?_, ?_⟩
    · rw [wireFields_of_ne_nil hb, Headers.get?, List.find?_append, hkept, Option.none_or]
      simp only [List.find?_cons, hname]
      rfl
    · rw [trimChars_of_word (word_natText _)]
      exact numeral_natText _

/-- The first line of a request. -/
def requestLine (r : Request) : List Char :=
  r.method.token.toList ++ ' ' :: (r.uri.toList ++ ' ' :: "RTSP/1.0".toList)

theorem Sendable.oneLine_requestLine {r : Request} (hr : r.Sendable) : OneLine r.requestLine := by
  refine OneLine.append_cons (by decide) (by decide)
    (Headers.oneLine_of_word (Method.word_token hr.method)) ?_
  refine OneLine.append_cons (by decide) (by decide) (Headers.oneLine_of_word hr.uri) ?_
  exact Headers.oneLine_of_word (by decide)

/-- The first line reads as the method and the target. -/
theorem Sendable.readRequestLine_requestLine {r : Request} (hr : r.Sendable) :
    RequestReader.readRequestLine r.requestLine = .ok (r.method, r.uri) := by
  have hwords : wordsChars r.requestLine =
      [r.method.token.toList, r.uri.toList, "RTSP/1.0".toList] := by
    rw [requestLine, wordsChars_append_blank _ (Method.word_token hr.method) (by decide),
      wordsChars_append_blank _ hr.uri (by decide), wordsChars_of_word (by decide)]
  have hp : "RTSP/".toList.isPrefixOf "RTSP/1.0".toList = true := by decide
  rw [RequestReader.readRequestLine]
  simp only [hwords, String.ofList_toList, hr.method, hp, if_true]

/-- A head is written as its lines and an empty line. -/
theorem toList_head (r : Request) :
    r.head.toList =
      joinLines (r.requestLine :: r.wireFields.entries.map Headers.fieldLine) ++ ['\r', '\n'] := by
  have h1 : " ".toList = [' '] := by decide
  have h2 : " RTSP/1.0\r\n".toList = ' ' :: "RTSP/1.0".toList ++ ['\r', '\n'] := by decide
  have h3 : "\r\n".toList = ['\r', '\n'] := by decide
  rw [head, joinLines_cons, requestLine]
  simp only [String.toList_append, Headers.toList_render, h1, h2, h3]
  simp

/-- What is sent is a request without its body and the length of the body. -/
theorem Sendable.readHead_eq {r : Request} (hr : r.Sendable) {text : List Char}
    (ht : splitCrlf text = r.requestLine :: r.wireFields.entries.map Headers.fieldLine) :
    RequestReader.readHead text = .ok { r with headers := r.wireFields, body := [] } :=
  RequestReader.readHead_eq_ok_iff.2 ⟨_, _, ht, hr.readRequestLine_requestLine,
    Headers.ofLines_fieldLines (fun _ he => hr.field_of_mem_wireFields he) hr.nodup_wireFields, rfl⟩

end Request

namespace RequestReader

/-- **A request that is sent is taken, whatever follows it**, with the fields it was sent with. -/
theorem next_encode {request : Request} (hr : request.Sendable) (rest : Bytes) :
    next ⟨request.encode ++ rest⟩ =
      (.ok (some { request with headers := request.wireFields }), ⟨rest⟩) := by
  obtain ⟨text, hcut, hs⟩ := splitHead?_encode_fields hr.oneLine_requestLine
    (by simp [Request.requestLine]) (fun _ he => hr.field_of_mem_wireFields he) (request.body ++ rest)
  rw [← Request.toList_head, ← List.append_assoc] at hs
  refine next_eq_taken_iff.2 ⟨_, _, _, request.body.length, hs,
    readPreamble_eq_ok_iff.2 ⟨text, decodeChars?_encodeChars text, hr.readHead_eq hcut,
      hr.bodyLength_wireFields⟩, ?_, ?_, ?_⟩
  · rw [List.length_append]
    exact Nat.le_add_right _ _
  · rw [List.take_left]
  · rw [List.drop_left]

/-- Requests that are sent one after the other are drained as they were sent. -/
theorem drain_encode {requests : List Request} (h : ∀ r ∈ requests, r.Sendable) :
    drain ⟨requests.flatMap Request.encode⟩ =
      (requests.map fun r => { r with headers := r.wireFields }, none, {}) := by
  induction requests with
  | nil => exact drain_of_waiting next_empty
  | cons r requests ih =>
    exact drain_of_taken (next_encode (h r List.mem_cons_self) _)
      (ih fun r hr => h r (List.mem_cons_of_mem _ hr))

/-- **Requests that were read are passed on unharmed.** Any requests that a reader can take, written
one after the other and fed to a new reader in one piece, are drained in their order, one for one and
with nothing left. -/
theorem drain_encode_of_readable {requests : List Request} (h : ∀ r ∈ requests, r.Readable) :
    ∃ received, (({} : RequestReader).feed (requests.flatMap Request.encode)).drain =
        (received, none, {}) ∧ List.Forall₂ Request.PassedOn requests received := by
  have hs : ∀ r ∈ requests, r.Sendable := fun r hr => by
    obtain ⟨data, reader, hn⟩ := h r hr
    exact sendable_of_next hn
  refine ⟨_, drain_encode hs, ?_⟩
  rw [List.forall₂_map_right_iff, List.forall₂_same]
  exact fun r _ => ⟨rfl, rfl, rfl, by simp [Request.wireFields]⟩

/-- A request whose body begins with a blank line, with a name that is empty, one in odd case and one
with a carriage return in it. -/
def oddRequest : Request where
  method := .announce
  uri := "rtsp://h/é"
  headers := ⟨[("content-LENGTH", "7"), ("X\rY", "a:\nb"), ("", "")]⟩
  body := blankLine ++ Bytes.ofAscii "FOO"

theorem drain_encode_oddRequest :
    oddRequest.Readable ∧ ∃ received,
      (({} : RequestReader).feed ([oddRequest, oddRequest].flatMap Request.encode)).drain =
        (received, none, {}) ∧
      List.Forall₂ Request.PassedOn [oddRequest, oddRequest] received := by
  have h : oddRequest.Readable :=
    ⟨encode "announce rtsp://h/é RTSP/1.0\r\ncontent-LENGTH: 7\r\nX\rY:  a:\nb \r\n:\r\n\r\n\r\n\r\nFOO",
      {}, by decide +kernel⟩
  exact ⟨h, drain_encode_of_readable (by simp [h])⟩

end RequestReader
end Raop
