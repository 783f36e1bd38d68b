/-
# Requests that arrive in pieces

A look at the octets of a request reader has one of three outcomes, and each
comes from one place in the octets (`next_eq_taken_iff`, `next_eq_waiting_iff`,
`next_eq_refused_iff`). More octets change neither a request that is taken nor
a refusal, except that a head which is too long to wait for may turn out to
have ended in time. So where every head of a stream is within the limit, the
requests, the first error and what is left over do not depend on where the
stream was cut (`inPieces_same_of_flatten_eq`).

Key definitions: `RequestReader.HeadAt`.
Key theorems: `RequestReader.next_eq_taken_iff`, `RequestReader.incremental`,
`RequestReader.inPieces_same_of_flatten_eq`.
-/
import Raop.Proofs.Message.Head
import Raop.Proofs.Reading

namespace Raop
namespace RequestReader

open Reading

/-! ### One look -/

/-- A request is taken when its head is acceptable and its body has arrived; head, blank line and
body leave the buffer. -/
theorem next_eq_taken_iff {r r' : RequestReader} {request : Request} :
    r.next = (.ok (some request), r') ↔
      ∃ head rest preamble n, splitHead? r.buffer = some (head, rest) ∧
        readPreamble head = .ok (preamble, n) ∧ n ≤ rest.length ∧
        request = { preamble with body := rest.take n } ∧ r' = ⟨rest.drop n⟩ := by
  unfold next
  constructor
  · intro h
    split at h
    · split at h <;> cases h
    · next head rest hs =>
      split at h
      · cases h
      · next preamble n hp =>
        split at h
        · cases h
        · next hn =>
          cases h
          exact ⟨head, rest, preamble, n, hs, hp, Nat.le_of_not_lt hn, rfl, rfl⟩
  · rintro ⟨head, rest, preamble, n, hs, hp, hn, rfl, rfl⟩
    simp only [hs, hp]
    rw [if_neg (Nat.not_lt.2 hn)]

/-- The reader waits for the end of a head that is not too long yet, or for the body behind an
acceptable head. -/
theorem next_eq_waiting_iff {r r' : RequestReader} :
    r.next = (.ok none, r') ↔ r' = r ∧
      ((splitHead? r.buffer = none ∧ r.buffer.length ≤ maxHead) ∨
        ∃ head rest preamble n, splitHead? r.buffer = some (head, rest) ∧
          readPreamble head = .ok (preamble, n) ∧ rest.length < n) := by
  unfold next
  constructor
  · intro h
    split at h
    · next hs =>
      split at h
      · cases h
      · next hl =>
        cases h
        exact ⟨rfl, .inl ⟨hs, Nat.le_of_not_lt hl⟩⟩
    · next head rest hs =>
      split at h
      · cases h
      · next preamble n hp =>
        split at h
        · next hn =>
          cases h
          exact ⟨rfl, .inr ⟨head, rest, preamble, n, hs, hp, hn⟩⟩
        · cases h
  · rintro ⟨rfl, ⟨hs, hl⟩ | ⟨head, rest, preamble, n, hs, hp, hn⟩⟩
    · simp only [hs]
      rw [if_neg (Nat.not_lt.2 hl)]
    · simp only [hs, hp]
      rw [if_pos hn]

/-- A look is refused for a head that has not ended within the limit, or for what a head says. -/
theorem next_eq_refused_iff {r r' : RequestReader} {e : RequestError} :
    r.next = (.error e, r') ↔ r' = r ∧
      ((splitHead? r.buffer = none ∧ maxHead < r.buffer.length ∧
          e = .invalidHeader "Headers too large") ∨
        ∃ head rest, splitHead? r.buffer = some (head, rest) ∧ readPreamble head = .error e) := by
  unfold next
  constructor
  · intro h
    split at h
    · next hs =>
      split at h
      · next hl =>
        cases h
        exact ⟨rfl, .inl ⟨hs, hl, rfl⟩⟩
      · cases h
    · next head rest hs =>
      split at h
      · next e hp =>
        cases h
        exact ⟨rfl, .inr ⟨head, rest, hs, hp⟩⟩
      · split at h <;> cases h
  · rintro ⟨rfl, ⟨hs, hl, rfl⟩ | ⟨head, rest, hs, hp⟩⟩
    · simp only [hs]
      rw [if_pos hl]
    · simp only [hs, hp]

/-! ### Draining -/

theorem drain_of_taken {r r' r'' : RequestReader} {request : Request} {requests : List Request}
    {e : Option RequestError} (h : r.next = (.ok (some request), r'))
    (hd : r'.drain = (requests, e, r'')) : r.drain = (request :: requests, e, r'') := by
  rw [drain]
  split <;> simp_all

theorem drain_of_waiting {r r' : RequestReader} (h : r.next = (.ok none, r')) :
    r.drain = ([], none, r') := by
  rw [drain]
  split <;> simp_all

theorem drain_of_refused {r r' : RequestReader} {e : RequestError} (h : r.next = (.error e, r')) :
    r.drain = ([], some e, r') := by
  rw [drain]
  split <;> simp_all

/-! ### The heads of a stream -/

/-- The octets of a request head in a stream: up to and with its first blank line, or to the end of
the stream if there is none; the next head begins behind the request that is read there. -/
inductive HeadAt : Bytes → Bytes → Prop
  | ended {stream head rest : Bytes} :
    splitHead? stream = some (head, rest) → HeadAt stream (head ++ blankLine)
  | unfinished {stream : Bytes} : splitHead? stream = none → HeadAt stream stream
  | later {stream head : Bytes} {request : Request} {r' : RequestReader} :
    next ⟨stream⟩ = (.ok (some request), r') → HeadAt r'.buffer head → HeadAt stream head

/-- A head is no longer than its stream. -/
theorem HeadAt.length_le {stream head : Bytes} (h : HeadAt stream head) :
    head.length ≤ stream.length := by
  induction h with
  | ended hs =>
    have := length_splitHead? hs
    simp only [List.length_append, blankLine, List.length_cons, List.length_nil]
    omega
  | unfinished => exact Nat.le_refl _
  | later hn _ ih => exact Nat.le_trans ih (Nat.le_of_lt (next_shorter hn))

/-- Every head of the octets in the buffer is within the limit. -/
def HeadsFit (r : RequestReader) : Prop := ∀ head, HeadAt r.buffer head → head.length ≤ maxHead

theorem next_feed_of_taken {r r' : RequestReader} {request : Request} (data : Bytes)
    (h : r.next = (.ok (some request), r')) :
    (r.feed data).next = (.ok (some request), r'.feed data) := by
  obtain ⟨head, rest, preamble, n, hs, hp, hn, rfl, rfl⟩ := next_eq_taken_iff.1 h
  refine next_eq_taken_iff.2 ⟨head, rest ++ data, preamble, n, splitHead?_append data hs, hp, ?_, ?_, ?_⟩
  · rw [List.length_append]
    omega
  · rw [List.take_append_of_le_length hn]
  · rw [feed, List.drop_append_of_le_length hn]

/-- A refusal stays when more octets come, as long as the heads are within the limit. -/
theorem next_feed_of_refused {r r' : RequestReader} {e : RequestError} (data : Bytes)
    (h : r.next = (.error e, r')) (fit : HeadsFit (r.feed data)) :
    (r.feed data).next = (.error e, r.feed data) := by
  obtain ⟨-, ⟨hs, hl, rfl⟩ | ⟨head, rest, hs, hp⟩⟩ := next_eq_refused_iff.1 h
  · -- too long to wait for, but then its head would be too long in the whole stream too
    exfalso
    cases ht : splitHead? (r.buffer ++ data) with
    | none =>
      have := fit _ (.unfinished ht)
      rw [feed, List.length_append] at this
      omega
    | some p =>
      obtain ⟨head, rest⟩ := p
      have hlt := length_lt_of_splitHead?_append hs ht
      have := fit _ (.ended ht)
      rw [List.length_append] at this
      simp only [blankLine, List.length_cons, List.length_nil] at this
      omega
  · exact next_eq_refused_iff.2 ⟨rfl, .inr ⟨head, rest ++ data, splitHead?_append data hs, hp⟩⟩

/-- A request reader is incremental on streams whose heads are within the limit. -/
theorem incremental :
    Incremental feed next drain (fun r => r.buffer.length) HeadsFit where
  feed_nil r := by simp [feed]
  feed_feed r data more := by simp [feed]
  drain_taken := drain_of_taken
  drain_waiting := drain_of_waiting
  drain_refused := drain_of_refused
  shorter := next_shorter
  taken_feed data h := next_feed_of_taken data h
  waiting_feed data h := by rw [(next_eq_waiting_iff.1 h).1]
  refused_feed data h fit := ⟨_, next_feed_of_refused data h fit⟩
  fits_feed := by
    intro r m r' data h fit
    cases m with
    | none =>
      rw [(next_eq_waiting_iff.1 h).1]
      exact fit
    | some request => exact fun head hh => fit head (.later (next_feed_of_taken data h) hh)

/-- A reader that has received nothing waits. -/
theorem next_empty : next {} = (.ok none, {}) := next_eq_waiting_iff.2 ⟨rfl, .inl ⟨rfl, by decide⟩⟩

/-- **Where a stream is cut does not show.** If every head of a stream is within the limit, then for
any two ways to cut the stream into pieces, feeding them one by one and draining after each gives the
same requests, the same first error, and without an error the same octets left over. -/
theorem inPieces_same_of_flatten_eq {xs ys : List Bytes} (cut : xs.flatten = ys.flatten)
    (heads : ∀ head, HeadAt xs.flatten head → head.length ≤ maxHead) :
    Same (inPieces feed drain {} xs) (inPieces feed drain {} ys) := by
  have hx := incremental.inPieces_same xs next_empty (by simpa [HeadsFit, feed] using heads)
  have hy := incremental.inPieces_same ys next_empty (by simpa [HeadsFit, feed, ← cut] using heads)
  rw [cut] at hx
  exact hx.trans hy.symm

/-- Two requests, one with a blank line in its body, and the beginning of a third. -/
def pipelined : Bytes :=
  Bytes.ofAscii "OPTIONS * RTSP/1.0\r\n\r\nFLUSH * RTSP/1.0\r\nContent-Length: 4\r\n\r\n\r\n\r\nPAUSE"

/-- In one piece, or octet by octet. -/
theorem inPieces_same_pipelined :
    [pipelined].flatten = (pipelined.map fun b => [b]).flatten ∧
      (∀ head, HeadAt [pipelined].flatten head → head.length ≤ maxHead) ∧
      Same (inPieces feed drain {} [pipelined])
        (inPieces feed drain {} (pipelined.map fun b => [b])) := by
  have cut : [pipelined].flatten = (pipelined.map fun b => [b]).flatten := by decide
  have heads : ∀ head, HeadAt [pipelined].flatten head → head.length ≤ maxHead :=
    fun head h => h.length_le.trans (by decide)
  exact ⟨cut, heads, inPieces_same_of_flatten_eq cut heads⟩

end RequestReader
end Raop
