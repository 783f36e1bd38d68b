/-
# Responses that arrive in pieces

A response is read in two: once its head is complete, the head leaves the
buffer and is remembered. A look at a reader with a complete head is therefore
a look at the reader that remembers it already (`next_of_head`), and so only
two kinds of reader are left to look at: one that has not got a head, and one
that waits for a body. More octets change neither a response that is taken nor
a head that is refused, wherever they come in.

A reader also refuses octets beyond its limit. As long as it does not, the
responses, the first error and what is left over, a remembered head included,
do not depend on where the stream was cut (`same_of_cut`). A look never leaves
more in the buffer than there was, so a stream that is within the limit is
never refused (`takesAll_of_length_le`).

Key definitions: `ResponseReader.append`, `ResponseReader.inPieces`, `ResponseReader.TakesAll`.
Key theorems: `ResponseReader.next_of_head`, `ResponseReader.incremental`,
`ResponseReader.takesAll_of_length_le`, `ResponseReader.same_of_cut`.
-/
import Raop.Proofs.Message.Head
import Raop.Proofs.Reading

namespace Raop
namespace ResponseReader

open Reading

/-- More octets received, whatever the limit. -/
def append (r : ResponseReader) (data : Bytes) : ResponseReader := { r with buffer := r.buffer ++ data }

theorem feed_eq_ok_iff {r r' : ResponseReader} {data : Bytes} :
    r.feed data = .ok r' ↔ r.buffer.length + data.length ≤ r.limit ∧ r' = r.append data := by
  simp only [feed, append]
  split
  · next h => simp [Nat.not_le.2 h]
  · next h => simp [Nat.le_of_not_lt h, eq_comm]

/-! ### One look -/

/-- A head that is remembered waits for its body. -/
theorem next_of_pending {r : ResponseReader} {response : Response} {n : Nat}
    (h : r.pending = some (response, n)) :
    r.next = if r.buffer.length < n then (.ok none, r)
      else (.ok (some { response with body := r.buffer.take n }),
        { r with buffer := r.buffer.drop n, pending := none }) := by
  obtain ⟨buffer, limit, pending⟩ := r
  obtain rfl : pending = some (response, n) := h
  simp only [next, nextBody]
  split <;> rfl

theorem next_of_unended {r : ResponseReader} (h : r.pending = none) (hs : splitHead? r.buffer = none) :
    r.next = (.ok none, r) := by
  simp only [next, h, hs]

theorem next_of_refused {r : ResponseReader} {head rest : Bytes} {e : ResponseError}
    (h : r.pending = none) (hs : splitHead? r.buffer = some (head, rest))
    (hp : readHead (Text.decodeCharsLossy head) = .error e) :
    r.next = (.error e, { r with buffer := rest }) := by
  simp only [next, h, hs, hp]

/-- A complete head might as well be remembered already. -/
theorem next_of_head {r : ResponseReader} {head rest : Bytes} {p : Response × Nat}
    (h : r.pending = none) (hs : splitHead? r.buffer = some (head, rest))
    (hp : readHead (Text.decodeCharsLossy head) = .ok p) :
    r.next = next { r with buffer := rest, pending := some p } := by
  simp only [next, h, hs, hp]
  rfl

/-- What a reader can be: it remembers a head, it has not got one, it has one that is refused, or it
has one that it might as well remember. -/
theorem cases_head {P : ResponseReader → Prop}
    (pending : ∀ r response n, r.pending = some (response, n) → P r)
    (unended : ∀ r, r.pending = none → splitHead? r.buffer = none → P r)
    (refused : ∀ r head rest e, r.pending = none → splitHead? r.buffer = some (head, rest) →
      readHead (Text.decodeCharsLossy head) = .error e → P r)
    (head : ∀ r head rest p, r.pending = none → splitHead? r.buffer = some (head, rest) →
      readHead (Text.decodeCharsLossy head) = .ok p →
      P { r with buffer := rest, pending := some p } → P r) (r : ResponseReader) : P r := by
  rcases hpending : r.pending with _ | ⟨response, n⟩
  · rcases hs : splitHead? r.buffer with _ | ⟨octets, rest⟩
    · exact unended r hpending hs
    · rcases hp : readHead (Text.decodeCharsLossy octets) with e | p
      · exact refused r octets rest e hpending hs hp
      · exact head r octets rest p hpending hs hp (pending _ p.1 p.2 rfl)
  · exact pending r response n hpending

/-- How a look at more octets compares: what was taken or refused still is, and a reader that waits
goes on from where it is. -/
structure Persists (data : Bytes) (r : ResponseReader) : Prop where
  taken : ∀ {a r'}, r.next = (.ok (some a), r') → (r.append data).next = (.ok (some a), r'.append data)
  waiting : ∀ {r'}, r.next = (.ok none, r') → (r.append data).next = (r'.append data).next
  refused : ∀ {e r'}, r.next = (.error e, r') → (r.append data).next = (.error e, r'.append data)

namespace Persists

variable {data : Bytes} {r r' : ResponseReader}

theorem of_taken {a : Response} (h : r.next = (.ok (some a), r'))
    (h' : (r.append data).next = (.ok (some a), r'.append data)) : Persists data r where
  taken ht := by
    cases h ▸ ht
    exact h'
  waiting hw := by cases h ▸ hw
  refused he := by cases h ▸ he

theorem of_waiting (h : r.next = (.ok none, r'))
    (h' : (r.append data).next = (r'.append data).next) : Persists data r where
  taken ht := by cases h ▸ ht
  waiting hw := by
    cases h ▸ hw
    exact h'
  refused he := by cases h ▸ he

theorem of_refused {e : ResponseError} (h : r.next = (.error e, r'))
    (h' : (r.append data).next = (.error e, r'.append data)) : Persists data r where
  taken ht := by cases h ▸ ht
  waiting hw := by cases h ▸ hw
  refused he := by
    cases h ▸ he
    exact h'

/-- A look that is the same as another persists with it. -/
theorem congr {s : ResponseReader} (ih : Persists data s) (h : r.next = s.next)
    (h' : (r.append data).next = (s.append data).next) : Persists data r where
  taken ht := h'.trans (ih.taken (h.symm.trans ht))
  waiting hw := h'.trans (ih.waiting (h.symm.trans hw))
  refused he := h'.trans (ih.refused (h.symm.trans he))

end Persists

theorem persists (data : Bytes) (r : ResponseReader) : Persists data r := by
  induction r using cases_head with
  | pending r response n h =>
    have hnext := next_of_pending h
    have hnext' := next_of_pending (r := r.append data) h
    by_cases hn : r.buffer.length < n
    · exact .of_waiting (hnext.trans (if_pos hn)) rfl
    · have hle : n ≤ r.buffer.length := Nat.le_of_not_lt hn
      have hlonger : ¬ (r.append data).buffer.length < n := by
        simp only [append, List.length_append]
        omega
      rw [if_neg hlonger] at hnext'
      simp only [append, List.take_append_of_le_length hle, List.drop_append_of_le_length hle] at hnext'
      exact .of_taken (hnext.trans (if_neg hn)) hnext'
  | unended r h hs => exact .of_waiting (next_of_unended h hs) rfl
  | refused r head rest e h hs hp =>
    exact .of_refused (next_of_refused h hs hp)
      (next_of_refused (r := r.append data) h (splitHead?_append data hs) hp)
  | head r head rest p h hs hp ih =>
    -- both looks are looks at readers that remember the head
    exact ih.congr (next_of_head h hs hp)
      (next_of_head (r := r.append data) h (splitHead?_append data hs) hp)

/-- A look leaves no more in the buffer than there was, and the limit as it is. -/
theorem length_next (r : ResponseReader) :
    r.next.2.buffer.length ≤ r.buffer.length ∧ r.next.2.limit = r.limit := by
  induction r using cases_head with
  | pending r response n h =>
    rw [next_of_pending h]
    split
    · exact ⟨Nat.le_refl _, rfl⟩
    · simp
  | unended r h hs =>
    rw [next_of_unended h hs]
    exact ⟨Nat.le_refl _, rfl⟩
  | refused r head rest e h hs hp =>
    rw [next_of_refused h hs hp]
    have := length_splitHead? hs
    exact ⟨by simp only; omega, rfl⟩
  | head r head rest p h hs hp ih =>
    rw [next_of_head h hs hp]
    have := length_splitHead? hs
    exact ⟨ih.1.trans (by simp only; omega), ih.2⟩

/-! ### Draining -/

theorem drain_of_taken {r r' r'' : ResponseReader} {response : Response} {responses : List Response}
    {e : Option ResponseError} (h : r.next = (.ok (some response), r'))
    (hd : r'.drain = (responses, e, r'')) : r.drain = (response :: responses, e, r'') := by
  rw [drain]
  split <;> simp_all

theorem drain_of_waiting {r r' : ResponseReader} (h : r.next = (.ok none, r')) :
    r.drain = ([], none, r') := by
  rw [drain]
  split <;> simp_all

theorem drain_of_refused {r r' : ResponseReader} {e : ResponseError} (h : r.next = (.error e, r')) :
    r.drain = ([], some e, r') := by
  rw [drain]
  split <;> simp_all

/-- A response reader is incremental on any stream, its limit aside. -/
theorem incremental : Incremental append next drain weight fun _ => True where
  feed_nil r := by simp [append]
  feed_feed r data more := by simp [append]
  drain_taken := drain_of_taken
  drain_waiting := drain_of_waiting
  drain_refused := drain_of_refused
  shorter := weight_next
  taken_feed data h := (persists data _).taken h
  waiting_feed data h := (persists data _).waiting h
  refused_feed data h _ := ⟨_, (persists data _).refused h⟩
  fits_feed _ _ _ := trivial

theorem length_drain (r : ResponseReader) :
    r.drain.2.2.buffer.length ≤ r.buffer.length ∧ r.drain.2.2.limit = r.limit := by
  induction r using incremental.induct with
  | waiting r r' h =>
    rw [drain_of_waiting h]
    simpa [h] using length_next r
  | refused r e r' h =>
    rw [drain_of_refused h]
    simpa [h] using length_next r
  | taken r a r' h ih =>
    rw [drain_of_taken h rfl]
    have := length_next r
    rw [h] at this
    exact ⟨ih.1.trans this.1, ih.2.trans this.2⟩

/-! ### Pieces -/

/-- Octets fed piece by piece, the reader drained after each; nothing is fed after an error, and a
piece beyond the limit is one. -/
def inPieces (r : ResponseReader) : List Bytes → List Response × Option ResponseError × ResponseReader
  | [] => ([], none, r)
  | piece :: pieces =>
    match r.feed piece with
    | .error e => ([], some e, r)
    | .ok fed => andThen fed.drain fun r' => inPieces r' pieces

/-- No piece is refused: each that is fed is within the limit. -/
def TakesAll (r : ResponseReader) : List Bytes → Prop
  | [] => True
  | piece :: pieces =>
    ∃ fed, r.feed piece = .ok fed ∧ (fed.drain.2.1 = none → TakesAll fed.drain.2.2 pieces)

/-- As long as no piece is refused, the limit does not show. -/
theorem inPieces_of_takesAll : ∀ {pieces : List Bytes} {r : ResponseReader}, r.TakesAll pieces →
    r.inPieces pieces = Reading.inPieces append drain r pieces
  | [], _, _ => rfl
  | piece :: pieces, r, ⟨fed, hfed, hrest⟩ => by
    obtain ⟨-, rfl⟩ := feed_eq_ok_iff.1 hfed
    simp only [inPieces, hfed, Reading.inPieces_cons]
    rcases hdrain : (r.append piece).drain with ⟨responses, _ | e, r'⟩
    · rw [hdrain] at hrest
      have hpieces : r'.inPieces pieces = Reading.inPieces append drain r' pieces :=
        inPieces_of_takesAll (hrest rfl)
      rw [andThen_ok, andThen_ok, hpieces]
    · rfl

/-- A stream within the limit is never refused. -/
theorem takesAll_of_length_le : ∀ {pieces : List Bytes} {r : ResponseReader},
    r.buffer.length + pieces.flatten.length ≤ r.limit → r.TakesAll pieces
  | [], _, _ => trivial
  | piece :: pieces, r, h => by
    rw [List.flatten_cons, List.length_append] at h
    refine ⟨r.append piece, feed_eq_ok_iff.2 ⟨by omega, rfl⟩, fun _ => takesAll_of_length_le ?_⟩
    obtain ⟨hlength, hlimit⟩ := length_drain (r.append piece)
    have happend : (r.append piece).buffer.length = r.buffer.length + piece.length :=
      List.length_append
    have hkept : (r.append piece).limit = r.limit := rfl
    omega

/-- **Where a stream of responses is cut does not show.** If a reader refuses no piece of a stream
that is cut in two ways, then fed piece by piece and drained after each it gives the same responses
and the same first error, and without an error it is left with the same octets and the same head that
waits for its body. -/
theorem same_of_cut {limit : Nat} {xs ys : List Bytes} (cut : xs.flatten = ys.flatten)
    (hxs : TakesAll { limit } xs) (hys : TakesAll { limit } ys) :
    Same (inPieces { limit } xs) (inPieces { limit } ys) := by
  have hfresh : next { limit } = (.ok none, { limit }) := next_of_unended rfl rfl
  have hx := incremental.inPieces_same xs hfresh trivial
  have hy := incremental.inPieces_same ys hfresh trivial
  rw [cut] at hx
  rw [inPieces_of_takesAll hxs, inPieces_of_takesAll hys]
  exact hx.trans hy.symm

/-- A response with a blank line in its body, and the beginning of another. -/
def pipelined : Bytes :=
  Bytes.ofAscii "RTSP/1.0 200 OK\r\nContent-Length: 6\r\n\r\na\r\n\r\nbRTSP/1.0 455 "

/-- In one piece, or octet by octet. -/
theorem same_of_cut_pipelined :
    [pipelined].flatten = (pipelined.map fun b => [b]).flatten ∧
      TakesAll {} [pipelined] ∧ TakesAll {} (pipelined.map fun b => [b]) ∧
      Same (inPieces {} [pipelined]) (inPieces {} (pipelined.map fun b => [b])) := by
  have cut : [pipelined].flatten = (pipelined.map fun b => [b]).flatten := by decide
  have hlength : pipelined.length ≤ 1048576 := by decide
  have hwhole : TakesAll {} [pipelined] := takesAll_of_length_le (by simpa using hlength)
  have hoctets : TakesAll {} (pipelined.map fun b => [b]) :=
    takesAll_of_length_le (by rw [← cut]; simpa using hlength)
  exact ⟨cut, hwhole, hoctets, same_of_cut cut hwhole hoctets⟩

end ResponseReader
end Raop
