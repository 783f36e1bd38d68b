/-
# What a look takes

A look takes a request from the front of the octets, and exactly that: the head
up to the first blank line, the blank line, and as many octets as the head
announces for the body (`RequestReader.next_eq_taken_iff_taken`). A look that
takes none leaves the octets as they are.

The same look can be told by places in the buffer: where the first blank line
begins, how many octets there have to be, and three cuts. None of the cuts asks
for octets that are not there, whatever the buffer holds
(`RequestReader.lookByPlace?_eq`).

Every request that is taken takes its blank line with it, so the buffer gets
shorter by four octets at least, and a connection that reads what is in the
buffer has done so after a quarter as many looks as there are octets, and one
more (`Connection.drainWithin_eq`).

Key definitions: `blankLineAt?`, `splitTo?`, `RequestReader.lookByPlace?`,
`RequestReader.Taken`, `Connection.drainWithin`.
Key theorems: `blankLineAt?_eq`, `RequestReader.lookByPlace?_eq`,
`RequestReader.next_eq_taken_iff_taken`, `Connection.drainWithin_eq`,
`RequestReader.takes_exactly`.
-/
import Raop.Proofs.Message.Pieces
import Raop.Proofs.Message.Preamble
import Raop.Proofs.OpenAnswers

namespace Raop

/-! ### Places -/

/-- The place of the first blank line. -/
def blankLineAt? (bs : Bytes) : Option Nat := bs.tails.findIdx? fun back => blankLine.isPrefixOf back

/-- So many octets from the front, and those behind them; nothing, if there are not so many. -/
def splitTo? (n : Nat) (bs : Bytes) : Option (Bytes × Bytes) :=
  if n ≤ bs.length then some (bs.take n, bs.drop n) else none

/-- The first blank line begins where the head ends. -/
theorem blankLineAt?_eq (bs : Bytes) : blankLineAt? bs = (splitHead? bs).map (·.1.length) := by
  unfold blankLineAt?
  induction bs with
  | nil => rfl
  | cons b bs ih =>
    rw [List.tails, List.findIdx?_cons, splitHead?_cons, ih]
    split
    · rfl
    · cases splitHead? bs <;> rfl

theorem splitTo?_of_le {n : Nat} {bs : Bytes} (h : n ≤ bs.length) :
    splitTo? n bs = some (bs.take n, bs.drop n) := if_pos h

theorem splitTo?_append {n : Nat} {front : Bytes} (back : Bytes) (h : front.length = n) :
    splitTo? n (front ++ back) = some (front, back) := by
  subst h
  rw [splitTo?_of_le (by simp), List.take_left, List.drop_left]

namespace RequestReader

/-- A look that cuts the buffer at places; nothing, if a cut asks for octets that are not there. -/
def lookByPlace? (r : RequestReader) : Option (Except RequestError (Option Request) × RequestReader) :=
  match blankLineAt? r.buffer with
  | none =>
    some (if maxHead < r.buffer.length then (.error (.invalidHeader "Headers too large"), r)
      else (.ok none, r))
  | some place => do
    let (head, _) ← splitTo? place r.buffer
    match readPreamble head with
    | .error e => return (.error e, r)
    | .ok (request, n) =>
      if r.buffer.length < place + 4 + n then return (.ok none, r)
      let (_, behind) ← splitTo? (place + 4) r.buffer
      let (body, rest) ← splitTo? n behind
      return (.ok (some { request with body }), ⟨rest⟩)

/-- **No cut asks for octets that are not there**, and the look is the same. -/
theorem lookByPlace?_eq (r : RequestReader) : r.lookByPlace? = some r.next := by
  unfold lookByPlace? next
  rw [blankLineAt?_eq]
  cases hs : splitHead? r.buffer with
  | none => rfl
  | some p =>
    obtain ⟨head, rest⟩ := p
    have hlen := length_splitHead? hs
    have hhead : splitTo? head.length r.buffer = some (head, blankLine ++ rest) := by
      rw [eq_of_splitHead? hs, List.append_assoc, splitTo?_append _ rfl]
    have hbehind : splitTo? (head.length + 4) r.buffer = some (head ++ blankLine, rest) := by
      rw [eq_of_splitHead? hs, splitTo?_append]
      simp [blankLine]
    simp only [Option.map_some, hhead, Option.bind_eq_bind, Option.bind_some]
    cases readPreamble head with
    | error e => rfl
    | ok preamble =>
      obtain ⟨request, n⟩ := preamble
      by_cases hn : rest.length < n
      · have hfew : r.buffer.length < head.length + 4 + n := by omega
        simp only [if_pos hn, if_pos hfew]
        rfl
      · have hbody := splitTo?_of_le (Nat.le_of_not_lt hn)
        have hall : ¬ r.buffer.length < head.length + 4 + n := by omega
        simp only [if_neg hn, if_neg hall, hbehind, hbody, Option.bind_some]
        rfl

/-! ### What is taken -/

/-- What is taken from the front of octets: the head up to the first blank line, the blank line, and the
body, which has the length that the head announces. -/
def Taken (octets : Bytes) (request : Request) (rest : Bytes) : Prop :=
  ∃ head, octets = head ++ blankLine ++ request.body ++ rest ∧
    (∀ front back, octets = front ++ blankLine ++ back → head.length ≤ front.length) ∧
    Preamble head request request.body.length ∧ request.body.length ≤ maxBody

/-- **A look takes just this**, and it takes it wherever it is there. -/
theorem next_eq_taken_iff_taken {r r' : RequestReader} {request : Request} :
    r.next = (.ok (some request), r') ↔ Taken r.buffer request r'.buffer := by
  rw [next_eq_taken_iff]
  constructor
  · rintro ⟨head, rest, preamble, n, hs, hp, hn, rfl, rfl⟩
    obtain ⟨hwhole, hfirst⟩ := splitHead?_eq_some_iff.1 hs
    obtain ⟨hpreamble, hle, -⟩ := readPreamble_eq_ok_iff_preamble.1 hp
    have hbody : (rest.take n).length = n := List.length_take_of_le hn
    refine ⟨head, ?_, hfirst, ?_, ?_⟩
    · rw [hwhole, List.append_assoc (head ++ blankLine), List.take_append_drop]
    · rw [hbody]
      exact hpreamble
    · rw [hbody]
      exact hle
  · rintro ⟨head, hwhole, hfirst, hpreamble, hle⟩
    rw [List.append_assoc (head ++ blankLine)] at hwhole
    refine ⟨head, _, { request with body := [] }, request.body.length,
      splitHead?_eq_some_iff.2 ⟨hwhole, hfirst⟩,
      readPreamble_eq_ok_iff_preamble.2 ⟨hpreamble, hle, rfl⟩, by simp, ?_, ?_⟩
    · rw [List.take_left]
    · rw [List.drop_left]

/-- A request that is taken takes its blank line with it. -/
theorem length_of_taken {r r' : RequestReader} {request : Request}
    (h : r.next = (.ok (some request), r')) : r'.buffer.length + 4 ≤ r.buffer.length := by
  obtain ⟨head, hwhole, -, -, -⟩ := next_eq_taken_iff_taken.1 h
  rw [hwhole]
  simp only [List.length_append, blankLine, List.length_cons, List.length_nil]
  omega

end RequestReader

/-! ### Looking until no request is left -/

namespace Connection

variable {σ : Type} (ctx : ConnectionContext) (ip : IpAddress) (h : Handler σ)

/-- What is in the buffer read and answered with so many looks; nothing, if they do not suffice. -/
def drainWithin : Nat → Connection → σ → Option (Connection × List Deed × σ)
  | 0, _, _ => none
  | looks + 1, c, s =>
    match c.reader.next with
    | (.ok none, _) => some (c, [], s)
    | (.error _, _) =>
      let (written, ending) := c.write (rejection ctx) (some .malformed)
      some ({ c with ending }, written, s)
    | (.ok (some request), reader) =>
      match answer h request s with
      | (none, s) => some ({ c with reader, waiting := some request }, handing request, s)
      | (some result, s) =>
        let (written, ending) := c.write (respond ctx ip request result) (endingOf request)
        if ending.isSome then some ({ c with reader, ending }, handing request ++ written, s)
        else (drainWithin looks { c with reader } s).map (before (handing request ++ written))

/-- **Four octets for a look suffice**, whatever the handler does. -/
theorem drainWithin_eq {looks : Nat} {c : Connection} (enough : c.reader.buffer.length < 4 * looks)
    (s : σ) : drainWithin ctx ip h looks c s = some (drain ctx ip h c s) := by
  induction looks generalizing c s with
  | zero => omega
  | succ looks ih =>
    unfold drainWithin
    rcases hnext : c.reader.next with ⟨error | _ | request, reader⟩
    · rw [drain_refused hnext]
    · rw [drain_waiting hnext]
    · have hshorter := RequestReader.length_of_taken hnext
      rcases hanswer : answer h request s with ⟨_ | result, s'⟩
      · rw [drain_unanswered hnext hanswer]
        simp only [hanswer]
      · have hsame : ({ c with reader } : Connection).write (respond ctx ip request result)
            (endingOf request) = c.write (respond ctx ip request result) (endingOf request) := rfl
        rw [drain_answered hnext hanswer]
        rcases hwrite : c.write (respond ctx ip request result) (endingOf request) with
          ⟨written, _ | ending⟩
        · rw [proceed_of_open (hsame.trans hwrite), before_before]
          have hrest := ih (c := { c with reader }) (by simp only; omega) s'
          simp only [hanswer, hwrite, hrest]
          rfl
        · rw [proceed_of_ended (hsame.trans hwrite)]
          simp only [hanswer, hwrite]
          rfl

end Connection

namespace RequestReader

/-- **A look takes one request, or nothing.** For whatever is in the buffer: no cut that a look makes
asks for octets that are not there. It takes a request just if this is at the front, head, blank line
and a body of the length that the head announces, and then the buffer gets shorter; else it leaves the
buffer as it is. So a connection is done with its buffer after a quarter as many looks as there are
octets, and one more, whatever its handler does. -/
theorem takes_exactly (r : RequestReader) :
    r.lookByPlace? = some r.next ∧
    (∀ request r', r.next = (.ok (some request), r') ↔ Taken r.buffer request r'.buffer) ∧
    ((∃ request r', r.next = (.ok (some request), r') ∧ r'.buffer.length < r.buffer.length) ∨
      r.next = (.ok none, r) ∨ ∃ e, r.next = (.error e, r)) ∧
    ∀ (σ : Type) (ctx : ConnectionContext) (ip : IpAddress) (h : Handler σ) (c : Connection) (s : σ),
      Connection.drainWithin ctx ip h (r.buffer.length / 4 + 1) { c with reader := r } s =
        some (Connection.drain ctx ip h { c with reader := r } s) := by
  refine ⟨lookByPlace?_eq r, fun request r' => next_eq_taken_iff_taken, ?_, ?_⟩
  · rcases hnext : r.next with ⟨e | _ | request, r'⟩
    · rw [(next_eq_refused_iff.1 hnext).1]
      exact .inr (.inr ⟨e, rfl⟩)
    · rw [(next_eq_waiting_iff.1 hnext).1]
      exact .inr (.inl rfl)
    · exact .inl ⟨request, r', rfl, next_shorter hnext⟩
  · intro σ ctx ip h c s
    refine Connection.drainWithin_eq ctx ip h ?_ s
    show r.buffer.length < 4 * (r.buffer.length / 4 + 1)
    omega

/-- The last of two lengths counts, and the octet behind the body stays for what comes next. -/
example :
    let octets := Text.encodeChars
      "RECORD * RTSP/1.0\r\nContent-Length: 9\r\ncontent-length: +2\r\n\r\nabc".toList
    (RequestReader.mk octets).next.2.buffer = [99] := by
  decide +kernel

end RequestReader
end Raop
