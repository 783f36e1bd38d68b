/-
# Answers that are left open

A handler may leave an answer open. The connection then stops where it is, and
goes on when the answer is there. Nothing is lost and nothing is done twice by
that: with each answer that is awaited given later, a connection does what it
does for the handler that gives the same answers at once (`serveThrough_eq`).

A look at the buffer stops behind the request whose answer is left open
(`drain_open`), so there is less to read each time the connection goes on, and
the answers that are awaited come to an end (`left_resume`).

Key definitions: `Handler.awaited`, `Handler.completed`, `Connection.awaitAll`,
`Connection.through`, `Connection.serveThrough`.
Key theorems: `Connection.drain_open`, `Connection.left_resume`, `Connection.through_pump`,
`Connection.serveThrough_eq`.
-/
import Raop.Connection

namespace Raop

variable {σ : Type}

/-- What a handler says to a request when its answer is there: at once, or later. -/
def Handler.awaited (h : Handler σ) (later : Request → σ → Except Error Reply × σ) (request : Request)
    (s : σ) : Except Error Reply × σ :=
  match h.handle request s with
  | (some result, s) => (result, s)
  | (none, s) => later request s

/-- The handler that leaves no answer open, with the answers that this one gives at once or later. -/
def Handler.completed (h : Handler σ) (later : Request → σ → Except Error Reply × σ) : Handler σ :=
  .prompt (h.awaited later) h.shutdown

namespace Connection

variable {ctx : ConnectionContext} {ip : IpAddress} {h : Handler σ}
  {later : Request → σ → Except Error Reply × σ} {c : Connection} {s : σ}
  {request : Request} {reader : RequestReader}

/-- More was done before. -/
def before (done : List Deed) (x : Connection × List Deed × σ) : Connection × List Deed × σ :=
  (x.1, done ++ x.2.1, x.2.2)

@[simp] theorem before_before (done more : List Deed) (x : Connection × List Deed × σ) :
    before done (before more x) = before (done ++ more) x := by
  simp [before]

/-! ### A look at the buffer -/

theorem drain_refused {error : RequestError} (hnext : c.reader.next = (.error error, reader)) (s : σ) :
    drain ctx ip h c s =
      ({ c with ending := (c.write (rejection ctx) (some .malformed)).2 },
        (c.write (rejection ctx) (some .malformed)).1, s) := by
  rw [drain]
  split <;> simp_all

theorem drain_waiting (hnext : c.reader.next = (.ok none, reader)) (s : σ) :
    drain ctx ip h c s = (c, [], s) := by
  rw [drain]
  split <;> simp_all

/-- The answer to the request that was just read is there. -/
def proceed (ctx : ConnectionContext) (ip : IpAddress) (h : Handler σ) (c : Connection)
    (request : Request) (result : Except Error Reply) (s : σ) : Connection × List Deed × σ :=
  let (written, ending) := c.write (respond ctx ip request result) (endingOf request)
  if ending.isSome then ({ c with ending }, written, s) else before written (drain ctx ip h c s)

theorem proceed_of_ended {result : Except Error Reply} {written : List Deed} {ending : Ending}
    (hwrite : c.write (respond ctx ip request result) (endingOf request) = (written, some ending)) (s : σ) :
    proceed ctx ip h c request result s = ({ c with ending := some ending }, written, s) := by
  simp [proceed, hwrite]

theorem proceed_of_open {result : Except Error Reply} {written : List Deed}
    (hwrite : c.write (respond ctx ip request result) (endingOf request) = (written, none)) (s : σ) :
    proceed ctx ip h c request result s = before written (drain ctx ip h c s) := by
  simp [proceed, hwrite]

theorem drain_unanswered {s' : σ} (hnext : c.reader.next = (.ok (some request), reader))
    (hanswer : answer h request s = (none, s')) :
    drain ctx ip h c s = ({ c with reader, waiting := some request }, handing request, s') := by
  rw [drain]
  split <;> simp_all

theorem drain_answered {result : Except Error Reply} {s' : σ}
    (hnext : c.reader.next = (.ok (some request), reader))
    (hanswer : answer h request s = (some result, s')) :
    drain ctx ip h c s =
      before (handing request) (proceed ctx ip h { c with reader } request result s') := by
  rw [drain]
  split
  · simp_all
  · simp_all
  · next request' reader' hnext' =>
    obtain ⟨rfl, rfl⟩ : request = request' ∧ reader = reader' := by simpa [hnext] using hnext'
    simp only [hanswer, proceed, write]
    split <;> split <;> simp_all [before]

theorem answer_completed_of_some {result : Except Error Reply} {s' : σ}
    (hanswer : answer h request s = (some result, s')) :
    answer (h.completed later) request s = (some result, s') := by
  unfold answer at hanswer ⊢
  split at hanswer
  · next hoptions => rw [if_pos hoptions, hanswer]
  · next hoptions =>
    rw [if_neg hoptions]
    simp only [Handler.completed, Handler.prompt, Handler.awaited, hanswer]

theorem answer_completed_of_none {s' : σ} (hanswer : answer h request s = (none, s')) :
    answer (h.completed later) request s = (some (later request s').1, (later request s').2) := by
  unfold answer at hanswer ⊢
  split at hanswer
  · cases hanswer
  · next hoptions =>
    rw [if_neg hoptions]
    simp only [Handler.completed, Handler.prompt, Handler.awaited, hanswer]

variable (later) in
/-- A look at the buffer leaves no answer open, or it stops behind the request whose answer is left open,
and then it would have gone on there with the answer. -/
theorem drain_open (hwaiting : c.waiting = none) (s : σ) :
    ((drain ctx ip h c s).1.waiting = none ∧
        (drain ctx ip h c s).1.reader.buffer.length ≤ c.reader.buffer.length ∧
        drain ctx ip (h.completed later) c s = drain ctx ip h c s) ∨
      ∃ request reader done s', drain ctx ip h c s = ({ c with reader, waiting := some request }, done, s') ∧
        reader.buffer.length < c.reader.buffer.length ∧
        drain ctx ip (h.completed later) c s = before done (proceed ctx ip (h.completed later)
          { c with reader } request (later request s').1 (later request s').2) := by
  induction hn : c.reader.buffer.length using Nat.strongRecOn generalizing c s with
  | ind n ih =>
    subst hn
    rcases hnext : c.reader.next with ⟨error | _ | request, reader⟩
    · rw [drain_refused hnext, drain_refused hnext]
      exact Or.inl ⟨hwaiting, Nat.le_refl _, rfl⟩
    · rw [drain_waiting hnext, drain_waiting hnext]
      exact Or.inl ⟨hwaiting, Nat.le_refl _, rfl⟩
    · have hshorter : reader.buffer.length < c.reader.buffer.length := RequestReader.next_shorter hnext
      rcases hanswer : answer h request s with ⟨_ | result, s'⟩
      · rw [drain_unanswered hnext hanswer, drain_answered hnext (answer_completed_of_none hanswer)]
        exact Or.inr ⟨request, reader, handing request, s', rfl, hshorter, rfl⟩
      · rw [drain_answered hnext hanswer, drain_answered hnext (answer_completed_of_some hanswer)]
        rcases hwrite : ({ c with reader } : Connection).write (respond ctx ip request result)
            (endingOf request) with ⟨written, _ | ending⟩
        · rw [proceed_of_open hwrite, proceed_of_open hwrite]
          rcases ih _ hshorter (c := { c with reader }) hwaiting s' rfl with
            ⟨hnone, hleft, hsame⟩ | ⟨request', reader', done, s'', hdrain, hleft, hsame⟩
          · rw [hsame]
            exact Or.inl ⟨hnone, Nat.le_of_lt (Nat.lt_of_le_of_lt hleft hshorter), rfl⟩
          · rw [hsame, hdrain]
            refine Or.inr ⟨request', reader', handing request ++ (written ++ done), s'', rfl,
              Nat.lt_trans hleft hshorter, ?_⟩
            rw [before_before, before_before, List.append_assoc]
        · rw [proceed_of_ended hwrite, proceed_of_ended hwrite]
          exact Or.inl ⟨hwaiting, Nat.le_of_lt hshorter, rfl⟩

/-- What is in the socket is of no account for a look at the buffer. -/
theorem drain_unread (unread : Bytes) (s : σ) :
    drain ctx ip h { c with unread } s =
      ({ (drain ctx ip h c s).1 with unread }, (drain ctx ip h c s).2) := by
  induction hn : c.reader.buffer.length using Nat.strongRecOn generalizing c s with
  | ind n ih =>
    subst hn
    have hreader : ({ c with unread } : Connection).reader = c.reader := rfl
    rcases hnext : c.reader.next with ⟨error | _ | request, reader⟩
    · rw [drain_refused (hreader ▸ hnext), drain_refused hnext]
      rfl
    · rw [drain_waiting (hreader ▸ hnext), drain_waiting hnext]
    · rcases hanswer : answer h request s with ⟨_ | result, s'⟩
      · rw [drain_unanswered (hreader ▸ hnext) hanswer, drain_unanswered hnext hanswer]
      · rw [drain_answered (hreader ▸ hnext) hanswer, drain_answered hnext hanswer]
        have hrest := ih _ (RequestReader.next_shorter hnext) (c := { c with reader }) s' rfl
        rcases hwrite : ({ c with reader } : Connection).write (respond ctx ip request result)
            (endingOf request) with ⟨written, _ | ending⟩
        · rw [proceed_of_open (c := { c with reader, unread }) hwrite, proceed_of_open hwrite, hrest]
          rfl
        · rw [proceed_of_ended (c := { c with reader, unread }) hwrite, proceed_of_ended hwrite]
          rfl

/-! ### Reading what arrived -/

/-- What follows a look at the buffer, with these octets in the socket. -/
def goOn (ctx : ConnectionContext) (ip : IpAddress) (h : Handler σ) (unread : Bytes)
    (x : Connection × List Deed × σ) : Connection × List Deed × σ :=
  if x.1.ending.isSome then conclude h { x.1 with unread } x.2.1 x.2.2
  else if x.1.waiting.isSome then ({ x.1 with unread }, x.2.1, x.2.2)
  else if x.1.stopping then conclude h { x.1 with unread, ending := some .serverStopped } x.2.1 x.2.2
  else
    match unread with
    | [] =>
      if x.1.closed then conclude h { x.1 with unread := [], ending := some .closedByClient } x.2.1 x.2.2
      else ({ x.1 with unread := [] }, x.2.1, x.2.2)
    | b :: bs => before x.2.1 (pump ctx ip h ((b :: bs).drop readSize)
        { x.1 with reader := x.1.reader.feed ((b :: bs).take readSize) } x.2.2)

theorem pump_eq_goOn (unread : Bytes) (s : σ) :
    pump ctx ip h unread c s = goOn ctx ip h unread (drain ctx ip h c s) := by
  rw [pump]
  rcases drain ctx ip h c s with ⟨c', done, s'⟩
  unfold goOn before
  cases unread <;> rfl

theorem goOn_before (unread : Bytes) (done : List Deed) (x : Connection × List Deed × σ) :
    goOn ctx ip h unread (before done x) = before done (goOn ctx ip h unread x) := by
  rcases x with ⟨c, more, s⟩
  by_cases hending : c.ending.isSome = true
  · simp [goOn, before, conclude, hending]
  · by_cases hwaiting : c.waiting.isSome = true
    · simp [goOn, before, hending, hwaiting]
    · by_cases hstopping : c.stopping = true
      · simp [goOn, before, conclude, hending, hwaiting, hstopping]
      · cases unread with
        | nil =>
          by_cases hclosed : c.closed = true <;>
            simp [goOn, before, conclude, hending, hwaiting, hstopping, hclosed]
        | cons b bs => simp [goOn, before, hending, hwaiting, hstopping]

/-- With an answer left open the connection stops. -/
theorem goOn_of_waiting {x : Connection × List Deed × σ} (hending : x.1.ending = none)
    (hwaiting : x.1.waiting.isSome = true) (unread : Bytes) :
    goOn ctx ip h unread x = ({ x.1 with unread }, x.2.1, x.2.2) := by
  simp [goOn, hending, hwaiting]

variable (ctx ip h later) in
/-- Without one it is done for now, or it reads on. -/
theorem goOn_cases {x : Connection × List Deed × σ} (hwaiting : x.1.waiting = none) (unread : Bytes) :
    ((goOn ctx ip h unread x).1.waiting = none ∧
        goOn ctx ip (h.completed later) unread x = goOn ctx ip h unread x) ∨
      unread ≠ [] ∧ x.1.ending = none ∧ ∀ h' : Handler σ, goOn ctx ip h' unread x =
        before x.2.1 (pump ctx ip h' (unread.drop readSize)
          { x.1 with reader := x.1.reader.feed (unread.take readSize) } x.2.2) := by
  have hnone : x.1.waiting.isSome = false := by rw [hwaiting]; rfl
  have hshutdown : (h.completed later).shutdown = h.shutdown := rfl
  by_cases hending : x.1.ending.isSome = true
  · exact Or.inl (by simp [goOn, conclude, hending, hwaiting, hshutdown])
  · by_cases hstopping : x.1.stopping = true
    · exact Or.inl (by simp [goOn, conclude, hending, hwaiting, hstopping, hshutdown])
    · cases unread with
      | nil =>
        by_cases hclosed : x.1.closed = true <;>
          exact Or.inl (by simp [goOn, conclude, hending, hwaiting, hstopping, hclosed, hshutdown])
      | cons b bs =>
        exact Or.inr ⟨by simp, by simpa using hending, fun h' => by simp [goOn, hending, hnone, hstopping]⟩

/-- A connection reads from the octets that it is given. -/
theorem pump_unread (unread socket : Bytes) (s : σ) :
    pump ctx ip h unread { c with unread := socket } s = pump ctx ip h unread c s := by
  induction hn : unread.length using Nat.strongRecOn generalizing c s unread with
  | ind n ih =>
    subst hn
    rw [pump_eq_goOn, pump_eq_goOn, drain_unread]
    generalize drain ctx ip h c s = x
    cases unread with
    | nil => rfl
    | cons b bs =>
      have hrest := ih _ (by simp only [List.length_drop, List.length_cons, readSize]; omega)
        (c := { x.1 with reader := x.1.reader.feed ((b :: bs).take readSize) })
        ((b :: bs).drop readSize) x.2.2 rfl
      simp only [goOn, conclude]
      rw [hrest]

/-- The octets that are left, those in the socket twice: they come into the buffer first. -/
def left (c : Connection) : Nat := 2 * c.unread.length + c.reader.buffer.length

theorem length_feed_take (reader : RequestReader) {unread : Bytes} (hunread : unread ≠ []) :
    2 * (unread.drop readSize).length + (reader.feed (unread.take readSize)).buffer.length <
      2 * unread.length + reader.buffer.length := by
  have hpos : 0 < unread.length := List.length_pos_iff.2 hunread
  simp only [RequestReader.feed, List.length_append, List.length_drop, List.length_take, readSize]
  omega

/-- Less is left when the connection stops for an answer. -/
theorem left_pump {unread : Bytes} (hwaiting : c.waiting = none) (hending : c.ending = none) (s : σ)
    (hstops : (pump ctx ip h unread c s).1.waiting.isSome = true) :
    (pump ctx ip h unread c s).1.left < 2 * unread.length + c.reader.buffer.length := by
  induction hn : 2 * unread.length + c.reader.buffer.length using Nat.strongRecOn
    generalizing c s unread with
  | ind n ih =>
    subst hn
    let later : Request → σ → Except Error Reply × σ := fun _ s => (.ok {}, s)
    rw [pump_eq_goOn] at hstops ⊢
    rcases drain_open later hwaiting s with
      ⟨hnone, hleft, -⟩ | ⟨request, reader, done, s', hdrain, hleft, -⟩
    · rcases goOn_cases ctx ip h later hnone unread with ⟨hnone', -⟩ | ⟨hunread, hending', hgo⟩
      · rw [hnone'] at hstops
        cases hstops
      · rw [hgo] at hstops ⊢
        generalize drain ctx ip h c s = x at *
        have hread := length_feed_take x.1.reader hunread
        have hless := ih _ (Nat.lt_of_lt_of_le hread (Nat.add_le_add_left hleft _))
          (c := { x.1 with reader := x.1.reader.feed (unread.take readSize) }) hnone hending' _ hstops rfl
        exact Nat.lt_trans hless (Nat.lt_of_lt_of_le hread (Nat.add_le_add_left hleft _))
    · rw [hdrain, goOn_of_waiting hending rfl]
      simp only [left]
      omega

/-! ### Going on -/

variable {result : Except Error Reply} {written : List Deed}

theorem resume_of_ended {ending : Ending} (hwaiting : c.waiting = some request)
    (hwrite : c.write (respond ctx ip request result) (endingOf request) = (written, some ending)) (s : σ) :
    resume ctx ip h result c s =
      conclude h { c with waiting := none, ending := some ending } written s := by
  simp [resume, hwaiting, hwrite]

theorem resume_of_open (hwaiting : c.waiting = some request)
    (hwrite : c.write (respond ctx ip request result) (endingOf request) = (written, none)) (s : σ) :
    resume ctx ip h result c s =
      before written (pump ctx ip h c.unread { c with waiting := none, ending := none } s) := by
  simp [resume, hwaiting, hwrite, run, before]

/-- So there is less each time. -/
theorem left_resume {s : σ} (hstops : (resume ctx ip h result c s).1.waiting.isSome = true) :
    (resume ctx ip h result c s).1.left < c.left := by
  cases hwaiting : c.waiting with
  | none => simp [resume, hwaiting] at hstops
  | some request =>
    rcases hwrite : c.write (respond ctx ip request result) (endingOf request) with ⟨written, _ | ending⟩
    · rw [resume_of_open hwaiting hwrite] at hstops ⊢
      exact left_pump (c := { c with waiting := none, ending := none }) rfl rfl s hstops
    · rw [resume_of_ended hwaiting hwrite] at hstops
      cases hstops

/-- As long as an answer is awaited, it comes, and the connection goes on. -/
def awaitAll (ctx : ConnectionContext) (ip : IpAddress) (h : Handler σ)
    (later : Request → σ → Except Error Reply × σ) (c : Connection) (s : σ) :
    Connection × List Deed × σ :=
  match c.waiting with
  | none => (c, [], s)
  | some request =>
    let answered := resume ctx ip h (later request s).1 c (later request s).2
    if _stops : answered.1.waiting.isSome then
      before answered.2.1 (awaitAll ctx ip h later answered.1 answered.2.2)
    else answered
  termination_by c.left
  decreasing_by exact left_resume _stops

/-- A step of a connection with all answers that are awaited in it. -/
def through (ctx : ConnectionContext) (ip : IpAddress) (h : Handler σ)
    (later : Request → σ → Except Error Reply × σ) (x : Connection × List Deed × σ) :
    Connection × List Deed × σ :=
  before x.2.1 (awaitAll ctx ip h later x.1 x.2.2)

theorem through_before (done : List Deed) (x : Connection × List Deed × σ) :
    through ctx ip h later (before done x) = before done (through ctx ip h later x) :=
  (before_before done x.2.1 _).symm

theorem through_of_waiting_eq_none {x : Connection × List Deed × σ} (hwaiting : x.1.waiting = none) :
    through ctx ip h later x = x := by
  rw [through, awaitAll, hwaiting]
  simp [before]

theorem through_of_waiting {x : Connection × List Deed × σ} (hwaiting : x.1.waiting = some request) :
    through ctx ip h later x = before x.2.1 (through ctx ip h later
      (resume ctx ip h (later request x.2.2).1 x.1 (later request x.2.2).2)) := by
  rw [through, awaitAll, hwaiting]
  simp only
  split
  · rfl
  · next hstops =>
    rw [through_of_waiting_eq_none (by simpa using hstops)]

variable (ctx ip h later) in
/-- No answer is awaited any more then. -/
theorem waiting_through (x : Connection × List Deed × σ) : (through ctx ip h later x).1.waiting = none := by
  induction hn : x.1.left using Nat.strongRecOn generalizing x with
  | ind n ih =>
    subst hn
    cases hwaiting : x.1.waiting with
    | none => rwa [through_of_waiting_eq_none hwaiting]
    | some request =>
      rw [through_of_waiting hwaiting]
      generalize hanswered : resume ctx ip h _ x.1 _ = answered
      cases hstops : answered.1.waiting with
      | none => rwa [through_of_waiting_eq_none hstops]
      | some request' =>
        subst hanswered
        exact ih _ (left_resume (by rw [hstops]; rfl)) _ rfl

/-- **With the answers that are awaited a connection reads as if they had been given at once.** -/
theorem through_pump {unread : Bytes} (hwaiting : c.waiting = none) (hending : c.ending = none) (s : σ) :
    through ctx ip h later (pump ctx ip h unread c s) = pump ctx ip (h.completed later) unread c s := by
  induction hn : 2 * unread.length + c.reader.buffer.length using Nat.strongRecOn
    generalizing c s unread with
  | ind n ih =>
    subst hn
    rw [pump_eq_goOn, pump_eq_goOn]
    rcases drain_open later hwaiting s with
      ⟨hnone, hleft, hsame⟩ | ⟨request, reader, done, s', hdrain, hleft, hsame⟩
    · rw [hsame]
      generalize drain ctx ip h c s = x at *
      rcases goOn_cases ctx ip h later hnone unread with ⟨hnone', hgo⟩ | ⟨hunread, hending', hgo⟩
      · rw [hgo, through_of_waiting_eq_none hnone']
      · have hread := length_feed_take x.1.reader hunread
        rw [hgo, hgo, through_before,
          ih _ (Nat.lt_of_lt_of_le hread (Nat.add_le_add_left hleft _)) (c :=
            { x.1 with reader := x.1.reader.feed (unread.take readSize) }) hnone hending' _ rfl]
    · rw [hsame, hdrain, goOn_of_waiting hending rfl, through_of_waiting rfl, goOn_before]
      refine congrArg (before done) ?_
      rcases hwrite : ({ c with reader } : Connection).write
          (respond ctx ip request (later request s').1) (endingOf request) with ⟨written, _ | ending⟩
      · rw [proceed_of_open hwrite, goOn_before, ← pump_eq_goOn,
          resume_of_open (c := { c with reader, waiting := some request, unread }) rfl hwrite,
          through_before]
        have hc : ({ c with reader, waiting := none, unread, ending := none } : Connection) =
            { ({ c with reader } : Connection) with unread } := by rw [← hwaiting, ← hending]
        refine congrArg (before written) ?_
        rw [← pump_unread (c := { c with reader }) unread unread, ← hc]
        exact ih _ (Nat.add_lt_add_left hleft _)
          (c := { c with reader, waiting := none, unread, ending := none }) rfl rfl _ rfl
      · rw [proceed_of_ended hwrite,
          resume_of_ended (c := { c with reader, waiting := some request, unread }) rfl hwrite,
          through_of_waiting_eq_none rfl]
        simp [goOn, conclude, hwaiting, Handler.completed, Handler.prompt]

variable (ctx ip h later) in
theorem through_run (hwaiting : c.waiting = none) (s : σ) :
    through ctx ip h later (run ctx ip h c s) = run ctx ip (h.completed later) c s := by
  cases hending : c.ending with
  | none => simpa [run, hwaiting, hending] using through_pump hwaiting hending s
  | some ending => simp [run, hending, through_of_waiting_eq_none, hwaiting]

/-- A whole connection: octets in pieces, then the end of the stream, and the answers that are awaited.
What a client sends while one is awaited is read after it, and so is a later piece. -/
def serveThrough (ctx : ConnectionContext) (ip : IpAddress) (h : Handler σ)
    (later : Request → σ → Except Error Reply × σ) :
    List Bytes → Connection → σ → Connection × List Deed × σ
  | [], c, s => through ctx ip h later (run ctx ip h c.close s)
  | data :: rest, c, s =>
    let x := through ctx ip h later (run ctx ip h (c.feed data) s)
    before x.2.1 (serveThrough ctx ip h later rest x.1 x.2.2)

/-- **An answer that is left open is as good as one that is given at once.** -/
theorem serveThrough_eq : ∀ (pieces : List Bytes) {c : Connection}, c.waiting = none → ∀ s : σ,
    serveThrough ctx ip h later pieces c s = serve ctx ip (h.completed later) pieces c s
  | [], _, hwaiting, s => through_run ctx ip h later (c := Connection.close _) hwaiting s
  | data :: pieces, c, hwaiting, s => by
    have hstep := through_run ctx ip h later (c := c.feed data) hwaiting s
    have hnone := waiting_through ctx ip h later (run ctx ip h (c.feed data) s)
    rw [serveThrough, serve, ← hstep]
    simp only
    rw [serveThrough_eq pieces hnone]
    rfl

end Connection
end Raop
