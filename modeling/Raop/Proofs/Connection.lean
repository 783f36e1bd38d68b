/-
# What a connection does for its client

A client sends octets in any pieces and then nothing more; nothing fails to be
written, and the server does not stop. Behind the connection is any handler,
with the answers that it leaves open given later. The requests that are read
then decide all that the connection does (`converse`): each is handed over,
OPTIONS aside, and answered before the next one is looked at, a TEARDOWN is the
last one, and a malformed request is rejected. The handler is told once that
this is over, at the end.

With all answers at once, the induction is over the requests of one look at the
buffer (`drain_eq`), then over what is read at once (`pump_eq`), then over what
arrives (`serve_eq`). A connection between two pieces has nothing unread, and a
reader that waits.

Key definitions: `Connection.reads`, `Connection.received`, `Connection.asked`,
`Connection.malformed`, `Connection.answers`, `Connection.exchange`, `Connection.converse`,
`Connection.Dialogue`.
Key theorems: `Connection.converse_append`, `Connection.converse_eq`, `Connection.drain_eq`,
`Connection.pump_eq`, `Connection.serve_eq`, `Connection.dialogue_of_serveThrough`.
-/
import Raop.Proofs.Message.Headers
import Raop.Proofs.Message.Pieces
import Raop.Proofs.OpenAnswers

namespace Raop
namespace Connection

open Reading RequestReader

/-! ### What is asked -/

/-- Octets that have arrived, as they are read. -/
def reads (data : Bytes) : List Bytes :=
  match data with
  | [] => []
  | b :: bs => (b :: bs).take readSize :: reads ((b :: bs).drop readSize)
  termination_by data.length
  decreasing_by simp only [List.length_drop, List.length_cons, readSize]; omega

/-- The requests of a client, and the first error: what its octets come to, piece by piece. -/
def received (pieces : List Bytes) : List Request × Option RequestError × RequestReader :=
  inPieces RequestReader.feed RequestReader.drain {} (pieces.flatMap reads)

/-- A request after which nothing more is read. -/
def isLast (request : Request) : Bool := request.method = .teardown

/-- Requests up to and with the first TEARDOWN. -/
def throughTeardown : List Request → List Request
  | [] => []
  | r :: rs => if isLast r then [r] else r :: throughTeardown rs

/-- The requests that a client is answered. -/
def asked (pieces : List Bytes) : List Request := throughTeardown (received pieces).1

/-- The client's octets are no request somewhere, and there is no TEARDOWN in front of that. -/
def malformed (pieces : List Bytes) : Bool :=
  (received pieces).2.1.isSome && !(received pieces).1.any isLast

/-! ### What is said -/

variable {σ : Type} (ctx : ConnectionContext) (ip : IpAddress)
  (handle : Request → σ → Except Error Reply × σ) (shutdown : σ → σ)

/-- What is said to a request: OPTIONS is answered here, anything else by the handler. -/
def said (request : Request) (s : σ) : Except Error Reply × σ :=
  if request.method = .options then (.ok (({} : Reply).withHeader "Public" Method.publicList), s)
  else handle request s

/-- Requests with what is said to each, one after the other, and the handler after them. -/
def answers : List Request → σ → List (Request × Except Error Reply) × σ
  | [], s => ([], s)
  | r :: rs, s =>
    let (result, s) := said handle r s
    let (more, s) := answers rs s
    ((r, result) :: more, s)

/-- What is done for a request: it is handed over, unless it is answered here, and then answered. -/
def exchange (x : Request × Except Error Reply) : List Deed :=
  handing x.1 ++ [.write (respond ctx ip x.1 x.2)]

/-- What is done for requests and an error behind them, how that ends the connection if it does, and
the handler afterwards. -/
def converse : List Request → Option RequestError → σ → List Deed × Option Ending × σ
  | [], none, s => ([], none, s)
  | [], some _, s => ([.write (rejection ctx)], some .malformed, s)
  | r :: rs, e, s =>
    let (result, s) := said handle r s
    let done := exchange ctx ip (r, result)
    if isLast r then (done, some .teardown, s)
    else
      let (more, ending, s) := converse rs e s
      (done ++ more, ending, s)

/-- The request that the handler is given. -/
def handed? : Deed → Option Request
  | .handle request => some request
  | _ => none

theorem answer_prompt (request : Request) (s : σ) :
    answer (.prompt handle shutdown) request s =
      (some (said handle request s).1, (said handle request s).2) := by
  unfold answer said
  split <;> rfl

/-- Further requests are answered after the first ones, unless those have ended the connection. -/
theorem converse_append (ys : List Request) (e : Option RequestError) :
    ∀ (xs : List Request) (s : σ), converse ctx ip handle (xs ++ ys) e s =
      match converse ctx ip handle xs none s with
      | (done, some ending, s) => (done, some ending, s)
      | (done, none, s) =>
        let (more, ending, s) := converse ctx ip handle ys e s
        (done ++ more, ending, s)
  | [], s => by simp [converse]
  | x :: xs, s => by
    simp only [List.cons_append, converse]
    split
    · rfl
    · rw [converse_append ys e xs]
      rcases converse ctx ip handle xs none (said handle x s).2 with ⟨done, _ | ending, s'⟩ <;> simp

/-- An error behind the requests ends the connection if nothing else has. -/
theorem converse_some (e : RequestError) : ∀ (xs : List Request) (s : σ),
    (converse ctx ip handle xs (some e) s).2.1.isSome
  | [], _ => rfl
  | x :: xs, s => by
    simp only [converse]
    split
    · rfl
    · exact converse_some e xs _

variable {ctx ip handle} in
/-- Nothing has ended the connection only if there was no error. -/
theorem eq_none_of_converse {xs : List Request} {e : Option RequestError} {s s' : σ}
    {done : List Deed} (h : converse ctx ip handle xs e s = (done, none, s')) : e = none := by
  cases e with
  | none => rfl
  | some error => simpa [h] using converse_some ctx ip handle error xs s

variable {ctx ip handle} in
/-- When the connection has ended, it does not matter what is read further. -/
theorem converse_of_ended {first requests : List Request} {e₁ e : Option RequestError}
    {reader rest : RequestReader} {s s' : σ} {done : List Deed} {ending : Ending}
    {further : RequestReader → List Request × Option RequestError × RequestReader}
    (h : andThen (first, e₁, reader) further = (requests, e, rest))
    (htalk : converse ctx ip handle first e₁ s = (done, some ending, s')) :
    converse ctx ip handle requests e s = (done, some ending, s') := by
  cases e₁ with
  | none =>
    rcases hmore : further reader with ⟨more, e₂, rest₂⟩
    obtain ⟨rfl, rfl, -⟩ : first ++ more = requests ∧ e₂ = e ∧ rest₂ = rest := by
      simpa [hmore] using h
    rw [converse_append, htalk]
  | some error =>
    obtain ⟨rfl, rfl, -⟩ : first = requests ∧ some error = e ∧ reader = rest := by simpa using h
    exact htalk

/-- **What is done is one exchange for each request up to a TEARDOWN**, and a rejection for an error
that comes first. -/
theorem converse_eq (e : Option RequestError) : ∀ (xs : List Request) (s : σ),
    (converse ctx ip handle xs e s).1 =
        (answers handle (throughTeardown xs) s).1.flatMap (exchange ctx ip) ++
          (if e.isSome && !xs.any isLast then [.write (rejection ctx)] else []) ∧
      (converse ctx ip handle xs e s).2.2 = (answers handle (throughTeardown xs) s).2
  | [], s => by cases e <;> exact ⟨rfl, rfl⟩
  | x :: xs, s => by
    simp only [converse, throughTeardown]
    by_cases hlast : isLast x = true
    · simp [hlast, answers]
    · obtain ⟨hdone, hstate⟩ := converse_eq e xs (said handle x s).2
      simp only [hlast, Bool.false_eq_true, if_false, answers, List.flatMap_cons, List.any_cons,
        Bool.false_or]
      rw [hdone]
      exact ⟨(List.append_assoc _ _ _).symm, hstate⟩

/-- The requests that are answered are those that were asked. -/
theorem map_fst_answers : ∀ (rs : List Request) (s : σ), (answers handle rs s).1.map Prod.fst = rs
  | [], _ => rfl
  | r :: rs, s => by
    simp only [answers, List.map_cons]
    rw [map_fst_answers rs]

/-- The handler is given the requests that are not OPTIONS, in order. -/
theorem snd_answers : ∀ (rs : List Request) (s : σ), (answers handle rs s).2 =
    (rs.filter fun r => r.method ≠ .options).foldl (fun s r => (handle r s).2) s
  | [], _ => rfl
  | r :: rs, s => by
    simp only [answers]
    rw [snd_answers rs]
    by_cases hoptions : r.method = .options <;> simp [said, hoptions]

/-- A response has the sequence number of its request, as it was written there. -/
theorem cseq_respond {request : Request} {result : Except Error Reply} {v : String}
    (h : request.headers.get? "CSeq" = some v) :
    (respond ctx ip request result).headers.get? "CSeq" = some v := by
  have hother {r : Reply} {name value : String} (hne : foldCase name ≠ foldCase "CSeq") :
      (r.withHeader name value).headers.get? "CSeq" = r.headers.get? "CSeq" :=
    Headers.get?_insert_of_ne hne
  have hfinish (r : Reply) : r.toResponse.headers.get? "CSeq" = r.headers.get? "CSeq" := by
    unfold Reply.toResponse
    split
    · exact Headers.get?_insert_of_ne (by decide)
    · rfl
  have hself (r : Reply) : (withOptional r "CSeq" (some v)).headers.get? "CSeq" = some v :=
    Headers.get?_insert_self ..
  unfold respond
  rw [h, hfinish]
  cases challengeAnswer? ctx ip request with
  | none => exact hself _
  | some answer => exact (hother (by decide)).trans (hself _)

/-- What is written for requests: a response to each. -/
theorem filterMap_response_exchange (xs : List (Request × Except Error Reply)) :
    (xs.flatMap (exchange ctx ip)).filterMap Deed.response? =
      xs.map fun x => respond ctx ip x.1 x.2 := by
  induction xs with
  | nil => rfl
  | cons x xs ih =>
    rw [List.flatMap_cons, List.filterMap_append, ih, List.map_cons]
    unfold exchange handing
    split <;> rfl

/-- What is handed over for requests: all that are not OPTIONS. -/
theorem filterMap_handed_exchange (xs : List (Request × Except Error Reply)) :
    (xs.flatMap (exchange ctx ip)).filterMap handed? =
      (xs.map Prod.fst).filter fun r => r.method ≠ .options := by
  induction xs with
  | nil => rfl
  | cons x xs ih =>
    rw [List.flatMap_cons, List.filterMap_append, ih, List.map_cons]
    by_cases hoptions : x.1.method = .options <;> simp [exchange, handing, hoptions, handed?]

/-- The handler is not told that the client is gone while requests are answered. -/
theorem shutdown_not_mem_exchange (xs : List (Request × Except Error Reply)) :
    Deed.shutdown ∉ xs.flatMap (exchange ctx ip) := by
  simp only [List.mem_flatMap, exchange, handing, not_exists, not_and]
  intro x _
  split <;> simp

/-! ### A look at the buffer -/

variable {ctx ip handle shutdown} {c : Connection}

theorem endingOf_eq (request : Request) :
    endingOf request = if isLast request then some .teardown else none := by
  simp [endingOf, isLast]

theorem drain_rejected {error : RequestError} {reader : RequestReader} (hbroken : c.broken = false)
    (h : c.reader.next = (.error error, reader)) (s : σ) :
    drain ctx ip (.prompt handle shutdown) c s =
      ({ c with ending := some .malformed }, [.write (rejection ctx)], s) := by
  rw [drain_refused h, write, hbroken]
  rfl

theorem drain_taken {request : Request} {reader : RequestReader} (hbroken : c.broken = false)
    (h : c.reader.next = (.ok (some request), reader)) (s : σ) :
    drain ctx ip (.prompt handle shutdown) c s =
      let (result, s) := said handle request s
      let done := exchange ctx ip (request, result)
      if isLast request then ({ c with reader, ending := some .teardown }, done, s)
      else before done (drain ctx ip (.prompt handle shutdown) { c with reader } s) := by
  have hwrite (ending : Option Ending) (response : Response) :
      ({ c with reader } : Connection).write response ending = ([.write response], ending) := by
    simp [write, hbroken]
  rw [drain_answered h (answer_prompt handle shutdown request s)]
  simp only [proceed, hwrite, endingOf_eq, exchange]
  cases isLast request
  · simp
  · rfl

variable (ctx ip handle shutdown) in
/-- What is in the buffer is answered as far as it goes. -/
theorem drain_eq {requests : List Request} {e : Option RequestError} {rest : RequestReader}
    (hbroken : c.broken = false) (hending : c.ending = none)
    (h : c.reader.drain = (requests, e, rest)) (s : σ) :
    ∃ reader, drain ctx ip (.prompt handle shutdown) c s =
        ({ c with reader, ending := (converse ctx ip handle requests e s).2.1 },
          (converse ctx ip handle requests e s).1, (converse ctx ip handle requests e s).2.2) ∧
      ((converse ctx ip handle requests e s).2.1 = none → reader = rest) := by
  induction hn : c.reader.buffer.length using Nat.strongRecOn generalizing c s requests with
  | ind n ih =>
    subst hn
    rcases hnext : c.reader.next with ⟨error | _ | request, reader⟩
    · obtain ⟨rfl, rfl, rfl⟩ : [] = requests ∧ some error = e ∧ reader = rest := by
        simpa [drain_of_refused hnext] using h
      exact ⟨c.reader, drain_rejected hbroken hnext s, by simp [converse]⟩
    · obtain ⟨rfl, rfl, rfl⟩ : [] = requests ∧ none = e ∧ reader = rest := by
        simpa [drain_of_waiting hnext] using h
      refine ⟨c.reader, ?_, fun _ => (next_eq_waiting_iff.1 hnext).1.symm⟩
      rw [drain_waiting hnext, converse, ← hending]
    · rcases hd : reader.drain with ⟨more, e', rest'⟩
      obtain ⟨rfl, rfl, rfl⟩ : request :: more = requests ∧ e' = e ∧ rest' = rest := by
        simpa [drain_of_taken hnext hd] using h
      obtain ⟨reader', hrest, hreader⟩ := ih _ (next_shorter hnext) (c := { c with reader }) hbroken
        hending hd (said handle request s).2 rfl
      rw [drain_taken hbroken hnext]
      simp only [converse]
      by_cases hlast : isLast request = true
      · exact ⟨reader, by simp [hlast], by simp [hlast]⟩
      · refine ⟨reader', ?_, ?_⟩
        · simp only [hlast, Bool.false_eq_true, if_false, hrest, before]
        · simpa only [hlast, Bool.false_eq_true, if_false] using hreader

/-! ### Reading what arrived -/

/-- The connection can go on: it has not ended, and nothing hinders it. -/
structure Open (c : Connection) : Prop where
  broken : c.broken = false
  ending : c.ending = none
  waiting : c.waiting = none
  stopping : c.stopping = false
  closed : c.closed = false

/-- What a connection comes to with what was said: it has ended and told its handler so, or it has
nothing unread and waits for more. -/
def Settles (shutdown : σ → σ) (c : Connection) (rest : RequestReader)
    (talk : List Deed × Option Ending × σ) (result : Connection × List Deed × σ) : Prop :=
  match talk with
  | (done, some ending, s) =>
    ∃ c', c'.ending = some ending ∧ result = (c', done ++ [.shutdown], shutdown s)
  | (done, none, s) => result = ({ c with reader := rest, unread := [] }, done, s)

theorem Open.withReader (h : c.Open) (reader : RequestReader) : Open { c with reader } :=
  ⟨h.broken, h.ending, h.waiting, h.stopping, h.closed⟩

/-- More was read and done before. -/
theorem Settles.prepend {reader rest : RequestReader} {talk : List Deed × Option Ending × σ}
    {result : Connection × List Deed × σ} (h : Settles shutdown { c with reader } rest talk result)
    (done : List Deed) :
    Settles shutdown c rest (done ++ talk.1, talk.2) (result.1, done ++ result.2.1, result.2.2) := by
  rcases talk with ⟨more, _ | ending, s⟩
  · obtain rfl : result = _ := h
    rfl
  · obtain ⟨c', hending, rfl⟩ := h
    exact ⟨c', hending, by simp⟩

variable (ctx ip handle shutdown) in
theorem pump_eq {unread : Bytes} {requests : List Request} {e : Option RequestError}
    {rest : RequestReader} (hopen : c.Open)
    (h : inPieces RequestReader.feed RequestReader.drain c.reader ([] :: reads unread) =
      (requests, e, rest)) (s : σ) :
    Settles shutdown c rest (converse ctx ip handle requests e s)
      (pump ctx ip (.prompt handle shutdown) unread c s) := by
  induction hn : unread.length using Nat.strongRecOn generalizing c s unread requests with
  | ind n ih =>
    subst hn
    rcases hd : c.reader.drain with ⟨first, e₁, reader₁⟩
    obtain ⟨reader, hdrain, hreader⟩ :=
      drain_eq ctx ip handle shutdown hopen.broken hopen.ending hd s
    rw [inPieces_cons, incremental.feed_nil, hd] at h
    rw [pump, hdrain]
    rcases htalk : converse ctx ip handle first e₁ s with ⟨done, _ | ending, s'⟩
    · -- nothing has ended the connection yet, so there was no error
      obtain rfl := eq_none_of_converse htalk
      obtain rfl : reader = reader₁ := hreader (by rw [htalk])
      rcases hmore : inPieces RequestReader.feed RequestReader.drain reader (reads unread) with
        ⟨more, e₂, rest₂⟩
      obtain ⟨rfl, rfl, rfl⟩ : first ++ more = requests ∧ e₂ = e ∧ rest₂ = rest := by
        simpa [hmore] using h
      rw [converse_append, htalk]
      simp only [hopen.waiting, hopen.stopping, hopen.closed, Option.isSome_none, Bool.false_eq_true,
        if_false]
      cases unread with
      | nil =>
        obtain ⟨rfl, rfl, rfl⟩ : [] = more ∧ none = e₂ ∧ reader = rest₂ := by
          simpa [reads, inPieces] using hmore
        simp [converse, Settles, hopen.waiting, hopen.stopping, hopen.closed, hopen.ending]
      | cons b bs =>
        -- what is read next is fed at once, as if it had been in the buffer
        have hfed : inPieces RequestReader.feed RequestReader.drain
            (reader.feed ((b :: bs).take readSize)) ([] :: reads ((b :: bs).drop readSize)) =
              (more, e₂, rest₂) := by
          rw [reads, inPieces_cons] at hmore
          rwa [inPieces_cons, incremental.feed_nil]
        have hshorter : ((b :: bs).drop readSize).length < (b :: bs).length := by
          simp only [List.length_drop, List.length_cons, readSize]
          omega
        have hrest := ih _ hshorter (hopen.withReader (reader.feed ((b :: bs).take readSize))) hfed s' rfl
        simpa only [hopen.ending, hopen.waiting, hopen.stopping, hopen.closed] using hrest.prepend done
    · -- the connection has ended, whatever comes behind
      rw [converse_of_ended h htalk]
      exact ⟨_, rfl, rfl⟩

/-! ### The whole stream -/

variable (ctx ip) in
/-- Nothing is done after the end of a connection. -/
theorem serve_of_ended {ending : Ending} (h : Handler σ) : ∀ (pieces : List Bytes) {c : Connection},
    c.ending = some ending → ∀ s : σ, ∃ c', c'.ending = some ending ∧
      serve ctx ip h pieces c s = (c', [], s)
  | [], c, hending, s => ⟨c.close, hending, by simp [serve, run, close, hending]⟩
  | data :: pieces, c, hending, s => by
    have hrun : run ctx ip h (c.feed data) s = (c.feed data, [], s) := by simp [run, feed, hending]
    obtain ⟨c', hending', hserve⟩ := serve_of_ended h pieces (c := c.feed data) hending s
    exact ⟨c', hending', by simp [serve, hrun, hserve]⟩

/-- At the end of the stream the connection is closed by its client. -/
theorem run_close (hopen : c.Open) (hunread : c.unread = []) {reader : RequestReader}
    (hwaits : c.reader.next = (.ok none, reader)) (s : σ) :
    run ctx ip (.prompt handle shutdown) c.close s =
      ({ c.close with ending := some .closedByClient }, [.shutdown], shutdown s) := by
  have hdrain : drain ctx ip (.prompt handle shutdown) c.close s = (c.close, [], s) :=
    drain_waiting (c := c.close) hwaits s
  have hrun : run ctx ip (.prompt handle shutdown) c.close s =
      pump ctx ip (.prompt handle shutdown) [] c.close s := by
    simp [run, close, hunread, hopen.ending, hopen.waiting]
  rw [hrun, pump, hdrain]
  simp [close, conclude, hunread, hopen.ending, hopen.waiting, hopen.stopping, Handler.prompt]

variable (ctx ip handle shutdown) in
/-- **A whole stream comes to what is said to its requests**, and the handler is told once, at the
end. -/
theorem serve_eq : ∀ (pieces : List Bytes) {c : Connection} {requests : List Request}
    {e : Option RequestError} {rest : RequestReader}, c.Open → c.unread = [] →
    c.reader.next = (.ok none, c.reader) →
    inPieces RequestReader.feed RequestReader.drain c.reader (pieces.flatMap reads) =
      (requests, e, rest) →
    ∀ s : σ, ∃ c', c'.ending = some ((converse ctx ip handle requests e s).2.1.getD .closedByClient) ∧
      serve ctx ip (.prompt handle shutdown) pieces c s =
        (c', (converse ctx ip handle requests e s).1 ++ [.shutdown],
          shutdown (converse ctx ip handle requests e s).2.2)
  | [], c, requests, e, rest, hopen, hunread, hwaits, h, s => by
    obtain ⟨rfl, rfl, rfl⟩ : [] = requests ∧ none = e ∧ c.reader = rest := by
      simpa [inPieces] using h
    exact ⟨_, rfl, run_close hopen hunread hwaits s⟩
  | data :: pieces, c, requests, e, rest, hopen, hunread, hwaits, h, s => by
    rw [List.flatMap_cons, inPieces_append] at h
    rcases hdata : inPieces RequestReader.feed RequestReader.drain c.reader (reads data) with
      ⟨first, e₁, reader⟩
    rw [hdata] at h
    have hfeed : (c.feed data).Open := ⟨hopen.broken, hopen.ending, hopen.waiting, hopen.stopping, hopen.closed⟩
    -- a reader that waits is looked at in vain before the first octets are fed
    have hlook : inPieces RequestReader.feed RequestReader.drain (c.feed data).reader
        ([] :: reads data) = (first, e₁, reader) := by
      have hreader : (c.feed data).reader = c.reader := rfl
      rw [inPieces_cons, hreader, incremental.feed_nil, drain_of_waiting hwaits]
      simp [hdata]
    have hrun : run ctx ip (.prompt handle shutdown) (c.feed data) s =
        pump ctx ip (.prompt handle shutdown) data (c.feed data) s := by
      simp [run, feed, hunread, hopen.ending, hopen.waiting]
    have hsettles := pump_eq ctx ip handle shutdown hfeed hlook s
    rw [serve, hrun]
    rcases htalk : converse ctx ip handle first e₁ s with ⟨done, _ | ending, s'⟩
    · obtain rfl : e₁ = none := by
        cases e₁ with
        | none => rfl
        | some error => simpa [htalk] using converse_some ctx ip handle error first s
      rcases hmore : inPieces RequestReader.feed RequestReader.drain reader (pieces.flatMap reads) with
        ⟨more, e₂, rest₂⟩
      obtain ⟨rfl, rfl, rfl⟩ : first ++ more = requests ∧ e₂ = e ∧ rest₂ = rest := by
        simpa [hmore] using h
      rw [htalk] at hsettles
      have hpump : pump ctx ip (.prompt handle shutdown) data (c.feed data) s = _ := hsettles
      obtain ⟨c', hending, hserve⟩ := serve_eq pieces
        (c := { c.feed data with reader, unread := [] })
        ⟨hopen.broken, hopen.ending, hopen.waiting, hopen.stopping, hopen.closed⟩ rfl
        (incremental.next_of_inPieces hwaits hdata) hmore s'
      rw [hpump, converse_append, htalk]
      simp only [hserve]
      exact ⟨c', hending, by simp⟩
    · rw [htalk] at hsettles
      obtain ⟨c₁, hending₁, hpump⟩ := hsettles
      obtain ⟨c', hending, hserve⟩ :=
        serve_of_ended ctx ip (.prompt handle shutdown) pieces hending₁ (shutdown s')
      rw [hpump, converse_of_ended h htalk]
      simp only [hserve]
      exact ⟨c', hending, by simp⟩

variable (ctx ip handle) in
/-- What is done for a client that sends these octets, but for the end. -/
structure Dialogue (pieces : List Bytes) (s : σ) (deeds : List Deed) : Prop where
  /-- There is one exchange for each request that is asked, and then the rejection of what is malformed. -/
  exchanges : deeds = (answers handle (asked pieces) s).1.flatMap (exchange ctx ip) ++
    if malformed pieces then [.write (rejection ctx)] else []
  /-- So one response is written for each, in order, and one more for what is malformed. -/
  responses : deeds.filterMap Deed.response? =
    (answers handle (asked pieces) s).1.map (fun x => respond ctx ip x.1 x.2) ++
      if malformed pieces then [rejection ctx] else []
  /-- The handler is given the requests that are not OPTIONS. -/
  handed : deeds.filterMap handed? = (asked pieces).filter fun r => r.method ≠ .options
  shutdown : Deed.shutdown ∉ deeds
  /-- No request that is asked is left out. -/
  answered : (answers handle (asked pieces) s).1.map Prod.fst = asked pieces
  /-- The handler is as these requests have left it. -/
  state : (answers handle (asked pieces) s).2 =
    ((asked pieces).filter fun r => r.method ≠ .options).foldl (fun s r => (handle r s).2) s
  /-- A response has the sequence number of its request. -/
  cseq : ∀ x ∈ (answers handle (asked pieces) s).1, ∀ v, x.1.headers.get? "CSeq" = some v →
    (respond ctx ip x.1 x.2).headers.get? "CSeq" = some v

theorem dialogue_of_converse {pieces : List Bytes} {requests : List Request} {e : Option RequestError}
    {rest : RequestReader} (hreceived : received pieces = (requests, e, rest)) (s : σ) :
    Dialogue ctx ip handle pieces s (converse ctx ip handle requests e s).1 := by
  have hasked : asked pieces = throughTeardown requests := by rw [asked, hreceived]
  have hmalformed : malformed pieces = (e.isSome && !requests.any isLast) := by
    rw [malformed, hreceived]
  obtain ⟨hdone, -⟩ := converse_eq ctx ip handle e requests s
  rw [← hasked, ← hmalformed] at hdone
  rw [hdone]
  refine ⟨rfl, ?_, ?_, ?_, map_fst_answers handle _ s, snd_answers handle _ s,
    fun x _ v hv => cseq_respond ctx ip hv⟩
  · rw [List.filterMap_append, filterMap_response_exchange]
    split <;> rfl
  · rw [List.filterMap_append, filterMap_handed_exchange, map_fst_answers]
    split <;> simp [handed?]
  · rw [List.mem_append, not_or]
    refine ⟨shutdown_not_mem_exchange ctx ip _, ?_⟩
    split <;> simp

variable (ctx ip) in
/-- **What a connection does for its client.** Octets arrive in any pieces, and then the stream ends.
Each request that is asked is answered by one response, in order and with its sequence number as it
was written; one rejection follows if the octets are malformed before a TEARDOWN. The handler is given
exactly the requests that are asked and are not OPTIONS, and is told once that the client is gone,
after everything else. It may leave answers open, and what comes later is written in their place. -/
theorem dialogue_of_serveThrough (h : Handler σ) (later : Request → σ → Except Error Reply × σ)
    (pieces : List Bytes) (s : σ) :
    ∃ c deeds, serveThrough ctx ip h later pieces {} s =
        (c, deeds ++ [.shutdown], h.shutdown (answers (h.awaited later) (asked pieces) s).2) ∧
      c.ending.isSome ∧ Dialogue ctx ip (h.awaited later) pieces s deeds ∧
      (rejection ctx).status = .badRequest := by
  rcases hreceived : received pieces with ⟨requests, e, rest⟩
  obtain ⟨c, hending, hserve⟩ := serve_eq ctx ip (h.awaited later) h.shutdown pieces (c := {})
    ⟨rfl, rfl, rfl, rfl, rfl⟩ rfl next_empty hreceived s
  have hthrough : serveThrough ctx ip h later pieces {} s =
      serve ctx ip (.prompt (h.awaited later) h.shutdown) pieces {} s := serveThrough_eq pieces rfl s
  have hasked : asked pieces = throughTeardown requests := by rw [asked, hreceived]
  obtain ⟨-, hstate⟩ := converse_eq ctx ip (h.awaited later) e requests s
  refine ⟨c, _, ?_, by rw [hending]; rfl, dialogue_of_converse hreceived s, rfl⟩
  rw [hthrough, hserve, hstate, hasked]

end Connection
end Raop
