/-
# The end of a connection

Whatever ends a connection, its handler is told once that the client is gone,
and not before: what a step does counts one such deed if the connection ends
with it and none if it does not (`ends_run`, `ends_resume`). A connection that
has ended does nothing more, and awaits no answer. One that is to stop ends
with its next step, unless it awaits an answer (`run_stopping`).

Key definitions: `Connection.ended`, `Connection.Idle`, `Connection.Ends`.
Key theorems: `Connection.drain_tells`, `Connection.ends_run`, `Connection.ends_resume`,
`Connection.run_stopping`.
-/
import Raop.Proofs.OpenAnswers

namespace Raop

variable {σ : Type}

namespace Connection

variable {ctx : ConnectionContext} {ip : IpAddress} {h : Handler σ} {c : Connection} {s : σ}

/-- One for a connection that has ended, none for one that goes on. -/
def ended (c : Connection) : Nat := if c.ending.isSome then 1 else 0

/-- A connection that has ended awaits no answer. -/
def Idle (c : Connection) : Prop := c.ending.isSome = true → c.waiting = none

/-- What a step of a connection does about its end: the handler is told if the connection ends with it,
and only then. -/
structure Ends (c : Connection) (x : Connection × List Deed × σ) : Prop where
  idle : x.1.Idle
  told : c.ended + x.2.1.count .shutdown = x.1.ended

theorem ended_of_none (hending : c.ending = none) : c.ended = 0 := by
  simp [ended, hending]

theorem ended_of_isSome (hending : c.ending.isSome = true) : c.ended = 1 := by
  simp [ended, hending]

theorem shutdown_not_mem_handing (request : Request) : Deed.shutdown ∉ handing request := by
  unfold handing
  split <;> simp

theorem shutdown_not_mem_of_write {response : Response} {ending ending' : Option Ending}
    {written : List Deed} (hwrite : c.write response ending = (written, ending')) :
    Deed.shutdown ∉ written := by
  unfold write at hwrite
  split at hwrite <;> cases hwrite <;> simp

theorem Ends.before {x : Connection × List Deed × σ} (hx : Ends c x) {done : List Deed}
    (hdone : Deed.shutdown ∉ done) : Ends c (before done x) where
  idle := hx.idle
  told := by
    show c.ended + (done ++ x.2.1).count .shutdown = x.1.ended
    rw [List.count_append, List.count_eq_zero.2 hdone, Nat.zero_add, hx.told]

theorem ends_conclude {done : List Deed} (hc : c.ended = 0) (hdone : Deed.shutdown ∉ done)
    (c' : Connection) (hending : c'.ending.isSome = true) (hwaiting : c'.waiting = none) (s : σ) :
    Ends c (conclude h c' done s) where
  idle _ := hwaiting
  told := by
    show c.ended + (done ++ [Deed.shutdown]).count .shutdown = c'.ended
    rw [List.count_append, List.count_eq_zero.2 hdone, hc, ended_of_isSome hending]
    rfl

theorem ends_open {x : Connection × List Deed × σ} (hc : c.ended = 0) (hdone : Deed.shutdown ∉ x.2.1)
    (hending : x.1.ending = none) : Ends c x where
  idle hsome := by simp [hending] at hsome
  told := by rw [hc, List.count_eq_zero.2 hdone, ended_of_none hending]

theorem Ends.of_open {c' : Connection} {x : Connection × List Deed × σ} (hx : Ends c' x)
    (hc' : c'.ending = none) (hc : c.ended = 0) : Ends c x where
  idle := hx.idle
  told := by rw [hc, ← hx.told, ended_of_none hc']

/-- A connection that has ended stays so. -/
theorem Ends.ended_eq_one {x : Connection × List Deed × σ} (hx : Ends c x) (hc : c.ended = 1) :
    x.1.ended = 1 := by
  have htold := hx.told
  rw [hc] at htold
  unfold ended at htold ⊢
  split at htold
  · next hsome => rw [if_pos hsome]
  · omega

variable (ctx ip h) in
/-- A look at the buffer tells the handler nothing. -/
theorem drain_tells (hwaiting : c.waiting = none) (hending : c.ending = none) (s : σ) :
    Deed.shutdown ∉ (drain ctx ip h c s).2.1 ∧ (drain ctx ip h c s).1.Idle ∧
      (drain ctx ip h c s).1.stopping = c.stopping := by
  induction hn : c.reader.buffer.length using Nat.strongRecOn generalizing c s with
  | ind n ih =>
    subst hn
    rcases hnext : c.reader.next with ⟨error | _ | request, reader⟩
    · rw [drain_refused hnext]
      exact ⟨shutdown_not_mem_of_write (Prod.eta _).symm, fun _ => hwaiting, rfl⟩
    · rw [drain_waiting hnext]
      exact ⟨List.not_mem_nil, fun _ => hwaiting, rfl⟩
    · rcases hanswer : answer h request s with ⟨_ | result, s'⟩
      · rw [drain_unanswered hnext hanswer]
        refine ⟨shutdown_not_mem_handing request, fun hsome => ?_, rfl⟩
        simp [hending] at hsome
      · rw [drain_answered hnext hanswer]
        rcases hwrite : ({ c with reader } : Connection).write (respond ctx ip request result)
            (endingOf request) with ⟨written, _ | ending⟩
        · have hwritten := shutdown_not_mem_of_write hwrite
          obtain ⟨hmore, hidle, hstopping⟩ :=
            ih _ (RequestReader.next_shorter hnext) (c := { c with reader }) hwaiting hending s' rfl
          rw [proceed_of_open hwrite, before_before]
          refine ⟨?_, hidle, hstopping⟩
          show Deed.shutdown ∉ handing request ++ written ++ _
          simp [shutdown_not_mem_handing, hwritten, hmore]
        · have hwritten := shutdown_not_mem_of_write hwrite
          rw [proceed_of_ended hwrite]
          refine ⟨?_, fun _ => hwaiting, rfl⟩
          show Deed.shutdown ∉ handing request ++ written
          simp [shutdown_not_mem_handing, hwritten]

variable (ctx ip h) in
/-- A connection that goes on tells its handler if it ends. -/
theorem ends_pump (unread : Bytes) (hwaiting : c.waiting = none) (hending : c.ending = none) (s : σ) :
    Ends c (pump ctx ip h unread c s) := by
  induction hn : unread.length using Nat.strongRecOn generalizing c s unread with
  | ind n ih =>
    subst hn
    obtain ⟨hdone, hidle, -⟩ := drain_tells ctx ip h hwaiting hending s
    have hc : c.ended = 0 := ended_of_none hending
    rw [pump_eq_goOn]
    generalize drain ctx ip h c s = x at *
    unfold goOn
    by_cases hends : x.1.ending.isSome = true
    · rw [if_pos hends]
      exact ends_conclude hc hdone { x.1 with unread } hends (hidle hends) _
    rw [if_neg hends]
    have hx : x.1.ending = none := by simpa using hends
    by_cases hwaits : x.1.waiting.isSome = true
    · rw [if_pos hwaits]
      exact ends_open hc hdone hx
    rw [if_neg hwaits]
    have hw : x.1.waiting = none := by simpa using hwaits
    by_cases hstops : x.1.stopping = true
    · rw [if_pos hstops]
      exact ends_conclude hc hdone { x.1 with unread, ending := some .serverStopped } rfl hw _
    rw [if_neg hstops]
    -- nothing but the socket decides now: a piece of it is read, and the connection goes on
    cases unread with
    | nil =>
      show Ends c (if x.1.closed = true then _ else _)
      by_cases hclosed : x.1.closed = true
      · rw [if_pos hclosed]
        exact ends_conclude hc hdone { x.1 with unread := [], ending := some .closedByClient } rfl hw _
      · rw [if_neg hclosed]
        exact ends_open hc hdone hx
    | cons b bs =>
      have hrest := ih _ (by simp only [List.length_drop, List.length_cons, readSize]; omega)
        (c := { x.1 with reader := x.1.reader.feed ((b :: bs).take readSize) })
        ((b :: bs).drop readSize) hw hx x.2.2 rfl
      exact (hrest.of_open hx hc).before hdone

variable (ctx ip h) in
/-- A step of a connection that is idle if it has ended tells the handler if the connection ends. -/
theorem ends_run (hidle : c.Idle) (s : σ) : Ends c (run ctx ip h c s) := by
  unfold run
  by_cases hrests : (c.ending.isSome || c.waiting.isSome) = true
  · rw [if_pos hrests]
    exact ⟨hidle, rfl⟩
  · rw [if_neg hrests]
    have hrests : c.ending = none ∧ c.waiting = none := by simpa using hrests
    exact ends_pump ctx ip h c.unread hrests.2 hrests.1 s

variable (ctx ip h) in
theorem ends_resume (hidle : c.Idle) (result : Except Error Reply) (s : σ) :
    Ends c (resume ctx ip h result c s) := by
  cases hwaiting : c.waiting with
  | none =>
    have hresume : resume ctx ip h result c s = (c, [], s) := by simp [resume, hwaiting]
    rw [hresume]
    exact ⟨hidle, rfl⟩
  | some request =>
    have hending : c.ending = none := by
      cases hsome : c.ending with
      | none => rfl
      | some e => simpa [hwaiting] using hidle (by rw [hsome]; rfl)
    have hc : c.ended = 0 := ended_of_none hending
    rcases hwrite : c.write (respond ctx ip request result) (endingOf request) with ⟨written, _ | ending⟩
    · have hrest := ends_pump ctx ip h c.unread (c := { c with waiting := none, ending := none }) rfl rfl s
      rw [resume_of_open hwaiting hwrite]
      exact (hrest.of_open rfl hc).before (shutdown_not_mem_of_write hwrite)
    · rw [resume_of_ended hwaiting hwrite]
      exact ends_conclude hc (shutdown_not_mem_of_write hwrite)
        { c with waiting := none, ending := some ending } rfl rfl s

variable (ctx ip h) in
/-- A connection that is to stop ends, unless it awaits an answer. -/
theorem run_stopping (hstopping : c.stopping = true) (s : σ) :
    (run ctx ip h c s).1.ending.isSome = true ∨ (run ctx ip h c s).1.waiting.isSome = true := by
  unfold run
  by_cases hrests : (c.ending.isSome || c.waiting.isSome) = true
  · rw [if_pos hrests]
    simpa using hrests
  · rw [if_neg hrests, pump_eq_goOn]
    have hrests : c.ending = none ∧ c.waiting = none := by simpa using hrests
    have hsame := (drain_tells ctx ip h hrests.2 hrests.1 s).2.2
    rw [hstopping] at hsame
    generalize drain ctx ip h c s = x at *
    unfold goOn
    by_cases hends : x.1.ending.isSome = true
    · rw [if_pos hends]
      exact .inl hends
    by_cases hwaits : x.1.waiting.isSome = true
    · rw [if_neg hends, if_pos hwaits]
      exact .inr hwaits
    · rw [if_neg hends, if_neg hwaits, if_pos hsame]
      exact .inl rfl

end Connection
end Raop
