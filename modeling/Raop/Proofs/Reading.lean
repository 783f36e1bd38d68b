/-
# Octets that arrive in pieces

A reader is fed octets and looked at: a look takes a message, waits for more,
or is refused. It is drained by looking until it waits or is refused. Suppose
that a look does not change its mind when more octets follow. Then it does not
matter where a stream is cut: draining after every piece gives what draining
the whole stream at once gives (`Incremental.inPieces_same`).

A reader may have a limit on what it keeps while it waits; such a reader keeps
its refusals only of streams that fit (`fits`).

Key definitions: `inPieces`, `Same`, `Incremental`.
Key theorems: `Incremental.drain_feed_refused`, `Incremental.drain_feed_waiting`,
`Incremental.inPieces_same`.
-/
import Raop.Bytes

namespace Raop
namespace Reading

variable {σ α ε : Type}

/-- Octets fed piece by piece, the reader drained after each; nothing is fed after an error. -/
def inPieces (feed : σ → Bytes → σ) (drain : σ → List α × Option ε × σ) (r : σ) :
    List Bytes → List α × Option ε × σ
  | [] => ([], none, r)
  | piece :: pieces =>
    match drain (feed r piece) with
    | (messages, some e, r') => (messages, some e, r')
    | (messages, none, r') =>
      let (more, e, r'') := inPieces feed drain r' pieces
      (messages ++ more, e, r'')

/-- What was read, and without an error what is read further. -/
def andThen (first : List α × Option ε × σ) (further : σ → List α × Option ε × σ) :
    List α × Option ε × σ :=
  match first with
  | (messages, some e, r) => (messages, some e, r)
  | (messages, none, r) => (messages ++ (further r).1, (further r).2)

@[simp] theorem andThen_error (messages : List α) (e : ε) (r : σ)
    (further : σ → List α × Option ε × σ) :
    andThen (messages, some e, r) further = (messages, some e, r) := rfl

@[simp] theorem andThen_ok (messages : List α) (r : σ) (further : σ → List α × Option ε × σ) :
    andThen (messages, none, r) further = (messages ++ (further r).1, (further r).2) := rfl

theorem inPieces_cons (feed : σ → Bytes → σ) (drain : σ → List α × Option ε × σ) (r : σ)
    (piece : Bytes) (pieces : List Bytes) :
    inPieces feed drain r (piece :: pieces) =
      andThen (drain (feed r piece)) fun r => inPieces feed drain r pieces := rfl

/-- Pieces that follow are fed to the reader that is left. -/
theorem inPieces_append (feed : σ → Bytes → σ) (drain : σ → List α × Option ε × σ) (ys : List Bytes) :
    ∀ (xs : List Bytes) (r : σ), inPieces feed drain r (xs ++ ys) =
      andThen (inPieces feed drain r xs) fun r => inPieces feed drain r ys
  | [], _ => rfl
  | x :: xs, r => by
    rw [List.cons_append, inPieces_cons, inPieces_cons]
    rcases drain (feed r x) with ⟨messages, _ | e, r'⟩
    · simp only [andThen_ok]
      rw [inPieces_append feed drain ys xs r']
      rcases inPieces feed drain r' xs with ⟨more, _ | e, r''⟩ <;> simp
    · rfl

/-- The same messages and the same error, and without an error the same reader afterwards. -/
def Same (x y : List α × Option ε × σ) : Prop :=
  x.1 = y.1 ∧ x.2.1 = y.2.1 ∧ (x.2.1 = none → x.2.2 = y.2.2)

theorem Same.symm {x y : List α × Option ε × σ} (h : Same x y) : Same y x :=
  ⟨h.1.symm, h.2.1.symm, fun hy => (h.2.2 (h.2.1.trans hy)).symm⟩

theorem Same.trans {x y z : List α × Option ε × σ} (h : Same x y) (h' : Same y z) : Same x z :=
  ⟨h.1.trans h'.1, h.2.1.trans h'.2.1, fun hx => (h.2.2 hx).trans (h'.2.2 (h.2.1 ▸ hx))⟩

/-- A reader whose looks do not change when more octets follow, with `drain` its repeated look. -/
structure Incremental (feed : σ → Bytes → σ) (next : σ → Except ε (Option α) × σ)
    (drain : σ → List α × Option ε × σ) (size : σ → Nat) (fits : σ → Prop) : Prop where
  feed_nil : ∀ r, feed r [] = r
  feed_feed : ∀ r data more, feed (feed r data) more = feed r (data ++ more)
  drain_taken : ∀ {r a r' as e r''}, next r = (.ok (some a), r') → drain r' = (as, e, r'') →
    drain r = (a :: as, e, r'')
  drain_waiting : ∀ {r r'}, next r = (.ok none, r') → drain r = ([], none, r')
  drain_refused : ∀ {r e r'}, next r = (.error e, r') → drain r = ([], some e, r')
  /-- A message that is taken leaves less to read. -/
  shorter : ∀ {r a r'}, next r = (.ok (some a), r') → size r' < size r
  taken_feed : ∀ {r a r'} data, next r = (.ok (some a), r') →
    next (feed r data) = (.ok (some a), feed r' data)
  waiting_feed : ∀ {r r'} data, next r = (.ok none, r') → next (feed r data) = next (feed r' data)
  refused_feed : ∀ {r e r'} data, next r = (.error e, r') → fits (feed r data) →
    ∃ r'', next (feed r data) = (.error e, r'')
  /-- A stream that fits still fits after a look. -/
  fits_feed : ∀ {r m r'} data, next r = (.ok m, r') → fits (feed r data) → fits (feed r' data)

namespace Incremental

variable {feed : σ → Bytes → σ} {next : σ → Except ε (Option α) × σ}
  {drain : σ → List α × Option ε × σ} {size : σ → Nat} {fits : σ → Prop}

/-- Induction along the messages that are taken. -/
theorem induct (I : Incremental feed next drain size fits) {P : σ → Prop}
    (waiting : ∀ r r', next r = (.ok none, r') → P r)
    (refused : ∀ r e r', next r = (.error e, r') → P r)
    (taken : ∀ r a r', next r = (.ok (some a), r') → P r' → P r) (r : σ) : P r := by
  induction hn : size r using Nat.strongRecOn generalizing r with
  | ind n ih =>
    subst hn
    rcases h : next r with ⟨_ | _ | a, r'⟩
    · exact refused r _ r' h
    · exact waiting r r' h
    · exact taken r a r' h (ih _ (I.shorter h) r' rfl)

/-- Draining stops at a reader that waits. -/
theorem next_of_drain (I : Incremental feed next drain size fits) {r r' : σ} {as : List α}
    (h : drain r = (as, none, r')) : next r' = (.ok none, r') := by
  induction r using I.induct generalizing as with
  | waiting r s hs =>
    rw [I.drain_waiting hs] at h
    obtain rfl : s = r' := by simpa using congrArg (·.2.2) h
    -- looking again is a look after nothing more was fed
    have := I.waiting_feed [] hs
    rwa [I.feed_nil, I.feed_nil, hs, eq_comm] at this
  | refused r e s hs =>
    rw [I.drain_refused hs] at h
    cases h
  | taken r a s hs ih =>
    rcases hd : drain s with ⟨bs, e, t⟩
    rw [I.drain_taken hs hd] at h
    cases h
    exact ih hd

/-- A reader that waits still waits after pieces without an error. -/
theorem next_of_inPieces (I : Incremental feed next drain size fits) :
    ∀ {pieces : List Bytes} {r r' : σ} {as : List α}, next r = (.ok none, r) →
      inPieces feed drain r pieces = (as, none, r') → next r' = (.ok none, r')
  | [], r, r', as, hr, h => by
    obtain ⟨-, rfl⟩ : [] = as ∧ r = r' := by simpa [inPieces] using h
    exact hr
  | piece :: pieces, r, r', as, _, h => by
    rw [inPieces] at h
    rcases hd : drain (feed r piece) with ⟨bs, _ | e, s⟩
    · rw [hd] at h
      rcases hrest : inPieces feed drain s pieces with ⟨cs, e', t⟩
      obtain ⟨-, rfl, rfl⟩ : bs ++ cs = as ∧ e' = none ∧ t = r' := by simpa [hrest] using h
      exact I.next_of_inPieces (I.next_of_drain hd) hrest
    · rw [hd] at h
      cases h

/-- More octets do not undo a refusal, nor what was taken before it. -/
theorem drain_feed_refused (I : Incremental feed next drain size fits) {r r' : σ} {as : List α}
    {e : ε} (data : Bytes) (h : drain r = (as, some e, r')) (hf : fits (feed r data)) :
    ∃ r'', drain (feed r data) = (as, some e, r'') := by
  induction r using I.induct generalizing as with
  | waiting r s hs =>
    rw [I.drain_waiting hs] at h
    cases h
  | refused r e' s hs =>
    rw [I.drain_refused hs] at h
    cases h
    obtain ⟨r'', hr⟩ := I.refused_feed data hs hf
    exact ⟨r'', I.drain_refused hr⟩
  | taken r a s hs ih =>
    rcases hd : drain s with ⟨bs, e', t⟩
    rw [I.drain_taken hs hd] at h
    cases h
    obtain ⟨r'', hr⟩ := ih hd (I.fits_feed data hs hf)
    exact ⟨r'', I.drain_taken (I.taken_feed data hs) hr⟩

/-- Draining what was read and more is draining what was read, and going on with more. -/
theorem drain_feed_waiting (I : Incremental feed next drain size fits) {r r' : σ} {as : List α}
    (data : Bytes) (h : drain r = (as, none, r')) (hf : fits (feed r data)) :
    drain (feed r data) = (as ++ (drain (feed r' data)).1, (drain (feed r' data)).2) ∧
      fits (feed r' data) := by
  induction r using I.induct generalizing as with
  | waiting r s hs =>
    rw [I.drain_waiting hs] at h
    cases h
    refine ⟨?_, I.fits_feed data hs hf⟩
    have heq := I.waiting_feed data hs
    rw [List.nil_append]
    rcases hn : next (feed r' data) with ⟨_ | _ | a, t⟩
    · rw [I.drain_refused hn, I.drain_refused (heq.trans hn)]
    · rw [I.drain_waiting hn, I.drain_waiting (heq.trans hn)]
    · rw [I.drain_taken hn rfl, I.drain_taken (heq.trans hn) rfl]
  | refused r e s hs =>
    rw [I.drain_refused hs] at h
    cases h
  | taken r a s hs ih =>
    rcases hd : drain s with ⟨bs, e', t⟩
    rw [I.drain_taken hs hd] at h
    cases h
    obtain ⟨hall, hfit⟩ := ih hd (I.fits_feed data hs hf)
    exact ⟨I.drain_taken (I.taken_feed data hs) hall, hfit⟩

/-- **It does not matter where a stream is cut.** A waiting reader that is fed a stream in pieces
and drained after each takes what it takes when it is fed the whole stream at once. -/
theorem inPieces_same (I : Incremental feed next drain size fits) (pieces : List Bytes) {r : σ}
    (hr : next r = (.ok none, r)) (hf : fits (feed r pieces.flatten)) :
    Same (inPieces feed drain r pieces) (drain (feed r pieces.flatten)) := by
  induction pieces generalizing r with
  | nil =>
    rw [List.flatten_nil, I.feed_nil, I.drain_waiting hr]
    exact ⟨rfl, rfl, fun _ => rfl⟩
  | cons piece pieces ih =>
    rw [List.flatten_cons, ← I.feed_feed] at hf ⊢
    rw [inPieces]
    rcases hd : drain (feed r piece) with ⟨as, _ | e, r'⟩
    · obtain ⟨hall, hfit⟩ := I.drain_feed_waiting pieces.flatten hd hf
      obtain ⟨h1, h2, h3⟩ := ih (I.next_of_drain hd) hfit
      rw [hall]
      exact ⟨congrArg (as ++ ·) h1, h2, h3⟩
    · obtain ⟨r'', hall⟩ := I.drain_feed_refused pieces.flatten hd hf
      rw [hall]
      exact ⟨rfl, rfl, fun hn => by cases hn⟩

end Incremental
end Reading
end Raop
