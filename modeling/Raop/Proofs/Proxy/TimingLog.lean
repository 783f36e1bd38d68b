/-
# The table of open timing requests and its log

A table forgets: a request goes when its key is observed again, when it is
answered, when the table is emptied, and, at no fixed time, some while after it
is too old. Its log forgets nothing. What a key resolves to can be read off the
log alone: the last event that concerns the key must be a request, and one that
is not too old. So it does not show when a table drops what is too old.

The invariant says that a table is what the log says it is, up to what is too
old at a time (`Reflects`). It gets no harder to satisfy as time passes, and
each call keeps it for the log with the call at its end, if no call is earlier
than the one before it.

Key definitions: `TimingCall`, `TimingEvent`, `TimingKeys.latest`, `TimingKeys.ofLog`,
`TimingKeys.InOrder`, `TimingKeys.Reflects`.
Key theorems: `TimingKeys.Reflects.step`, `TimingKeys.reflects_ofLog`,
`TimingKeys.resolves_as_logged`.
-/
import Raop.Proofs.Proxy.TimingKeys

namespace Raop

/-- What is done to a table. -/
inductive TimingCall (α : Type) where
  /-- A request is remembered. -/
  | observe (key : UInt64) (origin : α)
  /-- A request is answered. -/
  | resolve (key : UInt64)
  | clear
  deriving DecidableEq, Repr

namespace TimingCall

variable {α : Type}

/-- The call is about a key: it is made for it, or for every key. -/
def concerns (key : UInt64) : TimingCall α → Bool
  | observe k _ => k = key
  | resolve k => k = key
  | clear => true

@[simp] theorem concerns_observe (key k : UInt64) (origin : α) :
    (observe k origin).concerns key = decide (k = key) := rfl

@[simp] theorem concerns_resolve (key k : UInt64) :
    (resolve k : TimingCall α).concerns key = decide (k = key) := rfl

@[simp] theorem concerns_clear (key : UInt64) : (clear : TimingCall α).concerns key = true := rfl

end TimingCall

/-- A call and when it is made. -/
structure TimingEvent (α : Type) where
  time : Nat
  call : TimingCall α
  deriving DecidableEq, Repr

namespace TimingKeys

variable {α : Type}

/-! ### The log -/

/-- The last event that concerns a key. -/
def latest (key : UInt64) (log : List (TimingEvent α)) : Option (TimingEvent α) :=
  (log.filter fun e => e.call.concerns key).getLast?

/-- No event is earlier than one in front of it. -/
def InOrder (log : List (TimingEvent α)) : Prop := log.Pairwise fun a b => a.time ≤ b.time

instance (log : List (TimingEvent α)) : Decidable (InOrder log) :=
  inferInstanceAs (Decidable (log.Pairwise fun a b => a.time ≤ b.time))

variable {log : List (TimingEvent α)} {e : TimingEvent α} {key : UInt64} {now : Nat}

theorem latest_concat (key : UInt64) (log : List (TimingEvent α)) (e : TimingEvent α) :
    latest key (log ++ [e]) = if e.call.concerns key then some e else latest key log :=
  getLast?_filter_concat _ log e

theorem mem_of_latest (h : latest key log = some e) : e ∈ log := (of_getLast?_filter h).1

theorem inOrder_concat : InOrder (log ++ [e]) ↔ InOrder log ∧ ∀ d ∈ log, d.time ≤ e.time := by
  simp [InOrder, List.pairwise_append]

/-! ### The table -/

/-- The table after an event. -/
def step (t : TimingKeys α) (e : TimingEvent α) : TimingKeys α :=
  match e.call with
  | .observe key origin => t.observe e.time key origin
  | .resolve key => (t.resolve e.time key).2
  | .clear => t.clear

/-- The table after the events of a log, which was empty before. -/
def ofLog (ttl : Nat) (log : List (TimingEvent α)) : TimingKeys α := log.foldl step { ttl }

theorem ofLog_concat (ttl : Nat) (log : List (TimingEvent α)) (e : TimingEvent α) :
    ofLog ttl (log ++ [e]) = (ofLog ttl log).step e := by
  simp [ofLog]

theorem ttl_step (t : TimingKeys α) (e : TimingEvent α) : (t.step e).ttl = t.ttl := by
  unfold step
  split <;> simp

theorem ttl_ofLog (ttl : Nat) (log : List (TimingEvent α)) : (ofLog ttl log).ttl = ttl := by
  induction log using List.reverseRecOn with
  | nil => rfl
  | append_singleton log e ih => rw [ofLog_concat, ttl_step, ih]

/-- A table holds what its log has open, except for some of what is too old at a time. -/
structure Reflects (t : TimingKeys α) (log : List (TimingEvent α)) (now : Nat) : Prop where
  distinct : t.Distinct
  /-- What is held is open. -/
  latest_of_mem : ∀ d ∈ t.entries, latest d.key log = some ⟨d.seen, .observe d.key d.origin⟩
  /-- What is open and not too old is held. -/
  mem_of_latest : ∀ key origin seen, latest key log = some ⟨seen, .observe key origin⟩ →
    now ≤ seen + t.ttl → ⟨key, origin, seen⟩ ∈ t.entries

namespace Reflects

variable {t : TimingKeys α}

/-- What is too old stays so. -/
theorem mono {later : Nat} (h : t.Reflects log now) (hle : now ≤ later) : t.Reflects log later :=
  { h with
    mem_of_latest := by
      intro key origin seen hlatest hfresh
      exact h.mem_of_latest key origin seen hlatest (Nat.le_trans hle hfresh) }

theorem empty (ttl now : Nat) : ({ ttl } : TimingKeys α).Reflects [] now where
  distinct := distinct_of_entries_eq_nil rfl
  latest_of_mem d hd := by cases hd
  mem_of_latest key origin seen hlatest := by cases hlatest

theorem observe (h : t.Reflects log now) (key : UInt64) (origin : α) :
    (t.observe now key origin).Reflects (log ++ [⟨now, .observe key origin⟩]) now where
  distinct := h.distinct.observe now key origin
  latest_of_mem d hd := by
    rw [latest_concat]
    rcases mem_observe.1 hd with rfl | ⟨hold, hne, -⟩
    · simp
    · have hother : decide (key = d.key) = false := decide_eq_false (Ne.symm hne)
      rw [TimingCall.concerns_observe, hother]
      exact h.latest_of_mem d hold
  mem_of_latest k o seen hlatest hfresh := by
    rw [latest_concat, TimingCall.concerns_observe] at hlatest
    rw [ttl_observe] at hfresh
    refine mem_observe.2 ?_
    by_cases hkey : key = k
    · -- the call itself is the last event of its key
      have hself : (⟨now, .observe key origin⟩ : TimingEvent α) = ⟨seen, .observe k o⟩ := by
        simpa [hkey] using hlatest
      obtain ⟨rfl, hcall⟩ := TimingEvent.mk.inj hself
      obtain ⟨rfl, rfl⟩ := TimingCall.observe.inj hcall
      exact Or.inl rfl
    · have hlatest : latest k log = some ⟨seen, .observe k o⟩ := by simpa [hkey] using hlatest
      have hmem := h.mem_of_latest k o seen hlatest hfresh
      exact Or.inr ⟨hmem, Ne.symm hkey, decide_eq_true hfresh⟩

theorem resolve (h : t.Reflects log now) (key : UInt64) :
    (t.resolve now key).2.Reflects (log ++ [⟨now, .resolve key⟩]) now where
  distinct := h.distinct.resolve now key
  latest_of_mem d hd := by
    obtain ⟨hold, hne⟩ := mem_resolve.1 hd
    have hother : decide (key = d.key) = false := decide_eq_false (Ne.symm hne)
    rw [latest_concat, TimingCall.concerns_resolve, hother]
    exact h.latest_of_mem d hold
  mem_of_latest k o seen hlatest hfresh := by
    rw [latest_concat, TimingCall.concerns_resolve] at hlatest
    rw [ttl_resolve] at hfresh
    by_cases hkey : key = k
    · simp [hkey] at hlatest
    · have hlatest : latest k log = some ⟨seen, .observe k o⟩ := by simpa [hkey] using hlatest
      exact mem_resolve.2 ⟨h.mem_of_latest k o seen hlatest hfresh, Ne.symm hkey⟩

theorem clear (t : TimingKeys α) (log : List (TimingEvent α)) (now : Nat) :
    t.clear.Reflects (log ++ [⟨now, .clear⟩]) now where
  distinct := distinct_of_entries_eq_nil rfl
  latest_of_mem d hd := by cases hd
  mem_of_latest k o seen hlatest := by simp [latest_concat] at hlatest

/-- A call keeps a table what its log says it is. -/
theorem step (h : t.Reflects log e.time) : (t.step e).Reflects (log ++ [e]) e.time := by
  obtain ⟨now, call⟩ := e
  cases call with
  | observe key origin => exact h.observe key origin
  | resolve key => exact h.resolve key
  | clear => exact Reflects.clear t log now

/-- What a key resolves to is the origin of its last event, if that is a request and not too old. -/
theorem resolve_eq_some_iff (h : t.Reflects log now) {origin : α} :
    (t.resolve now key).1 = some origin ↔
      ∃ seen, latest key log = some ⟨seen, .observe key origin⟩ ∧ now ≤ seen + t.ttl := by
  rw [TimingKeys.resolve_eq_some_iff h.distinct]
  constructor
  · rintro ⟨d, hd, rfl, hfresh, rfl⟩
    exact ⟨d.seen, h.latest_of_mem d hd, of_decide_eq_true hfresh⟩
  · rintro ⟨seen, hlatest, hfresh⟩
    have hmem := h.mem_of_latest key origin seen hlatest hfresh
    exact ⟨_, hmem, rfl, decide_eq_true hfresh, rfl⟩

end Reflects

/-- **A table is what its log says it is**, at any time from its last event on. -/
theorem reflects_ofLog (ttl : Nat) (h : InOrder log) (hnow : ∀ e ∈ log, e.time ≤ now) :
    (ofLog ttl log).Reflects log now := by
  induction log using List.reverseRecOn generalizing now with
  | nil => exact Reflects.empty ttl now
  | append_singleton log e ih =>
    obtain ⟨horder, hlast⟩ := inOrder_concat.1 h
    have hstep := (ih horder hlast).step
    rw [← ofLog_concat] at hstep
    exact hstep.mono (hnow e (by simp))

/-- When a request was observed, nothing is held that is too old. -/
theorem fresh_of_mem_observe {t : TimingKeys α} {origin : α} {d : TimingEntry α}
    (hd : d ∈ (t.observe now key origin).entries) : now ≤ d.seen + t.ttl := by
  rcases mem_observe.1 hd with rfl | ⟨-, -, hfresh⟩
  · exact Nat.le_add_right now t.ttl
  · exact of_decide_eq_true hfresh

/-- **A table behaves as its log.** In any sequence of calls, none of them earlier than the one before,
that an empty table is given: a key resolves to an origin just if the last event in front that concerns
the key is a request from that origin, not longer ago than requests are remembered; and when a request
was observed, the table holds the requests that are last of their key and not longer ago than that, and
holds nothing else. -/
theorem resolves_as_logged (ttl : Nat) {events : List (TimingEvent α)} (h : InOrder events)
    {past future : List (TimingEvent α)} {e : TimingEvent α} (hsplit : events = past ++ e :: future) :
    (∀ key, e.call = .resolve key → ∀ origin,
      ((ofLog ttl past).resolve e.time key).1 = some origin ↔
        ∃ seen, latest key past = some ⟨seen, .observe key origin⟩ ∧ e.time ≤ seen + ttl) ∧
    (∀ key origin, e.call = .observe key origin → ∀ d,
      d ∈ (ofLog ttl (past ++ [e])).entries ↔
        latest d.key (past ++ [e]) = some ⟨d.seen, .observe d.key d.origin⟩ ∧
          d.seen ≤ e.time ∧ e.time ≤ d.seen + ttl) := by
  have horder : InOrder (past ++ [e]) := by
    have hfront : past ++ [e] <+: events := ⟨future, by simp [hsplit]⟩
    exact h.sublist hfront.sublist
  obtain ⟨hpast, hlast⟩ := inOrder_concat.1 horder
  have hbefore := reflects_ofLog ttl hpast hlast
  have hafter : (ofLog ttl (past ++ [e])).Reflects (past ++ [e]) e.time := by
    rw [ofLog_concat]
    exact hbefore.step
  constructor
  · intro key _ origin
    rw [hbefore.resolve_eq_some_iff, ttl_ofLog]
  · intro key origin hcall d
    constructor
    · intro hd
      have hlatest := hafter.latest_of_mem d hd
      have hseen : d.seen ≤ e.time := by
        rcases List.mem_append.1 (mem_of_latest hlatest) with hmem | hmem
        · exact hlast _ hmem
        · exact Nat.le_of_eq (congrArg TimingEvent.time (List.mem_singleton.1 hmem))
      have hfresh : e.time ≤ d.seen + ttl := by
        have hstep : (ofLog ttl past).step e = (ofLog ttl past).observe e.time key origin := by
          simp only [step, hcall]
        rw [ofLog_concat, hstep] at hd
        simpa only [ttl_ofLog] using fresh_of_mem_observe hd
      exact ⟨hlatest, hseen, hfresh⟩
    · rintro ⟨hlatest, -, hfresh⟩
      exact hafter.mem_of_latest d.key d.origin d.seen hlatest (by rwa [ttl_ofLog])

/-- Two peers ask, one of them twice with one key, and are answered; then the table is emptied. -/
def busyLog : List (TimingEvent Nat) :=
  [⟨0, .observe 1 10⟩, ⟨4, .observe 2 20⟩, ⟨9, .observe 1 11⟩, ⟨15, .observe 3 30⟩, ⟨15, .resolve 2⟩,
    ⟨19, .resolve 1⟩, ⟨19, .resolve 1⟩, ⟨20, .clear⟩, ⟨20, .resolve 3⟩]

/-- With requests remembered for ten units of time: the table is purged at the fourth call, the request
of key 1 is the second one, and is answered once. -/
theorem resolves_as_logged_busyLog :
    InOrder busyLog ∧ ⟨2, 20, 4⟩ ∉ (ofLog 10 (busyLog.take 4)).entries ∧
      ((ofLog 10 (busyLog.take 5)).resolve 19 1).1 = some 11 ∧
      ((ofLog 10 (busyLog.take 6)).resolve 19 1).1 ≠ some 11 := by
  have horder : InOrder busyLog := by decide
  refine ⟨horder, fun hd => ?_, ?_, fun hanswer => ?_⟩
  · have hcut : busyLog = busyLog.take 3 ++ ⟨15, .observe 3 30⟩ :: busyLog.drop 4 := rfl
    have hpurged := (resolves_as_logged 10 horder hcut).2 3 30 rfl ⟨2, 20, 4⟩
    exact absurd (hpurged.1 hd).2.2 (by decide)
  · have hcut : busyLog = busyLog.take 5 ++ ⟨19, .resolve 1⟩ :: busyLog.drop 6 := rfl
    have hfirst := (resolves_as_logged 10 horder hcut).1 1 rfl 11
    exact hfirst.2 ⟨9, by decide, by decide⟩
  · have hcut : busyLog = busyLog.take 6 ++ ⟨19, .resolve 1⟩ :: busyLog.drop 7 := rfl
    have hsecond := (resolves_as_logged 10 horder hcut).1 1 rfl 11
    obtain ⟨seen, hlatest, -⟩ := hsecond.1 hanswer
    have hresolved : latest 1 (busyLog.take 6) = some ⟨19, .resolve 1⟩ := by decide
    rw [hresolved] at hlatest
    cases hlatest

end TimingKeys
end Raop
