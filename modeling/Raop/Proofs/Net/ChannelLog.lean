/-
# Channel sets and the log of their calls

Channels are opened and closed by role, with whatever comes of an attempt to
open one. The log of the calls keeps what each of them gave, so that every
channel that was ever given is known (`ChannelSet.granted`). What a set holds can
be read off the log alone: for each role the channel that its last call gave, if
that was an attempt to open it and was granted. All others that were given are
closed, and their sockets are gone; so no channel is left open that the set does
not know of.

The invariant says just that (`ChannelSet.Follows`). Opening a role is closing it
and adding a channel, so it rests on what closing does.

Key definitions: `ChannelCall`, `ChannelEvent`, `ChannelSet.run`, `ChannelSet.latest`,
`ChannelSet.granted`, `ChannelSet.Follows`.
Key theorems: `ChannelSet.Follows.closeRole`, `ChannelSet.Follows.openRole`,
`ChannelSet.Follows.closeAll`, `ChannelSet.follows_run`, `ChannelSet.open_as_logged`.
-/
import Raop.Proofs.Net.ChannelSet

namespace Raop

/-- What is asked of a channel set; what the system does with an attempt to open a channel comes with
the attempt. -/
inductive ChannelCall where
  | openRole (binder : Binder) (role : Role) (localEnd : Endpoint) (remote : Option Endpoint)
  | closeRole (role : Role)
  | closeAll

/-- What came of a call. -/
inductive ChannelEvent where
  | opened (role : Role) (result : Except Error Channel)
  | closed (role : Role)
  | allClosed

namespace ChannelEvent

variable (role r : Role) (result : Except Error Channel)

/-- The call was about a role. -/
def concerns (role : Role) : ChannelEvent → Bool
  | opened r _ => r = role
  | closed r => r = role
  | allClosed => true

/-- The channel that was given. -/
def granted? : ChannelEvent → Option Channel
  | opened _ (.ok c) => some c
  | _ => none

@[simp] theorem concerns_opened : (opened r result).concerns role = decide (r = role) := rfl

@[simp] theorem concerns_closed : (closed r).concerns role = decide (r = role) := rfl

@[simp] theorem concerns_allClosed : allClosed.concerns role = true := rfl

@[simp] theorem granted?_ok (c : Channel) : (opened role (.ok c)).granted? = some c := rfl

@[simp] theorem granted?_error (e : Error) : (opened role (.error e)).granted? = none := rfl

@[simp] theorem granted?_closed : (closed role).granted? = none := rfl

@[simp] theorem granted?_allClosed : allClosed.granted? = none := rfl

end ChannelEvent

namespace ChannelSet

variable {s : ChannelSet} {log : List ChannelEvent} {role : Role} {c : Channel}

/-! ### The log -/

/-- The last event that concerns a role. -/
def latest (role : Role) (log : List ChannelEvent) : Option ChannelEvent :=
  (log.filter fun e => e.concerns role).getLast?

/-- Every channel that was ever given. -/
def granted (log : List ChannelEvent) : List Channel := log.filterMap ChannelEvent.granted?

theorem latest_concat (role : Role) (log : List ChannelEvent) (e : ChannelEvent) :
    latest role (log ++ [e]) = if e.concerns role then some e else latest role log :=
  getLast?_filter_concat _ log e

@[simp] theorem granted_concat (log : List ChannelEvent) (e : ChannelEvent) :
    granted (log ++ [e]) = granted log ++ e.granted?.toList := by
  rw [granted, List.filterMap_append]
  cases h : e.granted? <;> simp [h, granted]

theorem mem_of_latest {e : ChannelEvent} (h : latest role log = some e) : e ∈ log :=
  (of_getLast?_filter h).1

/-! ### The set -/

/-- The attempts that the known channels came from. -/
def ids (s : ChannelSet) : List Nat := (s.entries ++ s.released).map (·.id)

open scoped List in
/-- Closing a role makes no channel known or unknown. -/
theorem ids_closeRole (s : ChannelSet) (role : Role) : (s.closeRole role).ids ~ s.ids := by
  rcases closeRole_cases s role with ⟨-, hs⟩ | ⟨c, -, hperm, hreleased, -⟩
  · rw [hs]
  · have hids := (hperm.map (·.id)).append_right (s.released.map (·.id))
    simp only [ids, hreleased, List.map_append, List.map_cons] at hids ⊢
    exact List.perm_middle.trans hids

open scoped List in
/-- A channel that is added becomes known. -/
theorem ids_add (s : ChannelSet) (c : Channel) (n : Nat) :
    ids { s with entries := s.entries ++ [c], attempts := n } ~ c.id :: s.ids := by
  simp only [ids, List.map_append, List.map_cons, List.append_assoc, List.singleton_append]
  exact List.perm_middle

theorem ids_closeAll (s : ChannelSet) : s.closeAll.ids = s.ids := by
  simp [ids, closeAll, Channel.shutdown]

theorem attempts_closeRole (s : ChannelSet) (role : Role) : (s.closeRole role).attempts = s.attempts := by
  rcases closeRole_cases s role with ⟨-, hs⟩ | ⟨c, -, -, -, hattempts⟩
  · rw [hs]
  · exact hattempts

theorem mem_released_closeRole {d : Channel} (hd : d ∈ s.released) (role : Role) :
    d ∈ (s.closeRole role).released := by
  rcases closeRole_cases s role with ⟨-, hs⟩ | ⟨c, -, -, hreleased, -⟩
  · rwa [hs]
  · rw [hreleased]
    exact List.mem_cons_of_mem _ hd

/-- A channel stays in the set or is shut down. -/
theorem mem_or_shutdown_closeRole (hc : c ∈ s.entries) (role : Role) :
    c ∈ (s.closeRole role).entries ∨ c.shutdown ∈ (s.closeRole role).released := by
  rcases closeRole_cases s role with ⟨-, hs⟩ | ⟨d, -, hperm, hreleased, -⟩
  · exact Or.inl (hs.symm ▸ hc)
  · rw [hreleased]
    rcases List.mem_cons.1 (hperm.mem_iff.2 hc) with rfl | hstays
    · exact Or.inr List.mem_cons_self
    · exact Or.inl hstays

/-- Opening a role is closing it and adding a channel, if one is granted. -/
theorem openRole_cases (s : ChannelSet) (binder : Binder) (role : Role) (localEnd : Endpoint)
    (remote : Option Endpoint) :
    (∃ e, s.openRole binder role localEnd remote =
      (.error e, { s.closeRole role with attempts := s.attempts + 1 })) ∨
    ∃ port, s.openRole binder role localEnd remote =
      (.ok { id := s.attempts, role, port, remote },
        { s.closeRole role with
          entries := (s.closeRole role).entries ++ [{ id := s.attempts, role, port, remote }]
          attempts := s.attempts + 1 }) := by
  have hattempts := attempts_closeRole s role
  unfold openRole
  simp only [hattempts]
  split
  · next e _ => exact Or.inl ⟨e, rfl⟩
  · next port _ => exact Or.inr ⟨port, rfl⟩

/-! ### What a set and its log have to do with each other -/

/-- A set is what the log of its calls says: a role has the channel that its last call gave, and every
channel that was given is in the set, or was shut down and left it. -/
structure Follows (s : ChannelSet) (log : List ChannelEvent) : Prop where
  distinct : s.Distinct
  holds : ∀ role c, c ∈ s.entries ∧ c.role = role ↔ latest role log = some (.opened role (.ok c))
  ids_nodup : s.ids.Nodup
  ids_lt : ∀ i ∈ s.ids, i < s.attempts
  known : ∀ c ∈ granted log, c.isOpen = true ∧ (c ∈ s.entries ∨ c.shutdown ∈ s.released)

namespace Follows

theorem empty : Follows {} [] where
  distinct := List.nodup_nil
  holds role c := by simp [latest]
  ids_nodup := List.nodup_nil
  ids_lt i hi := by cases hi
  known c hc := by cases hc

/-- Of a log only the last events and the channels that were given count. -/
theorem congr {log' : List ChannelEvent} (h : s.Follows log)
    (hlatest : ∀ role, latest role log' = latest role log) (hgranted : granted log' = granted log) :
    s.Follows log' :=
  { h with
    holds := by simpa only [hlatest] using h.holds
    known := by simpa only [hgranted] using h.known }

/-- Closing a role keeps a set what its log says. -/
theorem closeRole (h : s.Follows log) (role : Role) :
    (s.closeRole role).Follows (log ++ [.closed role]) where
  distinct := (h.distinct.closeRole role).1
  holds r c := by
    rw [(h.distinct.closeRole role).2, latest_concat]
    by_cases hr : role = r
    · simp [hr]
    · have hother : (ChannelEvent.closed role).concerns r = false := decide_eq_false hr
      rw [hother, if_neg Bool.false_ne_true, ← h.holds]
      constructor
      · rintro ⟨⟨hc, -⟩, hrole⟩
        exact ⟨hc, hrole⟩
      · rintro ⟨hc, hrole⟩
        exact ⟨⟨hc, hrole ▸ Ne.symm hr⟩, hrole⟩
  ids_nodup := (ids_closeRole s role).nodup_iff.2 h.ids_nodup
  ids_lt i hi := by
    rw [attempts_closeRole]
    exact h.ids_lt i ((ids_closeRole s role).mem_iff.1 hi)
  known c hc := by
    have hc : c ∈ granted log := by simpa using hc
    obtain ⟨hopen, hin | hout⟩ := h.known c hc
    · exact ⟨hopen, mem_or_shutdown_closeRole hin role⟩
    · exact ⟨hopen, Or.inr (mem_released_closeRole hout role)⟩

/-- Closing every role keeps a set what its log says. -/
theorem closeAll (h : s.Follows log) : s.closeAll.Follows (log ++ [.allClosed]) where
  distinct := distinct_closeAll s
  holds role c := by simp [latest_concat]
  ids_nodup := by
    rw [ids_closeAll]
    exact h.ids_nodup
  ids_lt i hi := by
    rw [ids_closeAll] at hi
    exact h.ids_lt i hi
  known c hc := by
    have hc : c ∈ granted log := by simpa using hc
    obtain ⟨hopen, hin | hout⟩ := h.known c hc
    · exact ⟨hopen, Or.inr (List.mem_append_left _ (List.mem_map_of_mem hin))⟩
    · exact ⟨hopen, Or.inr (List.mem_append_right _ hout)⟩

/-- An attempt to open a role that has no channel is refused. -/
theorem refuse (h : s.Follows log) (hnone : ∀ c ∈ s.entries, c.role ≠ role) (e : Error) :
    Follows { s with attempts := s.attempts + 1 } (log ++ [.opened role (.error e)]) where
  distinct := h.distinct
  holds r c := by
    rw [latest_concat, ChannelEvent.concerns_opened]
    by_cases hr : role = r
    · subst hr
      simpa using hnone c
    · rw [decide_eq_false hr, if_neg Bool.false_ne_true]
      exact h.holds r c
  ids_nodup := h.ids_nodup
  ids_lt i hi := Nat.lt_succ_of_lt (h.ids_lt i hi)
  known c hc := h.known c (by simpa using hc)

/-- A channel is added for a role that has none. -/
theorem add (h : s.Follows log) (hnone : ∀ c ∈ s.entries, c.role ≠ role) {c : Channel}
    (hrole : c.role = role) (hid : c.id = s.attempts) (hopen : c.isOpen = true) :
    Follows { s with entries := s.entries ++ [c], attempts := s.attempts + 1 }
      (log ++ [.opened role (.ok c)]) where
  distinct := by
    show ((s.entries ++ [c]).map (·.role)).Nodup
    rw [List.map_append, List.nodup_append]
    refine ⟨h.distinct, by simp, fun a ha b hb hab => ?_⟩
    obtain ⟨d, hd, rfl⟩ := List.mem_map.1 ha
    obtain rfl : b = c.role := by simpa using hb
    exact hnone d hd (hab.trans hrole)
  holds r d := by
    rw [latest_concat, ChannelEvent.concerns_opened, List.mem_append, List.mem_singleton]
    by_cases hr : role = r
    · subst hr
      rw [decide_eq_true rfl, if_pos rfl, Option.some.injEq, ChannelEvent.opened.injEq,
        and_iff_right rfl, Except.ok.injEq]
      constructor
      · rintro ⟨hd | rfl, hdrole⟩
        · exact absurd hdrole (hnone d hd)
        · rfl
      · rintro rfl
        exact ⟨Or.inr rfl, hrole⟩
    · rw [decide_eq_false hr, if_neg Bool.false_ne_true, ← h.holds]
      refine and_congr_left fun hdrole => or_iff_left ?_
      rintro rfl
      exact hr (hrole.symm.trans hdrole)
  ids_nodup := by
    rw [(ids_add s c _).nodup_iff, List.nodup_cons]
    exact ⟨fun hmem => Nat.lt_irrefl _ (hid ▸ h.ids_lt _ hmem), h.ids_nodup⟩
  ids_lt i hi := by
    rw [(ids_add s c _).mem_iff, List.mem_cons] at hi
    rcases hi with rfl | hi
    · exact hid ▸ Nat.lt_succ_self _
    · exact Nat.lt_succ_of_lt (h.ids_lt i hi)
  known d hd := by
    have hd : d ∈ granted log ∨ d = c := by simpa using hd
    rcases hd with hd | rfl
    · obtain ⟨hdopen, hin | hout⟩ := h.known d hd
      · exact ⟨hdopen, Or.inl (List.mem_append_left _ hin)⟩
      · exact ⟨hdopen, Or.inr hout⟩
    · exact ⟨hopen, Or.inl (by simp)⟩

/-- It makes no difference that a role was closed in front of an attempt to open it. -/
theorem skip_closed {result : Except Error Channel}
    (h : s.Follows (log ++ [.closed role] ++ [.opened role result])) :
    s.Follows (log ++ [.opened role result]) := by
  refine h.congr (fun r => ?_) ?_
  · simp only [latest_concat, ChannelEvent.concerns_opened, ChannelEvent.concerns_closed]
    by_cases hr : role = r <;> simp [hr]
  · rw [granted_concat, granted_concat, granted_concat, ChannelEvent.granted?_closed]
    simp

/-- Opening a role keeps a set what its log says. -/
theorem openRole (h : s.Follows log) (binder : Binder) (role : Role) (localEnd : Endpoint)
    (remote : Option Endpoint) :
    (s.openRole binder role localEnd remote).2.Follows
      (log ++ [.opened role (s.openRole binder role localEnd remote).1]) := by
  have hclosed := h.closeRole role
  have hnone : ∀ c ∈ (s.closeRole role).entries, c.role ≠ role := fun c hc =>
    (((h.distinct.closeRole role).2 c).1 hc).2
  have hattempts := attempts_closeRole s role
  rcases openRole_cases s binder role localEnd remote with ⟨e, hopen⟩ | ⟨port, hopen⟩
  · have hrefused := hclosed.refuse hnone e
    rw [hattempts] at hrefused
    rw [hopen]
    exact hrefused.skip_closed
  · have hadded := hclosed.add (c := { id := s.attempts, role, port, remote }) hnone rfl hattempts.symm rfl
    rw [hattempts] at hadded
    rw [hopen]
    exact hadded.skip_closed

theorem granted_of_mem (h : s.Follows log) (hc : c ∈ s.entries) : c ∈ granted log := by
  have hmem := mem_of_latest ((h.holds c.role c).1 ⟨hc, rfl⟩)
  exact List.mem_filterMap.2 ⟨_, hmem, rfl⟩

/-- What has become of a channel that was given. -/
theorem find?_of_granted (h : s.Follows log) (hc : c ∈ granted log) :
    s.find? c.id = some (if c ∈ s.entries then c else c.shutdown) := by
  have hfind (d : Channel) (hd : d ∈ s.entries ++ s.released) (hid : d.id = c.id) :
      s.find? c.id = some d := by
    rw [← hid]
    exact find?_of_nodup h.ids_nodup hd fun e => beq_iff_eq
  by_cases hin : c ∈ s.entries
  · rw [if_pos hin]
    exact hfind c (List.mem_append_left _ hin) rfl
  · have hout : c.shutdown ∈ s.released := (h.known c hc).2.resolve_left hin
    rw [if_neg hin]
    exact hfind c.shutdown (List.mem_append_right _ hout) rfl

end Follows

/-! ### Runs -/

/-- What comes of a call, and the set after it. -/
def perform (s : ChannelSet) : ChannelCall → ChannelEvent × ChannelSet
  | .openRole binder role localEnd remote =>
    (.opened role (s.openRole binder role localEnd remote).1,
      (s.openRole binder role localEnd remote).2)
  | .closeRole role => (.closed role, s.closeRole role)
  | .closeAll => (.allClosed, s.closeAll)

/-- The log of some calls and the set after them, which was empty before. -/
def run (calls : List ChannelCall) : List ChannelEvent × ChannelSet :=
  calls.foldl (fun r call => (r.1 ++ [(r.2.perform call).1], (r.2.perform call).2)) ([], {})

theorem run_concat (calls : List ChannelCall) (call : ChannelCall) : run (calls ++ [call]) =
    ((run calls).1 ++ [((run calls).2.perform call).1], ((run calls).2.perform call).2) := by
  rw [run, List.foldl_concat, ← run]

theorem follows_run (calls : List ChannelCall) : (run calls).2.Follows (run calls).1 := by
  induction calls using List.reverseRecOn with
  | nil => exact Follows.empty
  | append_singleton calls call ih =>
    rw [run_concat]
    cases call with
    | openRole binder role localEnd remote => exact ih.openRole binder role localEnd remote
    | closeRole role => exact ih.closeRole role
    | closeAll => exact ih.closeAll

/-- **No channel is left open.** After any calls, whatever the system does with them, a set has one
channel for a role at most: that which the last call that concerns the role gave, if it was an attempt to
open it and was granted. Of all channels that were ever given just those in the set are open; the others
are shut down, and so are all once every role was closed. -/
theorem open_as_logged (calls : List ChannelCall) :
    ((run calls).2.entries.map (·.role)).Nodup ∧
    (∀ role c, (run calls).2.get? role = some c ↔
      latest role (run calls).1 = some (.opened role (.ok c))) ∧
    (∀ c, c ∈ (run calls).2.entries ↔
      c ∈ granted (run calls).1 ∧ ∃ d ∈ (run calls).2.find? c.id, d.isOpen = true) ∧
    (∀ c ∈ granted (run calls).1, (run calls).2.find? c.id =
      some (if c ∈ (run calls).2.entries then c else c.shutdown)) ∧
    ∀ c ∈ granted (run calls).1, (run (calls ++ [.closeAll])).2.find? c.id = some c.shutdown := by
  have h := follows_run calls
  refine ⟨h.distinct, fun role c => ?_, fun c => ?_, fun c => h.find?_of_granted, fun c hc => ?_⟩
  · rw [get?_eq_some_iff h.distinct, h.holds]
  · constructor
    · intro hc
      have hgranted := h.granted_of_mem hc
      refine ⟨hgranted, c, ?_, (h.known c hgranted).1⟩
      rw [h.find?_of_granted hgranted, if_pos hc]
      rfl
    · rintro ⟨hgranted, d, hd, hopen⟩
      rw [h.find?_of_granted hgranted, Option.mem_some_iff] at hd
      by_contra hout
      rw [if_neg hout] at hd
      subst hd
      cases hopen
  · have hall := follows_run (calls ++ [.closeAll])
    have hgranted : c ∈ granted (run (calls ++ [.closeAll])).1 := by
      rw [run_concat, granted_concat]
      exact List.mem_append_left _ hc
    have hout : c ∉ (run (calls ++ [.closeAll])).2.entries := by
      rw [run_concat]
      exact List.not_mem_nil
    rw [hall.find?_of_granted hgranted, if_neg hout]

/-- A role that was to be opened again and was refused has no channel left. -/
example :
    let localEnd : Endpoint := ⟨.v4 0x7F000001#32, 0⟩
    let grants := Binder.successive 7000 none true
    let refuses := Binder.successive 7000 (some .control) true
    let after := run [.openRole grants .control localEnd none, .openRole grants .timing localEnd none,
      .openRole refuses .control localEnd none]
    after.2.get? .control = none ∧ (granted after.1).map (·.role) = [.control, .timing] ∧
      after.2.entries.map (·.role) = [.timing] := by
  decide

end ChannelSet
end Raop
