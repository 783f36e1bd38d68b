/-
# What a scan finds

A scan observes what the daemon reports until its limit, or until the daemon is
gone (`observed`). Each service that is resolved outside the own addresses is a
sighting of a receiver under the full name of the service (`sightings`). A
receiver is there still if no later event is about its service (`present`):
neither was it removed nor was it resolved again.

A scan shows at every address and port the receiver that was sighted there last,
and nothing that was removed is forgotten. So it misses no receiver that is
there, but it also shows receivers that are gone, at addresses and ports at which
no other was sighted since; exactly if there are none of these does it show the
receivers that are there (`shows_present_iff`).

Key definitions: `observed`, `sightings`, `present`, `lastAt`, `Shows`.
Key theorems: `mem_present_iff`, `lastAt_present`, `Shows.observe`, `Shows.scanOnto`,
`shows_present_iff`.
-/
import Raop.Discovery.Browser
import Raop.Proofs.Lists

namespace Raop
namespace Discovery

/-- Where a receiver is reached. -/
def DiscoveredPeer.endpoint (p : DiscoveredPeer) : Endpoint := ⟨p.address, p.port⟩

/-- The service that an event is about. -/
def DaemonEvent.service? : DaemonEvent → Option String
  | .resolved full _ _ | .removed full => some full
  | .ended | .other => none

/-- A receiver is sighted: the full name of its service, and what is known of it. -/
abbrev Sighting := String × DiscoveredPeer

/-- The receiver that an event shows, if it is outside the own addresses. -/
def sighting? (own : List IpAddress) : DaemonEvent → Option Sighting
  | .resolved full addresses port =>
    (DiscoveredPeer.ofService? own full addresses port).map (full, ·)
  | .removed _ | .ended | .other => none

/-- The events that a scan observes. -/
def observed (limit : Nat) (events : List (Nat × DaemonEvent)) : List DaemonEvent :=
  (events.takeWhile fun e => e.1 ≤ limit ∧ e.2 ≠ .ended).map (·.2)

/-- The receivers that were sighted, in order. -/
def sightings (own : List IpAddress) (events : List DaemonEvent) : List Sighting :=
  events.filterMap (sighting? own)

/-- The receivers that are there still, in the order in which they were resolved: those of services that
no later event is about. -/
def present (own : List IpAddress) : List DaemonEvent → List Sighting
  | [] => []
  | e :: events =>
    if events.any fun later => later.service? = e.service? then present own events
    else (sighting? own e).toList ++ present own events

/-- What was sighted last at an address and port. -/
def lastAt (place : Endpoint) (sighted : List Sighting) : Option Sighting :=
  (sighted.filter fun s => s.2.endpoint = place).getLast?

/-- Peers with one entry for each address and port at which there is a receiver: the one resolved last. -/
structure Shows (peers : List DiscoveredPeer) (sighted : List Sighting) : Prop where
  nodup : (peers.map DiscoveredPeer.endpoint).Nodup
  mem_iff : ∀ p, p ∈ peers ↔ ∃ full, lastAt p.endpoint sighted = some (full, p)

variable {own : List IpAddress} {events : List DaemonEvent} {e : DaemonEvent}
  {peers : List DiscoveredPeer} {p q : DiscoveredPeer} {s : Sighting} {sighted : List Sighting}
  {place : Endpoint}

/-! ### Who is there -/

theorem service?_of_sighting? (h : sighting? own e = some s) : e.service? = some s.1 := by
  cases e with
  | resolved full addresses port =>
    obtain ⟨peer, -, rfl⟩ := Option.map_eq_some_iff.1 h
    rfl
  | removed | ended | other => cases h

theorem mem_sightings : s ∈ sightings own events ↔ ∃ e ∈ events, sighting? own e = some s :=
  List.mem_filterMap

theorem mem_present_cons : s ∈ present own (e :: events) ↔
    (sighting? own e = some s ∧ ∀ later ∈ events, later.service? ≠ some s.1) ∨
      s ∈ present own events := by
  rw [present]
  split
  next again =>
    obtain ⟨later, hlater, same⟩ := List.any_eq_true.1 again
    refine ⟨.inr, fun h => h.resolve_left fun ⟨shows, last⟩ => ?_⟩
    exact last later hlater ((of_decide_eq_true same).trans (service?_of_sighting? shows))
  next last =>
    rw [List.mem_append, Option.mem_toList]
    refine or_congr_left ⟨fun shows => ⟨shows, fun later hlater same => last ?_⟩, And.left⟩
    exact List.any_eq_true.2
      ⟨later, hlater, decide_eq_true (same.trans (service?_of_sighting? shows).symm)⟩

/-- Who is there still was sighted by some event, and no event after that is about its service. -/
theorem mem_present_iff : s ∈ present own events ↔
    ∃ before e after, events = before ++ e :: after ∧ sighting? own e = some s ∧
      ∀ later ∈ after, later.service? ≠ some s.1 := by
  induction events with
  | nil => simp [present]
  | cons e events ih =>
    rw [mem_present_cons, ih]
    constructor
    · rintro (⟨shows, last⟩ | ⟨before, e', after, rfl, h⟩)
      · exact ⟨[], e, events, rfl, shows, last⟩
      · exact ⟨e :: before, e', after, rfl, h⟩
    · rintro ⟨_ | ⟨_, before⟩, e', after, heq, h⟩
      · cases heq
        exact .inl h
      · cases heq
        exact .inr ⟨before, e', after, rfl, h⟩

theorem mem_sightings_of_present (h : s ∈ present own events) : s ∈ sightings own events := by
  obtain ⟨before, e, after, rfl, shows, -⟩ := mem_present_iff.1 h
  exact mem_sightings.2 ⟨e, by simp, shows⟩

/-! ### What was sighted last at a place -/

theorem lastAt_append (place : Endpoint) (xs ys : List Sighting) :
    lastAt place (xs ++ ys) = (lastAt place ys).or (lastAt place xs) := by
  simp only [lastAt, List.filter_append, List.getLast?_append]

theorem lastAt_concat (place : Endpoint) (sighted : List Sighting) (s : Sighting) :
    lastAt place (sighted ++ [s]) = if s.2.endpoint = place then some s else lastAt place sighted := by
  simp only [lastAt, getLast?_filter_concat, decide_eq_true_eq]

theorem of_lastAt (h : lastAt place sighted = some s) : s ∈ sighted ∧ s.2.endpoint = place :=
  (of_getLast?_filter h).imp_right of_decide_eq_true

theorem lastAt_eq_none_iff : lastAt place sighted = none ↔ ∀ s ∈ sighted, s.2.endpoint ≠ place := by
  simp [lastAt]

theorem exists_lastAt (h : s ∈ sighted) : ∃ t, lastAt s.2.endpoint sighted = some t :=
  Option.ne_none_iff_exists'.1 fun none => lastAt_eq_none_iff.1 none s h rfl

theorem sightings_cons (own : List IpAddress) (e : DaemonEvent) (events : List DaemonEvent) :
    sightings own (e :: events) = (sighting? own e).toList ++ sightings own events := by
  cases h : sighting? own e <;> simp [sightings, h]

/-- An event adds at most its own sighting to those that are there still. -/
theorem exists_present_cons (own : List IpAddress) (e : DaemonEvent) (events : List DaemonEvent) :
    ∃ added, present own (e :: events) = added ++ present own events ∧
      ∀ t ∈ added, sighting? own e = some t := by
  rw [present]
  split
  · exact ⟨[], rfl, nofun⟩
  · exact ⟨_, rfl, fun _ => Option.mem_toList.1⟩

/-- If what was sighted last at a place is there still, it is also the last that is there still: of its
service no event comes after it, and of other services no sighting at the place does. -/
theorem lastAt_present (last : lastAt place (sightings own events) = some s)
    (h : s ∈ present own events) : lastAt place (present own events) = some s := by
  induction events with
  | nil => cases h
  | cons e events ih =>
    obtain rfl := (of_lastAt last).2
    obtain ⟨added, hpresent, hadded⟩ := exists_present_cons own e events
    rw [sightings_cons, lastAt_append] at last
    rw [hpresent, lastAt_append]
    rcases mem_present_cons.1 h with ⟨shows, final⟩ | still
    · -- Were there a later sighting at the place, it would be `s`, by a later event about its service.
      have gone : lastAt s.2.endpoint (sightings own events) = none := by
        refine Option.eq_none_iff_forall_ne_some.2 fun t ht => ?_
        obtain rfl : t = s := by simpa [ht] using last
        obtain ⟨later, hlater, again⟩ := mem_sightings.1 (of_lastAt ht).1
        exact final later hlater (service?_of_sighting? again)
      have gone' : ∀ t ∈ present own events, t.2.endpoint ≠ s.2.endpoint := fun t ht =>
        lastAt_eq_none_iff.1 gone t (mem_sightings_of_present ht)
      have hs : s ∈ added :=
        (List.mem_append.1 (hpresent ▸ h)).resolve_right fun h => gone' s h rfl
      obtain ⟨t, ht⟩ := exists_lastAt hs
      rw [lastAt_eq_none_iff.2 gone', Option.none_or, ht,
        ← Option.some.inj (shows.symm.trans (hadded t (of_lastAt ht).1))]
    · obtain ⟨t, ht⟩ := exists_lastAt (mem_sightings_of_present still)
      obtain rfl : t = s := by simpa [ht] using last
      rw [ih ht still, Option.some_or]

/-! ### What is shown -/

theorem remember_eq (peers : List DiscoveredPeer) (p : DiscoveredPeer) :
    remember peers p = peers.filter (·.endpoint ≠ p.endpoint) ++ [p] := by
  simp only [remember, DiscoveredPeer.endpoint, ne_eq, Endpoint.mk.injEq]

theorem Shows.nil : Shows [] [] := ⟨List.nodup_nil, by simp [lastAt]⟩

/-- A receiver that is remembered is the last at its place, and nothing changes elsewhere. -/
theorem Shows.remember (h : Shows peers sighted) (s : Sighting) :
    Shows (remember peers s.2) (sighted ++ [s]) where
  nodup := by
    rw [remember_eq, List.map_append, List.map_singleton]
    refine List.nodup_append.2 ⟨h.nodup.sublist (List.filter_sublist.map _), by simp, ?_⟩
    rintro _ hplace _ hs rfl
    obtain ⟨q, hq, same⟩ := List.mem_map.1 hplace
    exact of_decide_eq_true (List.mem_filter.1 hq).2 (same.trans (List.mem_singleton.1 hs))
  mem_iff q := by
    rw [remember_eq, List.mem_append, List.mem_filter, List.mem_singleton, lastAt_concat]
    split
    next here => simp [here, Prod.ext_iff, eq_comm]
    next elsewhere =>
      rw [← h.mem_iff]
      have hne : q ≠ s.2 := fun heq => elsewhere (heq ▸ rfl)
      simp [Ne.symm elsewhere, hne]

/-- What an event shows is what was sighted last. -/
theorem Shows.observe (h : Shows peers sighted) (own : List IpAddress) (e : DaemonEvent) :
    Shows (observe peers (PeerEvent.ofDaemon? own e)) (sighted ++ (sighting? own e).toList) := by
  cases e with
  | resolved full addresses port =>
    cases hp : DiscoveredPeer.ofService? own full addresses port with
    | none => simpa [Discovery.observe, PeerEvent.ofDaemon?, sighting?, hp] using h
    | some p => simpa [Discovery.observe, PeerEvent.ofDaemon?, sighting?, hp] using h.remember (full, p)
  | removed | ended | other => simpa [Discovery.observe, PeerEvent.ofDaemon?, sighting?] using h

/-- A scan goes on to show what it observes. -/
theorem Shows.scanOnto {limit : Nat} {events : List (Nat × DaemonEvent)} (h : Shows peers sighted) :
    Shows (scanOnto own limit peers events).1 (sighted ++ sightings own (observed limit events)) := by
  induction events generalizing peers sighted with
  | nil => simpa [Discovery.scanOnto, observed, sightings] using h
  | cons timed events ih =>
    obtain ⟨time, e⟩ := timed
    rw [Discovery.scanOnto]
    split
    next late => simpa [observed, sightings, Nat.not_le.2 late] using h
    next early =>
      split
      next ended => simpa [observed, sightings, ended] using h
      next goes =>
        have hobserved : observed limit ((time, e) :: events) = e :: observed limit events := by
          simp [observed, Nat.not_lt.1 early, goes]
        rw [hobserved, sightings_cons, ← List.append_assoc]
        exact ih (h.observe own e)

theorem shows_scan (own : List IpAddress) (limit : Nat) (events : List (Nat × DaemonEvent)) :
    Shows (scan own limit events).1 (sightings own (observed limit events)) :=
  Shows.nil.scanOnto

/-- A scan has one entry for each address and port at which a receiver was sighted: the one that was
sighted last. So no receiver that is there still goes without an entry at its place. The entries are
those of the receivers that are there still exactly if at every place what was sighted last is what is
known of the last receiver that is there still; so whenever each receiver that was sighted last at its
place has neither been removed nor been resolved again. -/
theorem shows_present_iff (own : List IpAddress) (limit : Nat) (events : List (Nat × DaemonEvent)) :
    let seen := observed limit events
    let shown := (scan own limit events).1
    Shows shown (sightings own seen) ∧
      (∀ s ∈ present own seen, ∃ p ∈ shown, p.endpoint = s.2.endpoint) ∧
      (Shows shown (present own seen) ↔
        ∀ s, lastAt s.2.endpoint (sightings own seen) = some s →
          ∃ full, lastAt s.2.endpoint (present own seen) = some (full, s.2)) ∧
      ((∀ s, lastAt s.2.endpoint (sightings own seen) = some s → s ∈ present own seen) →
        Shows shown (present own seen)) := by
  intro seen shown
  have sound : Shows shown (sightings own seen) := shows_scan own limit events
  have exact : Shows shown (present own seen) ↔
      ∀ s, lastAt s.2.endpoint (sightings own seen) = some s →
        ∃ full, lastAt s.2.endpoint (present own seen) = some (full, s.2) := by
    constructor
    · exact fun h s hs => (h.mem_iff s.2).1 ((sound.mem_iff s.2).2 ⟨s.1, hs⟩)
    · refine fun h => ⟨sound.nodup, fun p => (sound.mem_iff p).trans ⟨?_, ?_⟩⟩
      · rintro ⟨full, last⟩
        exact h (full, p) last
      · rintro ⟨full, last⟩
        -- What was sighted last at the place is shown there, and so it is `p`.
        obtain ⟨⟨full', q⟩, hq⟩ := exists_lastAt (mem_sightings_of_present (of_lastAt last).1)
        have same : q.endpoint = p.endpoint := (of_lastAt hq).2
        obtain ⟨_, hp⟩ := h (full', q) (same ▸ hq)
        obtain rfl : q = p := (Prod.ext_iff.1 (Option.some.inj ((same ▸ hp).symm.trans last))).2
        exact ⟨full', hq⟩
  refine ⟨sound, fun s hs => ?_, exact, fun h => exact.2 fun s hs => ⟨s.1, lastAt_present hs (h s hs)⟩⟩
  obtain ⟨t, ht⟩ := exists_lastAt (mem_sightings_of_present hs)
  have place := (of_lastAt ht).2
  exact ⟨t.2, (sound.mem_iff t.2).2 ⟨t.1, place ▸ ht⟩, place⟩

/-- A receiver that was removed before the limit is shown at the end of the scan. -/
theorem not_shows_present_removed : ¬ ∀ own limit events,
    Shows (scan own limit events).1 (present own (observed limit events)) := by
  intro h
  have den := h [] 1000
    [(10, .resolved "001122AABBCC@Den._raop._tcp.local." [.v4 0x0A000003#32] 5000),
      (20, .removed "001122AABBCC@Den._raop._tcp.local.")]
  have shown := (den.mem_iff ⟨"Den", .v4 0x0A000003#32, 5000⟩).1 (by decide +kernel)
  exact absurd shown (by simp [observed, present, lastAt, DaemonEvent.service?, sighting?])

end Discovery
end Raop
