/-
# Runs of a proxy's session

Between the requests of its sender a session meets the time, what becomes of
its connections, the answers of its peers, and datagrams from either side. Any
of these can end a wait. A request only begins when no other one is waited for
(`Reachable`).

Two things carry over a run. While nothing is waited for, nothing that is met
changes what the sender sees (`keeps_meet`). While a request is waited for that
was passed on, its reply is settled: what is met leaves the channels alone, and
the reply is given when the wait is over (`Settling`).

Key definitions: `Proxy.Occurrence`, `Proxy.meet`, `Proxy.meetAll`, `Proxy.Reachable`,
`Proxy.Settling`.
Key theorems: `Proxy.keeps_meet`, `Proxy.Settling.meet`, `Proxy.settling_await`,
`Proxy.Reachable.distinct`, `Proxy.setup_of_answer`.
-/
import Raop.Proofs.Proxy.Steps

namespace Raop
namespace Proxy

/-- What a session meets besides the requests of its sender. -/
inductive Occurrence where
  | tick (now : Moment)
  | connected (now : Moment) (index : Nat) (ip : IpAddress)
  | refused (now : Moment) (index : Nat)
  /-- Octets of a peer, and what the system does with the channels that they open. -/
  | peerData (peerBinder : Nat → Binder) (index : Nat) (data : Bytes)
  | peerLost (index : Nat)
  | peerBroken (index : Nat)
  | datagram (now : Moment) (role : Role) (source : Endpoint) (data : Bytes)
  | peerDatagram (now : Moment) (index : Nat) (role : Role) (source : Endpoint) (data : Bytes)

/-- The session after an occurrence. -/
def meet (ctx : ProxyContext) (p : Proxy) : Occurrence → Proxy
  | .tick now => p.tick ctx now
  | .connected now index ip => p.connected ctx now index ip
  | .refused now index => p.refused ctx now index
  | .peerData peerBinder index data => p.peerData { ctx with peerBinder } index data
  | .peerLost index => p.peerLost index
  | .peerBroken index => p.peerBroken index
  | .datagram now role source data => p.datagram now role source data
  | .peerDatagram now index role source data => p.peerDatagram now index role source data

/-- The session after occurrences, one after the other. -/
def meetAll (ctx : ProxyContext) (p : Proxy) (met : List Occurrence) : Proxy := met.foldl (meet ctx) p

/-- The sessions that can come about. A request begins when the one before is answered and the answer
was taken; a session is shut down when nothing is waited for. -/
inductive Reachable (ctx : ProxyContext) : Proxy → Prop where
  | start (client localEnd : Endpoint) : Reachable ctx (ofClient ctx client localEnd)
  | request {p : Proxy} (h : Reachable ctx p) (hwait : p.wait = none) (hanswer : p.answer = none)
      (binder : Binder) (peerBinder : Nat → Binder) (now : Moment) (request : Request) :
      Reachable ctx (p.start { ctx with binder, peerBinder } now request)
  | met {p : Proxy} (h : Reachable ctx p) (o : Occurrence) : Reachable ctx (p.meet ctx o)
  | answerTaken {p : Proxy} (h : Reachable ctx p) : Reachable ctx { p with answer := none }
  | outputTaken {p : Proxy} (h : Reachable ctx p) : Reachable ctx { p with output := [] }
  | shutdown {p : Proxy} (h : Reachable ctx p) (hwait : p.wait = none) : Reachable ctx p.reset

variable {ctx : ProxyContext} {now : Moment} {request : Request} {reply : Reply} {p q : Proxy}

/-! ### Occurrences while nothing is waited for -/

theorem keeps_datagram (now : Moment) (role : Role) (source : Endpoint) (data : Bytes) (p : Proxy) :
    p.Keeps (p.datagram now role source data) := by
  unfold datagram
  split
  · exact .refl p
  · split
    · exact keeps_withRelay p _
    · exact .refl p

theorem keeps_peerDatagram (now : Moment) (index : Nat) (role : Role) (source : Endpoint)
    (data : Bytes) (p : Proxy) : p.Keeps (p.peerDatagram now index role source data) := by
  unfold peerDatagram
  split
  · exact .refl p
  · split
    · exact .refl p
    · split
      · exact keeps_withRelay p _
      · exact .refl p

theorem keeps_onPeer (h : p.wait = none) (index : Nat) (f : Peer → Peer) :
    p.Keeps (p.onPeer index f) := by
  unfold onPeer
  simp only [h]
  exact ⟨rfl, rfl, rfl, h.symm, rfl⟩

theorem keeps_decided (h : p.wait = none) (index : Nat) (ip : Option IpAddress) :
    p.Keeps (p.decided ctx now index ip) := by
  unfold decided
  simp only [h]
  exact .refl p

/-- **Without a wait, what is met changes nothing that the sender sees.** -/
theorem keeps_meet (ctx : ProxyContext) (h : p.wait = none) (o : Occurrence) : p.Keeps (p.meet ctx o) := by
  cases o with
  | tick now =>
    simp only [meet, tick, h]
    exact .refl p
  | connected now index ip => exact keeps_decided h index (some ip)
  | refused now index => exact keeps_decided h index none
  | peerData peerBinder index data => exact keeps_onPeer h index _
  | peerLost index => exact keeps_onPeer h index _
  | peerBroken index => exact keeps_onPeer h index _
  | datagram now role source data => exact keeps_datagram now role source data p
  | peerDatagram now index role source data => exact keeps_peerDatagram now index role source data p

theorem keeps_meetAll (ctx : ProxyContext) : ∀ (met : List Occurrence) {p : Proxy}, p.wait = none →
    p.Keeps (p.meetAll ctx met)
  | [], p, _ => .refl p
  | o :: met, p, h => by
    have hk := keeps_meet ctx h o
    exact hk.trans (keeps_meetAll ctx met (hk.wait.trans h))

/-! ### Occurrences while a request is waited for -/

/-- The session has these channels, and it gives this reply to the request, or waits for the peers and
gives it then. -/
structure Settling (request : Request) (reply : Reply) (channels : ChannelSet) (p : Proxy) : Prop where
  channels_eq : p.channels = channels
  settled : p.wait = none ∧ p.answer = some (.ok reply) ∨
    p.answer = none ∧ ∃ members barrier deadline,
      p.wait = some (.answering request reply members barrier deadline)

namespace Settling

variable {channels : ChannelSet}

theorem of_keeps (h : Settling request reply channels p) (hk : p.Keeps q) :
    Settling request reply channels q where
  channels_eq := hk.channels.trans h.channels_eq
  settled := by
    rw [hk.wait, hk.answer]
    exact h.settled

theorem complete (hm : request.method ≠ .teardown) (hp : p.channels = channels) :
    Settling request reply channels (p.complete request reply) where
  channels_eq := by rw [channels_complete, if_neg hm, hp]
  settled := Or.inl ⟨rfl, rfl⟩

theorem onPeer (hm : request.method ≠ .teardown) (h : Settling request reply channels p)
    (index : Nat) (f : Peer → Peer) : Settling request reply channels (p.onPeer index f) := by
  obtain ⟨rfl, ⟨hwait, hanswer⟩ | ⟨hanswer, members, barrier, deadline, hwait⟩⟩ := h
  · exact Settling.of_keeps ⟨rfl, Or.inl ⟨hwait, hanswer⟩⟩ (keeps_onPeer hwait index f)
  · unfold Proxy.onPeer
    simp only [hwait]
    split
    · next i peer _ _ =>
      generalize barrier.note i _ = noted
      split
      · exact complete hm rfl
      · exact ⟨rfl, Or.inr ⟨hanswer, _, _, _, rfl⟩⟩
    · exact ⟨rfl, Or.inr ⟨hanswer, _, _, _, rfl⟩⟩

theorem decided (h : Settling request reply channels p) (index : Nat) (ip : Option IpAddress) :
    Settling request reply channels (p.decided ctx now index ip) := by
  have hself : p.decided ctx now index ip = p := by
    unfold Proxy.decided
    rcases h.settled with ⟨hwait, -⟩ | ⟨-, _, _, _, hwait⟩ <;> rw [hwait]
  rwa [hself]

theorem tick (hm : request.method ≠ .teardown) (h : Settling request reply channels p) :
    Settling request reply channels (p.tick ctx now) := by
  obtain ⟨rfl, ⟨hwait, hanswer⟩ | ⟨hanswer, members, barrier, deadline, hwait⟩⟩ := h
  · simp only [Proxy.tick, hwait]
    exact ⟨rfl, Or.inl ⟨hwait, hanswer⟩⟩
  · simp only [Proxy.tick, hwait]
    split
    · exact ⟨rfl, Or.inr ⟨hanswer, members, barrier, deadline, hwait⟩⟩
    · exact complete hm rfl

/-- A reply that is settled stays so, whatever is met. -/
theorem meet (hm : request.method ≠ .teardown) (h : Settling request reply channels p)
    (o : Occurrence) : Settling request reply channels (p.meet ctx o) := by
  cases o with
  | tick now => exact h.tick hm
  | connected now index ip => exact h.decided index (some ip)
  | refused now index => exact h.decided index none
  | peerData peerBinder index data => exact h.onPeer hm index _
  | peerLost index => exact h.onPeer hm index _
  | peerBroken index => exact h.onPeer hm index _
  | datagram now role source data => exact h.of_keeps (keeps_datagram now role source data p)
  | peerDatagram now index role source data =>
    exact h.of_keeps (keeps_peerDatagram now index role source data p)

theorem meetAll (hm : request.method ≠ .teardown) : ∀ (met : List Occurrence) {p : Proxy},
    Settling request reply channels p → Settling request reply channels (p.meetAll ctx met)
  | [], _, h => h
  | o :: met, _, h => meetAll hm met (h.meet hm o)

end Settling

/-- A request that is passed on is settled from then on. -/
theorem settling_await (hm : request.method ≠ .teardown) (hanswer : p.answer = none) :
    Settling request reply p.channels (p.await ctx now request reply) := by
  obtain ⟨q, hk, hq | ⟨members, barrier, deadline, hq⟩⟩ := await_cases ctx now request reply p
  · rw [hq]
    exact .complete hm hk.channels
  · rw [hq]
    exact ⟨hk.channels, Or.inr ⟨hk.answer.trans hanswer, members, barrier, deadline, rfl⟩⟩

/-! ### Channels of reachable sessions -/

theorem distinct_onPeer (h : p.channels.Distinct) (index : Nat) (f : Peer → Peer) :
    (p.onPeer index f).channels.Distinct := by
  unfold onPeer
  simp only
  split
  · exact h
  · next request reply _ barrier _ _ =>
    split
    · next i _ _ _ =>
      generalize barrier.note i _ = noted
      split
      · exact distinct_complete (p := { p with relay := p.relay.modify index f }) h
      · exact h
    · exact h
  · exact h

theorem distinct_decided (h : p.channels.Distinct) (index : Nat) (ip : Option IpAddress) :
    (p.decided ctx now index ip).channels.Distinct := by
  unfold decided
  split
  · split
    · simp only
      split
      · exact distinct_replicate h
      · exact h
    · exact h
  · exact h

theorem distinct_tick (h : p.channels.Distinct) : (p.tick ctx now).channels.Distinct := by
  unfold tick
  split
  · split
    · exact h
    · exact distinct_replicate h
  · split
    · exact h
    · exact distinct_complete h
  · exact h

theorem distinct_meet (h : p.channels.Distinct) (o : Occurrence) :
    (p.meet ctx o).channels.Distinct := by
  cases o with
  | tick now => exact distinct_tick h
  | connected now index ip => exact distinct_decided h index (some ip)
  | refused now index => exact distinct_decided h index none
  | peerData peerBinder index data => exact distinct_onPeer h index _
  | peerLost index => exact distinct_onPeer h index _
  | peerBroken index => exact distinct_onPeer h index _
  | datagram now role source data => exact (keeps_datagram now role source data p).channels ▸ h
  | peerDatagram now index role source data =>
    exact (keeps_peerDatagram now index role source data p).channels ▸ h

/-- A session has one channel for each role at most. -/
theorem Reachable.distinct (h : Reachable ctx p) : p.channels.Distinct := by
  induction h with
  | start client localEnd => exact ChannelSet.distinct_of_entries_eq_nil rfl
  | request _ _ _ binder peerBinder now request ih => exact distinct_start ih
  | met _ o ih => exact distinct_meet ih o
  | answerTaken _ ih => exact ih
  | outputTaken _ ih => exact ih
  | shutdown _ _ _ => exact ChannelSet.distinct_closeAll _

/-! ### The answer to a SETUP -/

/-- **A SETUP that is answered with success was negotiated**, and the session still has the channels of
the negotiation when the answer is there, however long that took. -/
theorem setup_of_answer {met : List Occurrence} (hm : request.method = .setup) (hwait : p.wait = none)
    (hanswer : p.answer = none)
    (h : ((p.start ctx now request).meetAll ctx met).answer = some (.ok reply)) :
    ∃ value t channels, request.headers.transport? = some value ∧
      Negotiation.negotiate (ChannelSet.opener ctx.binder ctx.config.localPorts p.localEnd.ip)
        p.client.ip value p.channels = (.ok t, channels) ∧
      reply = setupReply t ∧ ((p.start ctx now request).meetAll ctx met).channels = channels := by
  have hstart : p.start ctx now request = p.setup ctx now request := by
    unfold start
    rw [hm]
  rw [hstart] at h ⊢
  rcases setup_cases ctx now request p with
    ⟨e, hp⟩ | ⟨e, channels, hp⟩ | ⟨value, t, channels, -, hvalue, hneg, hp⟩
  · rw [hp, (keeps_meetAll ctx met (p := p.refuse e) hwait).answer] at h
    cases h
  · have hk := keeps_meetAll ctx met
      (p := { p with channels := channels.closeAll }.refuse e) hwait
    rw [hp, hk.answer] at h
    cases h
  · have hnot : request.method ≠ .teardown := by simp [hm]
    have hset : Settling request (setupReply t) channels
        ((p.setup ctx now request).meetAll ctx met) := by
      rw [hp]
      exact (settling_await (p := p.setUpPeers ctx request channels) hnot hanswer).meetAll hnot met
    refine ⟨value, t, channels, hvalue, hneg, ?_, hset.channels_eq⟩
    rcases hset.settled with ⟨-, hans⟩ | ⟨hans, -⟩
    · rw [hans] at h
      exact (Except.ok.inj (Option.some.inj h)).symm
    · rw [hans] at h
      cases h

end Proxy
end Raop
