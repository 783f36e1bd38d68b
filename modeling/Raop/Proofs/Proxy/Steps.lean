/-
# What a step of the proxy does to its session

Much of what a proxy does concerns its relay alone and leaves what the sender
sees: the state, the channels, the volume, the wait and the answer (`Keeps`).
A request that was passed on is complete at once or is waited for
(`await_cases`); a SETUP is refused or has its channels and is waited for
(`setup_cases`). No step opens a channel of the sender but SETUP.

Key definitions: `Proxy.Keeps`, `Proxy.setUpPeers`.
Key theorems: `Proxy.channels_complete`, `Proxy.await_cases`, `Proxy.setup_cases`,
`Proxy.distinct_start`.
-/
import Raop.Proofs.Negotiation
import Raop.Proxy.Session

namespace Raop
namespace Proxy

variable {ctx : ProxyContext} {now : Moment} {request : Request} {reply : Reply} {p q r : Proxy}

/-- What the sender sees of the session is the same. -/
structure Keeps (p q : Proxy) : Prop where
  state : q.state = p.state
  channels : q.channels = p.channels
  volume : q.volume = p.volume
  wait : q.wait = p.wait
  answer : q.answer = p.answer

theorem Keeps.refl (p : Proxy) : p.Keeps p := ⟨rfl, rfl, rfl, rfl, rfl⟩

theorem Keeps.trans (h : p.Keeps q) (h' : q.Keeps r) : p.Keeps r :=
  ⟨h'.state.trans h.state, h'.channels.trans h.channels, h'.volume.trans h.volume,
    h'.wait.trans h.wait, h'.answer.trans h.answer⟩

theorem keeps_withRelay (p : Proxy) (result : Relay × List Output) : p.Keeps (p.withRelay result) :=
  ⟨rfl, rfl, rfl, rfl, rfl⟩

/-! ### Completing a request -/

/-- A request that is complete leaves the channels to the sender as they are, or closes them all. -/
theorem channels_complete (request : Request) (reply : Reply) (p : Proxy) :
    (p.complete request reply).channels =
      if request.method = .teardown then p.channels.closeAll else p.channels := by
  unfold complete
  cases hm : request.method with
  | record =>
    simp only [reduceCtorEq, if_false]
    split <;> rfl
  | _ => rfl

theorem distinct_complete (h : p.channels.Distinct) :
    (p.complete request reply).channels.Distinct := by
  rw [channels_complete]
  split
  · exact ChannelSet.distinct_closeAll _
  · exact h

/-! ### Waiting for the peers -/

/-- A request that was passed on is complete, or it is waited for the peers' answers to it. -/
theorem await_cases (ctx : ProxyContext) (now : Moment) (request : Request) (reply : Reply)
    (p : Proxy) :
    ∃ q, p.Keeps q ∧ (p.await ctx now request reply = q.complete request reply ∨
      ∃ members barrier deadline, p.await ctx now request reply =
        { q with wait := some (.answering request reply members barrier deadline) }) := by
  unfold await
  split
  · exact ⟨p, .refl p, Or.inl rfl⟩
  · simp only
    refine ⟨_, keeps_withRelay p p.relay.prune, ?_⟩
    split
    · exact Or.inl rfl
    · exact Or.inr ⟨_, _, _, rfl⟩

theorem distinct_await (h : p.channels.Distinct) :
    (p.await ctx now request reply).channels.Distinct := by
  obtain ⟨q, hk, hq | ⟨_, _, _, hq⟩⟩ := await_cases ctx now request reply p
  · rw [hq]
    exact distinct_complete (hk.channels ▸ h)
  · rw [hq]
    exact hk.channels ▸ h

theorem distinct_replicate (h : p.channels.Distinct) :
    (p.replicate ctx now request).channels.Distinct :=
  distinct_await (p := p.withRelay (p.relay.forward request)) h

/-! ### SETUP -/

/-- The peers are set up: the relay knows the channels to the sender, and a SETUP is written to each
peer. -/
def setUpPeers (ctx : ProxyContext) (request : Request) (channels : ChannelSet) (p : Proxy) : Proxy :=
  let relay := { p.relay with
    control := (channels.get? .control).map Channel.id
    timing := (channels.get? .timing).map Channel.id }
  { p with channels }.withRelay (relay.setup ctx.peerBinder request)

/-- A SETUP is refused, with no channel left that it opened; or it is negotiated, passed on and waited
for. -/
theorem setup_cases (ctx : ProxyContext) (now : Moment) (request : Request) (p : Proxy) :
    (∃ e, p.setup ctx now request = p.refuse e) ∨
    (∃ e channels, p.setup ctx now request =
      { p with channels := ChannelSet.closeAll channels }.refuse e) ∨
    (∃ value t channels, p.state = .announced ∧ request.headers.transport? = some value ∧
      Negotiation.negotiate (ChannelSet.opener ctx.binder ctx.config.localPorts p.localEnd.ip)
        p.client.ip value p.channels = (.ok t, channels) ∧
      p.setup ctx now request =
        (p.setUpPeers ctx request channels).await ctx now request (setupReply t)) := by
  unfold setup
  split
  · exact Or.inl ⟨_, rfl⟩
  · next hstate =>
    have hst : p.state = .announced := by simpa [SessionState.expect] using hstate
    split
    · exact Or.inl ⟨_, rfl⟩
    · next value hvalue =>
      simp only
      split
      · exact Or.inr (Or.inl ⟨_, _, rfl⟩)
      · next t channels hneg =>
        exact Or.inr (Or.inr ⟨value, t, channels, hst, hvalue, hneg, rfl⟩)

theorem setup_of_negotiate {value : String} {t : Transport} {channels : ChannelSet}
    (hm : request.method = .setup) (hstate : p.state = .announced)
    (hvalue : request.headers.transport? = some value)
    (hneg : Negotiation.negotiate (ChannelSet.opener ctx.binder ctx.config.localPorts p.localEnd.ip)
      p.client.ip value p.channels = (.ok t, channels)) :
    p.setup ctx now request =
      (p.setUpPeers ctx request channels).await ctx now request (setupReply t) := by
  have hexpect : p.state.expect request.method [.announced] = .ok () := by rw [hstate, hm]; rfl
  simp only [setup, hexpect, hvalue, hneg]
  rfl

theorem distinct_setup (h : p.channels.Distinct) : (p.setup ctx now request).channels.Distinct := by
  rcases setup_cases ctx now request p with
    ⟨e, hp⟩ | ⟨e, channels, hp⟩ | ⟨value, t, channels, -, -, hneg, hp⟩
  · rw [hp]
    exact h
  · rw [hp]
    exact ChannelSet.distinct_closeAll channels
  · obtain ⟨sent, -, hanswered⟩ := Negotiation.negotiate_eq_ok h hneg
    rw [hp]
    exact distinct_await (p := p.setUpPeers ctx request channels) hanswered.distinct

/-! ### Every request -/

theorem distinct_replicateIn {allowed : List SessionState} (h : p.channels.Distinct) :
    (p.replicateIn ctx now allowed request).channels.Distinct := by
  unfold replicateIn
  split
  · exact h
  · exact distinct_replicate h

theorem distinct_announce (h : p.channels.Distinct) :
    (p.announce ctx now request).channels.Distinct := by
  have hreset : p.reset.channels.Distinct := ChannelSet.distinct_closeAll p.channels
  unfold announce
  split
  · exact h
  · split
    · exact h
    · simp only
      split
      · exact distinct_replicate hreset
      · exact hreset

theorem distinct_setParameter (h : p.channels.Distinct) :
    (p.setParameter ctx now request).channels.Distinct := by
  unfold setParameter
  split
  · exact h
  · split
    · split
      · exact h
      · exact distinct_replicate h
    · exact distinct_replicate h

/-- Whatever is asked for, there is one channel for each role at most. -/
theorem distinct_start (h : p.channels.Distinct) : (p.start ctx now request).channels.Distinct := by
  unfold start
  split
  · exact h
  · exact distinct_announce h
  · exact distinct_setup h
  · exact distinct_replicateIn h
  · exact distinct_replicateIn h
  · exact distinct_replicateIn h
  · exact distinct_setParameter h
  · exact h
  · exact distinct_replicate h
  · exact h

end Proxy
end Raop
