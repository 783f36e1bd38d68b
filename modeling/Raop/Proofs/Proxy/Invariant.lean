/-
# What is true of every session of a proxy

Between two requests the state of a session decides what it holds. In idle and
torn down it holds nothing; once a stream is announced there are peers, but no
channel to the sender and none that the relay knows; from SETUP on there is an
audio channel (`Consistent`). A request that waits has done a part of its work:
what it has left to do makes the session fit its next state, however the wait
ends (`Prepared`).

A request that is refused leaves everything as it was. SETUP is the one that can
fail with a part of its work done; the channels that it opened are closed again,
and there were none before.

Key definitions: `Proxy.Blank`, `Proxy.Consistent`, `Proxy.Prepared`, `Proxy.Sound`,
`Proxy.Unchanged`.
Key theorems: `Proxy.Prepared.complete`, `Proxy.sound_start`, `Proxy.Sound.meet`,
`Proxy.Reachable.sound`, `Proxy.Reachable.consistent_and_kept`.
-/
import Raop.Proofs.Proxy.Turns

namespace Raop

namespace Negotiation

/-- A negotiation that succeeds leaves an open audio channel. -/
theorem audio_of_negotiate {binder : Binder} {ports : RtpPorts} {ip client : IpAddress}
    {value : String} {t : Transport} {s s' : ChannelSet} (hs : s.Distinct)
    (h : negotiate (ChannelSet.opener binder ports ip) client value s = (.ok t, s')) :
    ∃ c, s'.get? .audio = some c ∧ c.isOpen = true := by
  obtain ⟨sent, -, hanswered⟩ := negotiate_eq_ok hs h
  have hmem : Transport.serverPort ∈ t.options.map (·.key) := by
    rw [hanswered.keys]
    exact List.mem_append_right _ (List.mem_singleton_self _)
  obtain ⟨o, ho, hkey⟩ := List.mem_map.1 hmem
  obtain ⟨a, ha⟩ := exists_lastOf ho
  rw [hkey] at ha
  obtain ⟨c, hget, hisOpen, -⟩ := hanswered.last _ a ha .audio (by
    rw [(mem_of_lastOf ha).2]
    exact portRole?_serverPort)
  exact ⟨c, hget, hisOpen⟩

end Negotiation

namespace Proxy

/-- Nothing is held: no peer, no channel to the sender, and nothing is remembered. -/
structure Blank (p : Proxy) : Prop where
  peers : p.relay.peers = []
  channels : p.channels.entries = []
  control : p.relay.control = none
  timing : p.relay.timing = none
  history : p.relay.history.packets = []
  keys : p.relay.keys.entries = []
  volume : p.volume = none

/-- There is no channel to the sender, and the relay knows none. -/
structure Unopened (p : Proxy) : Prop where
  channels : p.channels.entries = []
  control : p.relay.control = none
  timing : p.relay.timing = none

/-- There is an open audio channel to the sender. -/
def HasAudio (p : Proxy) : Prop := ∃ c, p.channels.get? .audio = some c ∧ c.isOpen = true

/-- What a session holds fits its state. -/
structure Consistent (p : Proxy) : Prop where
  blank : p.state ∈ [.idle, .tornDown] → p.Blank
  unopened : p.state = .announced → p.Unopened
  audio : p.state ∈ [.setUp, .recording, .flushed] → p.HasAudio

/-- What a session holds is the same, and nothing was put out; channels may have been opened and closed
again on the way. -/
structure Unchanged (p q : Proxy) : Prop where
  state : q.state = p.state
  relay : q.relay = p.relay
  channels : q.channels.entries = p.channels.entries
  volume : q.volume = p.volume
  output : q.output = p.output

/-- What a session holds fits the state that it has once the request is complete. -/
inductive Prepared (request : Request) (p : Proxy) : Prop where
  | announces (hm : request.method = .announce) (h : p.Unopened)
  | opens (hm : request.method ∈ [.setup, .record, .flush, .pause]) (h : p.HasAudio)
  | keeps (hm : request.method = .setParameter) (h : p.HasAudio)
      (hstate : p.state ∈ [.setUp, .recording, .flushed])
  | ends (hm : request.method = .teardown)

/-- A session fits its state, or a request waits that will make it so. -/
structure Sound (p : Proxy) : Prop where
  consistent : p.wait = none → p.Consistent
  connecting : ∀ request pending found deadline,
    p.wait = some (.connecting request pending found deadline) →
    request.method = .announce ∧ p.Blank
  answering : ∀ request reply members barrier deadline,
    p.wait = some (.answering request reply members barrier deadline) → p.Prepared request

variable {ctx : ProxyContext} {now : Moment} {request : Request} {reply : Reply} {p q : Proxy}

theorem Blank.unopened (h : p.Blank) : p.Unopened := ⟨h.channels, h.control, h.timing⟩

theorem blank_reset (p : Proxy) : p.reset.Blank := ⟨rfl, rfl, rfl, rfl, rfl, rfl, rfl⟩

theorem Blank.consistent (h : p.Blank) (hstate : p.state ∈ [.idle, .tornDown]) : p.Consistent := by
  simp only [List.mem_cons, List.not_mem_nil, or_false] at hstate
  refine ⟨fun _ => h, fun hs => ?_, fun hs => ?_⟩ <;> rcases hstate with hstate | hstate <;>
    simp [hstate] at hs

theorem Unopened.consistent (h : p.Unopened) (hstate : p.state = .announced) : p.Consistent := by
  refine ⟨fun hs => ?_, fun _ => h, fun hs => ?_⟩ <;> simp [hstate] at hs

theorem HasAudio.consistent (h : p.HasAudio) (hstate : p.state ∈ [.setUp, .recording, .flushed]) :
    p.Consistent := by
  simp only [List.mem_cons, List.not_mem_nil, or_false] at hstate
  refine ⟨fun hs => ?_, fun hs => ?_, fun _ => h⟩ <;>
    rcases hstate with hstate | hstate | hstate <;> simp [hstate] at hs

/-! ### What is met -/

theorem Blank.congr (h : p.Blank) (hrelay : q.relay = p.relay) (hchannels : q.channels = p.channels)
    (hvolume : q.volume = p.volume) : q.Blank :=
  ⟨hrelay ▸ h.peers, hchannels ▸ h.channels, hrelay ▸ h.control, hrelay ▸ h.timing, hrelay ▸ h.history,
    hrelay ▸ h.keys, hvolume ▸ h.volume⟩

theorem Blank.of_steady (h : p.Blank) (hsteady : p.Steady q) : q.Blank :=
  h.congr (hsteady.relay h.peers h.channels) hsteady.channels hsteady.volume

theorem Unopened.of_steady (h : p.Unopened) (hsteady : p.Steady q) : q.Unopened :=
  ⟨hsteady.channels ▸ h.channels, hsteady.control ▸ h.control, hsteady.timing ▸ h.timing⟩

theorem HasAudio.of_channels (h : p.HasAudio) (hchannels : q.channels = p.channels) : q.HasAudio := by
  unfold HasAudio
  rw [hchannels]
  exact h

theorem Consistent.of_steady (h : p.Consistent) (hsteady : p.Steady q) : q.Consistent where
  blank hs := (h.blank (hsteady.state ▸ hs)).of_steady hsteady
  unopened hs := (h.unopened (hsteady.state ▸ hs)).of_steady hsteady
  audio hs := (h.audio (hsteady.state ▸ hs)).of_channels hsteady.channels

/-- Neither the wait nor the answer nor what was put out have a part in this. -/
theorem Consistent.congr (h : p.Consistent) (hstate : q.state = p.state) (hrelay : q.relay = p.relay)
    (hchannels : q.channels = p.channels) (hvolume : q.volume = p.volume) : q.Consistent where
  blank hs := (h.blank (hstate ▸ hs)).congr hrelay hchannels hvolume
  unopened hs :=
    have hunopened := h.unopened (hstate ▸ hs)
    ⟨hchannels ▸ hunopened.channels, hrelay ▸ hunopened.control, hrelay ▸ hunopened.timing⟩
  audio hs := (h.audio (hstate ▸ hs)).of_channels hchannels

/-- Neither the peers nor what is remembered have a part in this. -/
theorem Prepared.congr (h : p.Prepared request) (hstate : q.state = p.state)
    (hchannels : q.channels = p.channels) (hcontrol : q.relay.control = p.relay.control)
    (htiming : q.relay.timing = p.relay.timing) : q.Prepared request := by
  cases h with
  | announces hm h =>
    exact .announces hm ⟨hchannels ▸ h.channels, hcontrol ▸ h.control, htiming ▸ h.timing⟩
  | opens hm h => exact .opens hm (h.of_channels hchannels)
  | keeps hm h hactive => exact .keeps hm (h.of_channels hchannels) (hstate ▸ hactive)
  | ends hm => exact .ends hm

theorem Prepared.of_steady (h : p.Prepared request) (hsteady : p.Steady q) : q.Prepared request :=
  h.congr hsteady.state hsteady.channels hsteady.control hsteady.timing

/-! ### Completing a request -/

theorem HasAudio.complete (h : p.HasAudio) (hm : request.method ≠ .teardown) (reply : Reply) :
    (p.complete request reply).HasAudio :=
  h.of_channels (by rw [channels_complete, if_neg hm])

/-- A request that is complete leaves a session that fits its state. -/
theorem Prepared.complete (h : p.Prepared request) (reply : Reply) :
    (p.complete request reply).Consistent := by
  have hstate := state_complete request reply p
  cases h with
  | announces hm h =>
    have hnot : request.method ≠ .teardown := by simp [hm]
    obtain ⟨hrelay, -⟩ := holds_complete hnot reply p
    refine Unopened.consistent ⟨?_, hrelay ▸ h.control, hrelay ▸ h.timing⟩ ?_
    · rw [channels_complete, if_neg hnot]
      exact h.channels
    · rw [hstate, hm]
      rfl
  | opens hm h =>
    simp only [List.mem_cons, List.not_mem_nil, or_false] at hm
    refine (h.complete ?_ reply).consistent ?_
    · rcases hm with hm | hm | hm | hm <;> simp [hm]
    · rw [hstate]
      rcases hm with hm | hm | hm | hm <;> simp [hm, SessionState.after]
  | keeps hm h hactive =>
    refine (h.complete (by simp [hm]) reply).consistent ?_
    rw [hstate, hm]
    exact hactive
  | ends hm =>
    have hblank : (p.complete request reply).Blank := by
      unfold Proxy.complete
      rw [hm]
      exact ⟨rfl, rfl, rfl, rfl, rfl, rfl, rfl⟩
    refine hblank.consistent ?_
    rw [hstate, hm]
    simp [SessionState.after]

theorem Sound.of_consistent (h : p.Consistent) (hwait : p.wait = none) : p.Sound := by
  refine ⟨fun _ => h, ?_, ?_⟩ <;> simp [hwait]

/-- A request that was passed on is complete, or it waits, and either is sound. -/
theorem sound_await (h : p.Prepared request) (ctx : ProxyContext) (now : Moment) (reply : Reply) :
    (p.await ctx now request reply).Sound := by
  have hpruned : (p.withRelay p.relay.prune).Prepared request := h.congr rfl rfl rfl rfl
  unfold await
  split
  · exact .of_consistent (h.complete reply) rfl
  · simp only
    split
    · exact .of_consistent (hpruned.complete reply) rfl
    · refine ⟨by simp, by simp, fun _ _ _ _ _ hwait => ?_⟩
      obtain ⟨rfl, -⟩ := Wait.answering.inj (Option.some.inj hwait)
      exact h.congr rfl rfl rfl rfl

theorem sound_replicate (h : p.Prepared request) (ctx : ProxyContext) (now : Moment) :
    (p.replicate ctx now request).Sound :=
  sound_await (p := p.withRelay (p.relay.forward request)) (h.congr rfl rfl rfl rfl) ctx now {}

theorem sound_announceTo (h : p.Unopened) (hm : request.method = .announce) (ctx : ProxyContext)
    (now : Moment) (found : List Peer) : (p.announceTo ctx now request found).Sound :=
  sound_replicate (p := { p with wait := none, relay := { p.relay with peers := found } })
    (.announces hm ⟨h.channels, h.control, h.timing⟩) ctx now

/-! ### Steps -/

/-- A request that is passed on in a state that admits it will fit the state after it. -/
theorem Consistent.prepared (h : p.Consistent) (hm : request.method.isPassedOn = true)
    (hstream : request.method ≠ .announce ∧ request.method ≠ .setup)
    (hstate : p.state.admits request.method) : p.Prepared request := by
  have hstreaming (hs : p.state ∈ SessionState.streaming) : p.HasAudio :=
    h.audio (List.mem_cons_of_mem _ hs)
  cases hmethod : request.method with
  | announce => exact absurd hmethod hstream.1
  | setup => exact absurd hmethod hstream.2
  | teardown => exact .ends hmethod
  | record =>
    rw [hmethod] at hstate
    exact .opens (by simp [hmethod]) (h.audio hstate)
  | setParameter =>
    rw [hmethod] at hstate
    exact .keeps hmethod (h.audio hstate) hstate
  | flush =>
    rw [hmethod] at hstate
    exact .opens (by simp [hmethod]) (hstreaming hstate)
  | pause =>
    rw [hmethod] at hstate
    exact .opens (by simp [hmethod]) (hstreaming hstate)
  | options => simp [hmethod, Method.isPassedOn] at hm
  | getParameter => simp [hmethod, Method.isPassedOn] at hm
  | other token => simp [hmethod, Method.isPassedOn] at hm

/-- **A request that begins leaves a sound session.** -/
theorem sound_start (h : p.Consistent) (hdistinct : p.channels.Distinct) (hwait : p.wait = none)
    (ctx : ProxyContext) (now : Moment) (request : Request) : (p.start ctx now request).Sound := by
  have hbegins := begins_start ctx now request p
  generalize p.start ctx now request = q at hbegins ⊢
  cases hbegins with
  | refused e => exact .of_consistent (h.congr rfl rfl rfl rfl) hwait
  | undone e channels _ hstate =>
    have hunopened := h.unopened hstate
    exact .of_consistent (Unopened.consistent ⟨rfl, hunopened.control, hunopened.timing⟩ hstate) hwait
  | told reply => exact .of_consistent (h.congr rfl rfl rfl rfl) hwait
  | connects deadline hm =>
    refine ⟨by simp [put], fun _ _ _ _ hw => ?_, by simp [put]⟩
    obtain ⟨rfl, -⟩ := Wait.connecting.inj (Option.some.inj hw)
    exact ⟨hm, rfl, rfl, rfl, rfl, rfl, rfl, rfl⟩
  | announces hm => exact sound_announceTo (blank_reset p).unopened hm ctx now []
  | setsUp value t channels hm hstate hvalue hneg =>
    have haudio : (p.setUpPeers ctx request channels).HasAudio :=
      Negotiation.audio_of_negotiate hdistinct hneg
    exact sound_await (.opens (by simp [hm]) haudio) ctx now (setupReply t)
  | passesOn volume hm hstream hstate =>
    exact sound_replicate (p := { p with volume })
      ((h.prepared hm hstream hstate).congr rfl rfl rfl rfl) ctx now

/-- **Whatever is met leaves a sound session.** -/
theorem Sound.meet (h : p.Sound) (ctx : ProxyContext) (o : Occurrence) : (p.meet ctx o).Sound := by
  have hmeets := meets_meet ctx p o
  generalize p.meet ctx o = q at hmeets ⊢
  cases hmeets with
  | aside _ hsteady hwait =>
    refine ⟨fun hw => (h.consistent (hwait ▸ hw)).of_steady hsteady, fun _ _ _ _ hw => ?_,
      fun _ _ _ _ _ hw => (h.answering _ _ _ _ _ (hwait ▸ hw)).of_steady hsteady⟩
    obtain ⟨hm, hblank⟩ := h.connecting _ _ _ _ (hwait ▸ hw)
    exact ⟨hm, hblank.of_steady hsteady⟩
  | connecting _ request _ _ _ _ _ hsteady hwait hwait' =>
    obtain ⟨hm, hblank⟩ := h.connecting _ _ _ _ hwait
    refine ⟨by simp [hwait'], fun _ _ _ _ hw => ?_, by simp [hwait']⟩
    obtain ⟨rfl, -⟩ := Wait.connecting.inj (Option.some.inj (hwait'.symm.trans hw))
    exact ⟨hm, hblank.of_steady hsteady⟩
  | connected now request _ _ found' _ hwait =>
    obtain ⟨hm, hblank⟩ := h.connecting _ _ _ _ hwait
    exact sound_announceTo hblank.unopened hm ctx now found'
  | answering _ request _ _ _ _ _ hsteady hwait hwait' =>
    refine ⟨by simp [hwait'], by simp [hwait'], fun _ _ _ _ _ hw => ?_⟩
    obtain ⟨rfl, -⟩ := Wait.answering.inj (Option.some.inj (hwait'.symm.trans hw))
    exact (h.answering _ _ _ _ _ hwait).of_steady hsteady
  | answered _ request reply _ _ _ hsteady hwait =>
    exact .of_consistent (((h.answering _ _ _ _ _ hwait).of_steady hsteady).complete reply) rfl

/-- The answer and what was put out have no part in this. -/
theorem Sound.taken (h : p.Sound) (answer : Option (Except Error Reply)) (output : List Output) :
    Sound { p with answer, output } := by
  refine ⟨fun hw => (h.consistent hw).congr rfl rfl rfl rfl, fun _ _ _ _ hw => ?_,
    fun _ _ _ _ _ hw => (h.answering _ _ _ _ _ hw).congr rfl rfl rfl rfl⟩
  obtain ⟨hm, hblank⟩ := h.connecting _ _ _ _ hw
  exact ⟨hm, hblank.congr rfl rfl rfl⟩

theorem Reachable.sound (h : Reachable ctx p) : p.Sound := by
  induction h with
  | start client localEnd =>
    exact .of_consistent (Blank.consistent ⟨rfl, rfl, rfl, rfl, rfl, rfl, rfl⟩ (by simp [ofClient])) rfl
  | request hreach hwait _ binder peerBinder now request ih =>
    exact sound_start (ih.consistent hwait) hreach.distinct hwait _ now request
  | met _ o ih => exact ih.meet ctx o
  | answerTaken _ ih => exact ih.taken none _
  | outputTaken _ ih => exact ih.taken _ []
  | shutdown _ _ _ => exact .of_consistent ((blank_reset _).consistent (by simp [reset])) ‹_›

/-! ### Refusals -/

theorem unchanged_of_error {e : Error} (h : p.Consistent) (hanswer : p.answer = none)
    (he : (p.start ctx now request).answer = some (.error e)) : p.Unchanged (p.start ctx now request) := by
  rcases start_of_error hanswer he with hp | ⟨hstate, channels, hp⟩
  · rw [hp]
    exact ⟨rfl, rfl, rfl, rfl, rfl⟩
  · rw [hp]
    exact ⟨rfl, rfl, (h.unopened hstate).channels.symm, rfl, rfl⟩

/-- **A session of a proxy holds what its state says, and a request that fails leaves it alone.** In every
session that can come about and waits for nothing, peers and channels, what the relay remembers, and the
volume are those of its state. A request that is answered with an error is so at once, and has changed
nothing, whatever the channels and the peers did. -/
theorem Reachable.consistent_and_kept (h : Reachable ctx p) (hwait : p.wait = none) :
    p.Consistent ∧
      ∀ (binder : Binder) (peerBinder : Nat → Binder) (now : Moment) (request : Request)
        (met : List Occurrence) (e : Error), p.answer = none →
        ((p.start { ctx with binder, peerBinder } now request).meetAll ctx met).answer =
          some (.error e) →
        (p.start { ctx with binder, peerBinder } now request).answer = some (.error e) ∧
          p.Unchanged (p.start { ctx with binder, peerBinder } now request) := by
  have hconsistent := h.sound.consistent hwait
  refine ⟨hconsistent, fun binder peerBinder now request met e hanswer he => ?_⟩
  rw [error_meetAll_iff hwait hanswer] at he
  exact ⟨he, unchanged_of_error hconsistent hanswer he⟩

/-- The SETUP that opens the control channel to the sender and is then refused the audio channel. -/
def peeredRefusal : Proxy :=
  peeredAfterAnnounce.start { peeredContext with binder := .successive 6000 (some .audio) true } default
    PlayerSession.setupWithControl

/-- The control channel is closed again, and the peer has heard of nothing. -/
theorem consistent_and_kept_peeredRefusal :
    Reachable peeredContext peeredAfterAnnounce ∧ peeredAfterAnnounce.state = .announced ∧
      peeredRefusal.channels.released.map (·.role) = [.control] ∧
      peeredRefusal.relay.peers.map (·.index) = [0] ∧
      peeredAfterAnnounce.Consistent ∧ peeredAfterAnnounce.Unchanged peeredRefusal := by
  have hreach : Reachable peeredContext peeredAfterAnnounce :=
    .outputTaken (.answerTaken (.met (.request (.start _ _) rfl rfl peeredContext.binder
      peeredContext.peerBinder _ _) _))
  have hrun : peeredAfterAnnounce.wait.isNone = true ∧ peeredAfterAnnounce.state = .announced ∧
      peeredRefusal.channels.released.map (·.role) = [.control] ∧
      peeredRefusal.relay.peers.map (·.index) = [0] ∧
      peeredRefusal.answer.map Except.toOption = some none := by decide +kernel
  obtain ⟨hwait, hstate, hreleased, hpeers, hanswer⟩ := hrun
  obtain ⟨hconsistent, hkept⟩ := hreach.consistent_and_kept (Option.isNone_iff_eq_none.1 hwait)
  obtain ⟨e, he⟩ : ∃ e, peeredRefusal.answer = some (.error e) := by
    rcases h : peeredRefusal.answer with _ | e | reply
    · simp [h] at hanswer
    · exact ⟨e, rfl⟩
    · simp [h, Except.toOption] at hanswer
  exact ⟨hreach, hstate, hreleased, hpeers, hconsistent,
    (hkept _ peeredContext.peerBinder default _ [] e rfl he).2⟩

end Proxy
end Raop
