/-
# What is true of every session of a player

The state of a session decides what it holds: a stream and a pipeline from
ANNOUNCE on, channels from SETUP on, timing requests while sound may be
pending. Each request keeps this up, whatever the system does with the channels
it opens and whether or not the sink starts, and so do datagrams, time and the
end of the connection between them.

A request that is refused leaves all of it as it was. SETUP is the one request
that can fail with a part of its work done; the channels it opened until then
are closed again, and there were none before. SET_PARAMETER is left out: the
parameters in front of a bad volume have their effect.

Key definitions: `PlayerSession.Reachable`, `PlayerSession.Consistent`, `PlayerSession.Unchanged`.
Key theorems: `PlayerSession.Consistent.handle`, `Player.unchanged_of_handle_error`,
`PlayerSession.Reachable.consistent_and_unchanged`.
-/
import Raop.Proofs.Net.ChannelSet
import Raop.Proofs.Player.Steps

namespace Raop

namespace PlayerSession

/-- The sessions that can come about: the sink, which belongs to all sessions, may be in any state at
each step, and the system may do anything with the channels that a request opens. -/
inductive Reachable (ctx : PlayerContext) : PlayerSession → Prop where
  | start (client localEnd : Endpoint) : Reachable ctx { client, localEnd }
  | request {s : PlayerSession} (h : Reachable ctx s) (binder : Binder) (now : Moment)
      (request : Request) (sink : Sink) (output : List Output) :
      Reachable ctx (Player.handle { ctx with binder } now request ⟨s, sink, output⟩).2.session
  | datagram {s : PlayerSession} (h : Reachable ctx s) (now : Moment) (role : Role)
      (source : Endpoint) (data : Bytes) (sink : Sink) (output : List Output) :
      Reachable ctx (Player.datagram now role source data ⟨s, sink, output⟩).session
  | tick {s : PlayerSession} (h : Reachable ctx s) (now : Moment) (sink : Sink)
      (output : List Output) : Reachable ctx (Player.tick ctx now ⟨s, sink, output⟩).session
  | shutdown {s : PlayerSession} (h : Reachable ctx s) (sink : Sink) (output : List Output) :
      Reachable ctx (Player.reset ⟨s, sink, output⟩).session

/-- What a session holds fits its state. -/
structure Consistent (s : PlayerSession) : Prop where
  stream : s.stream.isSome ↔ s.state ∈ [.announced, .setUp, .recording, .flushed]
  pipeline : s.pipeline.isSome ↔ s.state ∈ [.announced, .setUp, .recording, .flushed]
  noChannels : s.state ∈ [.idle, .announced, .tornDown] → s.channels.entries = []
  audio : s.state ∈ [.setUp, .recording, .flushed] → (s.channels.get? .audio).isSome
  timing : s.timing.isSome → s.state ∈ [.recording, .flushed]

/-- What a session holds is the same; channels may have been opened and closed again on the way. -/
structure Unchanged (s s' : PlayerSession) : Prop where
  state : s'.state = s.state
  stream : s'.stream = s.stream
  pipeline : s'.pipeline = s.pipeline
  channels : s'.channels.entries = s.channels.entries
  timing : s'.timing = s.timing
  volumeKnown : s'.volumeKnown = s.volumeKnown

theorem Unchanged.refl (s : PlayerSession) : Unchanged s s := ⟨rfl, rfl, rfl, rfl, rfl, rfl⟩

namespace Consistent

variable {s s' : PlayerSession}

theorem fresh (client localEnd : Endpoint) : Consistent { client, localEnd } := by
  refine ⟨?_, ?_, ?_, ?_, ?_⟩ <;> simp

/-- There are timing requests only after RECORD. -/
theorem timing_eq_none (h : Consistent s) (hs : s.state ∉ [.recording, .flushed]) :
    s.timing = none := by
  rw [← Option.not_isSome_iff_eq_none]
  exact fun ht => hs (h.timing ht)

theorem of_keeps (h : Consistent s) (k : s.Keeps s') : Consistent s' where
  stream := by rw [k.stream, k.state]; exact h.stream
  pipeline := by rw [k.pipeline, k.state]; exact h.pipeline
  noChannels := by rw [k.channels, k.state]; exact h.noChannels
  audio := by rw [k.channels, k.state]; exact h.audio
  timing := by rw [k.timing, k.state]; exact h.timing

theorem of_unchanged (h : Consistent s) (k : s.Unchanged s') : Consistent s' where
  stream := by rw [k.stream, k.state]; exact h.stream
  pipeline := by rw [k.pipeline, k.state]; exact h.pipeline
  noChannels := by rw [k.channels, k.state]; exact h.noChannels
  audio := by
    rw [k.state, ChannelSet.isSome_get?_iff, k.channels, ← ChannelSet.isSome_get?_iff]
    exact h.audio
  timing := by rw [k.timing, k.state]; exact h.timing

theorem reset (p : Player) : p.reset.session.Consistent := by
  refine ⟨?_, ?_, ?_, ?_, ?_⟩ <;> simp [Player.reset]

theorem teardown (p : Player) : p.teardown.session.Consistent := by
  refine ⟨?_, ?_, ?_, ?_, ?_⟩ <;> simp [Player.teardown, Player.reset]

theorem announced (p : Player) (stream : StreamDescription) (pipeline : Pipeline) :
    Consistent { p.reset.session with
      state := .announced, stream := some stream, pipeline := some pipeline } := by
  refine ⟨?_, ?_, ?_, ?_, ?_⟩ <;> simp [Player.reset]

/-- A session that was announced has its channels now. -/
theorem setUp (h : Consistent s) (hs : s.state = .announced) (pipeline : Pipeline)
    {channels : ChannelSet} (haudio : (channels.get? .audio).isSome) :
    Consistent { s with state := .setUp, channels, pipeline := some pipeline } := by
  have hstream : s.stream.isSome := h.stream.mpr (by simp [hs])
  have htiming : s.timing = none := h.timing_eq_none (by simp [hs])
  refine ⟨?_, ?_, ?_, ?_, ?_⟩ <;> simp [hstream, htiming, haudio]

/-- From one state with channels to another in which sound may be pending. -/
theorem streaming (h : Consistent s) (hs : s.state ∈ [.setUp, .recording, .flushed])
    {state : SessionState} (hstate : state ∈ [.recording, .flushed]) (timing : Option TimingTask) :
    Consistent { s with state, timing } := by
  have hmem : ∀ x ∈ [SessionState.setUp, .recording, .flushed],
      x ∈ [SessionState.announced, .setUp, .recording, .flushed] := fun _ => List.mem_cons_of_mem _
  have hstream : s.stream.isSome := h.stream.mpr (hmem _ hs)
  have hpipeline : s.pipeline.isSome := h.pipeline.mpr (hmem _ hs)
  have hact : state ∈ [SessionState.setUp, .recording, .flushed] := List.mem_cons_of_mem _ hstate
  refine ⟨?_, ?_, ?_, fun _ => h.audio hs, fun _ => hstate⟩
  · exact ⟨fun _ => hmem _ hact, fun _ => hstream⟩
  · exact ⟨fun _ => hmem _ hact, fun _ => hpipeline⟩
  · intro hclosed
    simp only [List.mem_cons, List.not_mem_nil, or_false] at hstate hclosed
    rcases hstate with rfl | rfl <;> simp at hclosed

end Consistent
end PlayerSession

namespace Player

open PlayerSession

variable {ctx : PlayerContext} {now : Moment} {request : Request} {p : Player} {e : Error}

theorem unchanged_of_setup_error (h : p.session.Consistent) (he : (p.setup ctx request).1 = .error e) :
    p.session.Unchanged (p.setup ctx request).2.session := by
  rcases setup_of_error he with hp | ⟨hst, channels, hq⟩
  · rw [hp]
    exact .refl _
  · rw [hq]
    have hnone : p.session.channels.entries = [] := h.noChannels (by simp [hst])
    exact ⟨rfl, rfl, rfl, hnone.symm, rfl, rfl⟩

/-- A request that is refused changes nothing, SET_PARAMETER aside. -/
theorem unchanged_of_handle_error (h : p.session.Consistent)
    (hm : request.method ≠ .setParameter) (he : (p.handle ctx now request).1 = .error e) :
    p.session.Unchanged (p.handle ctx now request).2.session := by
  unfold handle at he ⊢
  split at he
  · simp at he
  · rw [announce_of_error he]
    exact .refl _
  · exact unchanged_of_setup_error h he
  · rw [record_of_error he]
    exact .refl _
  · rw [flush_of_error he]
    exact .refl _
  · rw [flush_of_error he]
    exact .refl _
  · exact absurd ‹_› hm
  · simp at he
  · simp at he
  · exact .refl _

end Player

namespace PlayerSession

variable {ctx : PlayerContext}

theorem Consistent.setup {request : Request} {p : Player} (h : p.session.Consistent) :
    (p.setup ctx request).2.session.Consistent := by
  rcases Player.setup_cases ctx request p with
    ⟨e, hp⟩ | ⟨e, channels, hst, hp⟩ | ⟨_, _, _, channels, _, hst, -, -, hneg, hp⟩
  · rw [hp]
    exact h
  · exact h.of_unchanged (Player.unchanged_of_setup_error h (by rw [hp]))
  · obtain ⟨port, s₁, haudio⟩ := Negotiation.opens_audio_of_negotiate hneg
    rw [hp]
    exact h.setUp hst _ (ChannelSet.isSome_get?_of_opener haudio)

theorem Consistent.record {now : Moment} {request : Request} {p : Player}
    (h : p.session.Consistent) : (p.record ctx now request).2.session.Consistent := by
  rcases Player.record_cases ctx now request p with
    ⟨_, hp⟩ | ⟨_, _, q, hp, hst, -, -, -, hq⟩ | ⟨q, hp, hst, -, hq⟩
  · rw [hp]
    exact h
  · rw [hp, hq]
    exact h.streaming (by simp [hst]) (by simp) _
  · rw [hp, hq]
    exact h.streaming (List.mem_cons_of_mem _ hst) (by simp) _

theorem Consistent.flush {request : Request} {p : Player} (h : p.session.Consistent) :
    (p.flush request).2.session.Consistent := by
  rcases Player.flush_cases request p with ⟨_, hp⟩ | ⟨q, hp, hst, -, hq⟩
  · rw [hp]
    exact h
  · have hk := Player.keeps_play p Playback.flush
    rw [hp, hq]
    exact (h.of_keeps hk).streaming (hk.state ▸ List.mem_cons_of_mem _ hst) (by simp) _

/-- Every request keeps a session consistent, answered with an error or not. -/
theorem Consistent.handle {now : Moment} {request : Request} {p : Player}
    (h : p.session.Consistent) : (p.handle ctx now request).2.session.Consistent := by
  unfold Player.handle
  split
  · exact h
  · rcases Player.announce_cases ctx request p with ⟨_, hp⟩ | ⟨stream, pipeline, q, hp, -, -, -, hq⟩
    · rw [hp]
      exact h
    · rw [hp, hq]
      exact announced p stream pipeline
  · exact h.setup
  · exact h.record
  · exact h.flush
  · exact h.flush
  · exact h.of_keeps (Player.keeps_setParameter request p)
  · exact h
  · exact teardown p
  · exact h

theorem Reachable.consistent {s : PlayerSession} (h : Reachable ctx s) : s.Consistent := by
  induction h with
  | start client localEnd => exact .fresh client localEnd
  | request _ binder now request sink output ih => exact ih.handle (p := ⟨_, sink, output⟩)
  | datagram _ now role source data sink output ih =>
    exact ih.of_keeps (Player.keeps_datagram now role source data ⟨_, sink, output⟩)
  | tick _ now sink output ih => exact ih.of_keeps (Player.keeps_tick ctx now ⟨_, sink, output⟩)
  | shutdown _ sink output _ => exact .reset _

/-- **A session holds what its state says, and a request that fails leaves it alone.** In every session
that can come about, stream and pipeline, channels and timing requests are those of its state; and a
request other than SET_PARAMETER that is answered with an error changes nothing, whatever the
channels and the sink did. -/
theorem Reachable.consistent_and_unchanged {s : PlayerSession} (h : Reachable ctx s) :
    s.Consistent ∧
      ∀ (binder : Binder) (now : Moment) (request : Request) (sink : Sink) (output : List Output)
        (e : Error), request.method ≠ .setParameter →
        (Player.handle { ctx with binder } now request ⟨s, sink, output⟩).1 = .error e →
        s.Unchanged (Player.handle { ctx with binder } now request ⟨s, sink, output⟩).2.session :=
  ⟨h.consistent, fun _ _ _ sink output _ hm he =>
    Player.unchanged_of_handle_error (p := ⟨s, sink, output⟩) h.consistent hm he⟩

/-- A player of plain samples, whose every channel opens. -/
def plainContext : PlayerContext where
  decoders := .plain
  binder := .successive 6000 none true

def announceLossless : Request where
  method := .announce
  uri := "*"
  headers := ⟨[("Content-Type", sdpMediaType)]⟩
  body := Text.encode ("m=audio 0 RTP/AVP 96\na=rtpmap:96 AppleLossless\n" ++
    "a=fmtp:96 352 0 16 40 10 14 2 255 0 0 44100\n")

/-- The session once a stream was announced. -/
def afterAnnounce : PlayerSession :=
  (Player.handle plainContext default announceLossless
    ⟨{ client := default, localEnd := default }, {}, []⟩).2.session

def setupWithControl : Request where
  method := .setup
  uri := "*"
  headers := ⟨[("Transport", "RTP/AVP/UDP;control_port=6001")]⟩

/-- The SETUP that opens the control channel and is then refused the audio channel. -/
def afterRefusal : Except Error Reply × Player :=
  Player.handle { plainContext with binder := .successive 6000 (some .audio) true } default
    setupWithControl ⟨afterAnnounce, {}, []⟩

/-- The control channel of a SETUP that failed is closed again. -/
theorem consistent_and_unchanged_afterAnnounce :
    Reachable plainContext afterAnnounce ∧ afterAnnounce.state = .announced ∧
      afterRefusal.2.session.channels.released.map (·.role) = [.control] ∧
      afterAnnounce.Consistent ∧ afterAnnounce.Unchanged afterRefusal.2.session := by
  have hreach : Reachable plainContext afterAnnounce :=
    .request (.start _ _) plainContext.binder _ _ _ _
  have hrun : afterAnnounce.state = .announced ∧ afterRefusal.1.toOption = none ∧
      afterRefusal.2.session.channels.released.map (·.role) = [.control] := by decide +kernel
  obtain ⟨hstate, hrefused, hreleased⟩ := hrun
  obtain ⟨hcon, hun⟩ := hreach.consistent_and_unchanged
  refine ⟨hreach, hstate, hreleased, hcon, ?_⟩
  cases he : afterRefusal.1 with
  | error e => exact hun _ _ _ _ _ e (by decide) he
  | ok reply => simp [he, Except.toOption] at hrefused

end PlayerSession
end Raop
