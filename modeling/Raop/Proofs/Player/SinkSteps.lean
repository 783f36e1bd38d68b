/-
# What a step of the player does to the sink

Whether a sink takes packets is decided by its format, which it has from start
to stop, and by what it is (`Sink.SameMode`). A session starts it with a RECORD
that succeeds in SetUp, and stops it whenever it gives up a stream that it
holds: with an ANNOUNCE that is accepted, with TEARDOWN, or at the end of its
connection, recorded or not. Nothing else that a session does starts or stops
the sink (`Player.sinkStep`); datagrams, parameters and FLUSH change what is in
it.

Key definitions: `Sink.SameMode`, `Player.Occurrence`, `Player.meet`, `Player.GivesUp`,
`Player.Records`, `Player.SinkStep`.
Key theorems: `Pipeline.deliver_isOk_iff`, `Player.sinkStep`, `Player.streaming_meet`.
-/
import Raop.Proofs.Player.Invariant

namespace Raop

/-! ### Whether a sink takes packets -/

namespace Sink

/-- What decides whether packets are taken is the same. -/
structure SameMode (s s' : Sink) : Prop where
  keeps : s'.keeps = s.keeps
  format : s'.format = s.format
  enqueueFault : s'.enqueueFault = s.enqueueFault

variable {s s' s'' : Sink} {timestamp : UInt32} {samples : List Int16}

theorem SameMode.refl (s : Sink) : s.SameMode s := ⟨rfl, rfl, rfl⟩

theorem SameMode.trans (h : s.SameMode s') (h' : s'.SameMode s'') : s.SameMode s'' :=
  ⟨h'.keeps.trans h.keeps, h'.format.trans h.format, h'.enqueueFault.trans h.enqueueFault⟩

theorem sameMode_flush (s : Sink) : s.SameMode s.flush := by
  unfold flush
  split
  · exact ⟨rfl, rfl, rfl⟩
  · exact .refl s

theorem sameMode_sync (s : Sink) (timestamp : UInt32) (time : NtpTime) :
    s.SameMode (s.sync timestamp time) := by
  unfold sync
  split
  · exact ⟨rfl, rfl, rfl⟩
  · exact .refl s

theorem sameMode_setClockOffset (s : Sink) (micros : Int) : s.SameMode (s.setClockOffset micros) := by
  unfold setClockOffset
  split
  · exact ⟨rfl, rfl, rfl⟩
  · exact .refl s

theorem sameMode_enqueue (h : s.enqueue timestamp samples = .ok s') : s.SameMode s' := by
  unfold enqueue at h
  split at h
  · cases h
  · split at h
    · obtain rfl := Except.ok.inj h
      exact .refl s
    · split at h
      · cases h
      · obtain rfl := Except.ok.inj h
        exact ⟨rfl, rfl, rfl⟩

/-- A packet is taken by a sink whose device takes packets, and that is started if it keeps them. -/
theorem enqueue_isOk_iff (s : Sink) (timestamp : UInt32) (samples : List Int16) :
    (∃ s', s.enqueue timestamp samples = .ok s') ↔
      s.enqueueFault = none ∧ (s.keeps = true → s.format.isSome = true) := by
  unfold enqueue
  cases s.enqueueFault with
  | some detail => simp
  | none => cases s.keeps <;> cases s.format <;> simp

end Sink

theorem Pipeline.deliver_isOk_iff {p : Pipeline} {packet : AudioPacket} {sink : Sink} :
    (∃ s', p.deliver packet sink = .ok s') ↔
      (∃ samples, p.samples packet = .ok samples) ∧ sink.enqueueFault = none ∧
        (sink.keeps = true → sink.format.isSome = true) := by
  unfold deliver
  cases p.samples packet with
  | error e => simp
  | ok samples =>
    simp only [Except.ok.injEq, exists_eq', true_and]
    rw [← Sink.enqueue_isOk_iff sink packet.timestamp samples]
    cases sink.enqueue packet.timestamp samples <;> simp

namespace Playback

variable {b : Playback}

theorem sink_request (b : Playback) (gap : Gap) : (b.request gap).sink = b.sink := by
  unfold request
  split <;> rfl

theorem sameMode_deliver (b : Playback) (packet : AudioPacket) :
    b.sink.SameMode (b.deliver packet).2.sink := by
  unfold deliver Pipeline.deliver
  cases b.pipeline.samples packet with
  | error e => exact .refl _
  | ok samples =>
    simp only
    cases h : b.sink.enqueue packet.timestamp samples with
    | error e => exact .refl _
    | ok sink => exact Sink.sameMode_enqueue h

theorem sameMode_audio (b : Playback) (datagram : Bytes) :
    b.sink.SameMode (b.audio datagram).2.sink := by
  unfold audio
  split
  · exact .refl _
  · next packet _ =>
    simp only
    refine Sink.SameMode.trans ?_ (sameMode_deliver _ packet)
    split
    · rw [sink_request]
      exact .refl _
    · exact .refl _

theorem sameMode_retransmitted (b : Playback) (datagram : Bytes) :
    b.sink.SameMode (b.retransmitted datagram).2.sink := by
  unfold retransmitted
  split
  · exact .refl _
  · split
    · exact .refl _
    · exact sameMode_deliver b _

theorem sameMode_onAudio (b : Playback) (datagram : Bytes) :
    b.sink.SameMode (b.onAudio datagram).sink := by
  unfold onAudio
  split
  · split
    · exact sameMode_audio b datagram
    · exact .refl _
  · exact .refl _

theorem sameMode_onControl (b : Playback) (datagram : Bytes) :
    b.sink.SameMode (b.onControl datagram).sink := by
  unfold onControl
  split
  · split
    · exact Sink.sameMode_sync ..
    · exact .refl _
  · exact sameMode_retransmitted b datagram
  · exact .refl _

theorem sameMode_flush (b : Playback) : b.sink.SameMode b.flush.sink := Sink.sameMode_flush b.sink

end Playback

namespace Player

/-! ### What a step does to the sink -/

variable {ctx : PlayerContext} {now : Moment} {request : Request} {p : Player}

theorem sink_send (p : Player) (role : Role) (data : Bytes) : (p.send role data).sink = p.sink := by
  unfold send
  split
  · rfl
  · split <;> rfl

theorem sink_foldl_send (role : Role) : ∀ (asked : List RetransmitRequest) (p : Player),
    (asked.foldl (fun p r => p.send role r.encode) p).sink = p.sink
  | [], _ => rfl
  | r :: rs, p => by rw [List.foldl_cons, sink_foldl_send role rs, sink_send]

theorem sameMode_play {f : Playback → Playback} (hf : ∀ b : Playback, b.sink.SameMode (f b).sink) (p : Player) :
    p.sink.SameMode (p.play f).sink := by
  unfold play
  split
  · exact .refl _
  · next pipeline _ =>
    simp only
    rw [sink_foldl_send]
    exact hf { pipeline, sink := p.sink }

theorem sink_sendDue (interval : Nat) (now : Moment) : ∀ (n : Nat) (p : Player),
    (sendDue interval now n p).sink = p.sink
  | 0, _ => rfl
  | n + 1, p => by
    unfold sendDue
    split
    · rfl
    · split
      · rfl
      · exact (sink_sendDue interval now n _).trans (sink_send ..)

theorem sink_tick (ctx : PlayerContext) (now : Moment) (p : Player) :
    (p.tick ctx now).sink = p.sink := by
  unfold tick
  split
  · rfl
  · exact sink_sendDue ..

theorem sameMode_datagram (now : Moment) (role : Role) (source : Endpoint) (data : Bytes)
    (p : Player) : p.sink.SameMode (p.datagram now role source data).sink := by
  unfold datagram
  split
  · exact .refl _
  · split
    · cases role with
      | audio => exact sameMode_play (fun b => b.sameMode_onAudio _) p
      | control => exact sameMode_play (fun b => b.sameMode_onControl _) p
      | timing =>
        simp only [onTiming]
        split
        · exact .refl _
        · split
          · exact Sink.sameMode_setClockOffset ..
          · split <;> exact .refl _
    · exact .refl _

theorem sameMode_applyParameters : ∀ (l : List (String × String)) (p : Player),
    p.sink.SameMode (p.applyParameters l).2.sink
  | [], _ => .refl _
  | (name, value) :: rest, p => by
    unfold applyParameters
    split
    · split
      · exact .refl _
      · next db _ =>
        have hset : p.sink.SameMode (p.applyVolume db).sink := ⟨rfl, rfl, rfl⟩
        exact hset.trans (sameMode_applyParameters rest _)
    · exact sameMode_applyParameters rest p

theorem sameMode_setParameter (request : Request) (p : Player) :
    p.sink.SameMode (p.setParameter request).2.sink := by
  unfold setParameter
  split
  · exact .refl _
  · split
    · split
      · exact .refl _
      · exact sameMode_applyParameters ..
    · exact .refl _

theorem sink_setup (ctx : PlayerContext) (request : Request) (p : Player) :
    (p.setup ctx request).2.sink = p.sink := by
  rcases setup_cases ctx request p with
    ⟨e, hp⟩ | ⟨e, channels, -, hp⟩ | ⟨_, _, _, _, _, -, -, -, -, hp⟩
  · rw [hp]
  · rw [hp]
  · rw [hp]

theorem sameMode_flush (request : Request) (p : Player) :
    p.sink.SameMode (p.flush request).2.sink := by
  rcases flush_cases request p with ⟨e, hp⟩ | ⟨q, hp, -, hsink, -⟩
  · rw [hp]
    exact .refl _
  · rw [hp, hsink]
    exact sameMode_play Playback.sameMode_flush p

/-- The sink is stopped by a reset just if there is a pipeline. -/
theorem sink_reset (p : Player) :
    p.reset.sink = if p.session.pipeline.isSome then p.sink.stop else p.sink := rfl

/-! ### Steps of a session -/

/-- What happens to a session. -/
inductive Occurrence where
  /-- A request, and what the system does with the channels that it opens. -/
  | request (binder : Binder) (now : Moment) (request : Request)
  | datagram (now : Moment) (role : Role) (source : Endpoint) (data : Bytes)
  | tick (now : Moment)
  /-- The end of the connection. -/
  | shutdown

/-- The session after an occurrence. -/
def meet (ctx : PlayerContext) (p : Player) : Occurrence → Player
  | .request binder now request => (p.handle { ctx with binder } now request).2
  | .datagram now role source data => p.datagram now role source data
  | .tick now => p.tick ctx now
  | .shutdown => p.reset

/-- A stream is held from ANNOUNCE on. -/
def holding : List SessionState := [.announced, .setUp, .recording, .flushed]

/-- The session holds a stream and gives it up: for another one, with TEARDOWN, or with its connection. -/
def GivesUp (ctx : PlayerContext) (p : Player) (o : Occurrence) : Prop :=
  p.session.state ∈ holding ∧
    match o with
    | .request binder now request =>
      request.method = .teardown ∨ request.method = .announce ∧
        ∃ reply, (p.handle { ctx with binder } now request).1 = .ok reply
    | .shutdown => True
    | _ => False

/-- The session has a RECORD that succeeds. -/
def Records (ctx : PlayerContext) (p : Player) (o : Occurrence) : Prop :=
  match o with
  | .request binder now request =>
    request.method = .record ∧ ∃ reply, (p.handle { ctx with binder } now request).1 = .ok reply
  | _ => False

instance (result : Except Error Reply) : Decidable (∃ reply, result = .ok reply) :=
  match result with
  | .ok reply => isTrue ⟨reply, rfl⟩
  | .error _ => isFalse fun ⟨_, h⟩ => by cases h

instance (ctx : PlayerContext) (p : Player) : (o : Occurrence) → Decidable (p.GivesUp ctx o)
  | .request .. => inferInstanceAs (Decidable (_ ∧ (_ ∨ _ ∧ _)))
  | .datagram .. => inferInstanceAs (Decidable (_ ∧ False))
  | .tick _ => inferInstanceAs (Decidable (_ ∧ False))
  | .shutdown => inferInstanceAs (Decidable (_ ∧ True))

instance (ctx : PlayerContext) (p : Player) : (o : Occurrence) → Decidable (p.Records ctx o)
  | .request .. => inferInstanceAs (Decidable (_ ∧ _))
  | .datagram .. => inferInstanceAs (Decidable False)
  | .tick _ => inferInstanceAs (Decidable False)
  | .shutdown => inferInstanceAs (Decidable False)

theorem consistent_meet (h : p.session.Consistent) (o : Occurrence) :
    (p.meet ctx o).session.Consistent := by
  cases o with
  | request binder now request => exact h.handle
  | datagram now role source data => exact h.of_keeps (keeps_datagram now role source data p)
  | tick now => exact h.of_keeps (keeps_tick ctx now p)
  | shutdown => exact .reset p

/-- Requests that neither begin nor end a stream or its sound leave the sink started or stopped. -/
theorem sameMode_handle (hannounce : request.method ≠ .announce) (hrecord : request.method ≠ .record)
    (hteardown : request.method ≠ .teardown) : p.sink.SameMode (p.handle ctx now request).2.sink := by
  unfold handle
  split
  · exact .refl _
  · exact absurd ‹_› hannounce
  · rw [sink_setup]
    exact .refl _
  · exact absurd ‹_› hrecord
  · exact sameMode_flush request p
  · exact sameMode_flush request p
  · exact sameMode_setParameter request p
  · exact .refl _
  · exact absurd ‹_› hteardown
  · exact .refl _

/-- What a step does to the sink. -/
inductive SinkStep (ctx : PlayerContext) (p : Player) (o : Occurrence) : Prop where
  | stops (gives : p.GivesUp ctx o) (sink : (p.meet ctx o).sink = p.sink.stop)
  | keeps (holds : ¬ p.GivesUp ctx o) (sink : p.sink.SameMode (p.meet ctx o).sink)
  | starts (holds : ¬ p.GivesUp ctx o) (state : p.session.state = .setUp)
      (records : p.Records ctx o)

/-- A step that ends the stream, if there is one, stops the sink with it. -/
theorem sinkStep_of_reset {o : Occurrence} (h : p.session.Consistent)
    (hgives : p.session.state ∈ holding → p.GivesUp ctx o)
    (hsink : (p.meet ctx o).sink = p.reset.sink) : p.SinkStep ctx o := by
  rw [sink_reset] at hsink
  by_cases hstate : p.session.state ∈ holding
  · rw [if_pos (h.pipeline.2 hstate)] at hsink
    exact .stops (hgives hstate) hsink
  · rw [if_neg fun hp => hstate (h.pipeline.1 hp)] at hsink
    exact .keeps (fun hg => hstate hg.1) (hsink ▸ .refl _)

theorem sinkStep_announce {binder : Binder} (h : p.session.Consistent)
    (hm : request.method = .announce) : p.SinkStep ctx (.request binder now request) := by
  have hhandle : p.handle { ctx with binder } now request =
      p.announce { ctx with binder } request := by
    unfold handle
    rw [hm]
  have hmeet : p.meet ctx (.request binder now request) =
      (p.announce { ctx with binder } request).2 := congrArg Prod.snd hhandle
  rcases announce_cases { ctx with binder } request p with ⟨e, hp⟩ | ⟨_, _, q, hp, -, -, hsink, -⟩
  · refine .keeps ?_ (by rw [hmeet, hp]; exact .refl _)
    rintro ⟨-, hteardown | ⟨-, reply, hreply⟩⟩
    · rw [hm] at hteardown
      cases hteardown
    · rw [hhandle, hp] at hreply
      cases hreply
  · refine sinkStep_of_reset h (fun hstate => ⟨hstate, Or.inr ⟨hm, {}, ?_⟩⟩) ?_
    · rw [hhandle, hp]
    · rw [hmeet, hp, hsink]

theorem sinkStep_teardown {binder : Binder} (h : p.session.Consistent)
    (hm : request.method = .teardown) : p.SinkStep ctx (.request binder now request) := by
  refine sinkStep_of_reset h (fun hstate => ⟨hstate, Or.inl hm⟩) ?_
  unfold meet handle
  simp only [hm]
  rfl

theorem sinkStep_record {binder : Binder} (hm : request.method = .record) :
    p.SinkStep ctx (.request binder now request) := by
  have hholds : ¬ p.GivesUp ctx (.request binder now request) := by
    rintro ⟨-, hteardown | ⟨hannounce, -⟩⟩
    · rw [hm] at hteardown
      cases hteardown
    · rw [hm] at hannounce
      cases hannounce
  have hhandle : p.handle { ctx with binder } now request =
      p.record { ctx with binder } now request := by
    unfold handle
    rw [hm]
  rcases record_cases { ctx with binder } now request p with
    ⟨e, hp⟩ | ⟨_, _, q, hp, hstate, -⟩ | ⟨q, hp, -, hsink, -⟩
  · refine .keeps hholds ?_
    rw [meet, hhandle, hp]
    exact .refl _
  · exact .starts hholds hstate ⟨hm, {}, by rw [hhandle, hp]⟩
  · refine .keeps hholds ?_
    rw [meet, hhandle, hp, hsink]
    exact .refl _

/-- **What a step does to the sink.** A session that gives up a stream stops it, a RECORD from SetUp may
start it, and any other step leaves it started or stopped as it was. -/
theorem sinkStep (h : p.session.Consistent) (o : Occurrence) : p.SinkStep ctx o := by
  cases o with
  | datagram now role source data =>
    exact .keeps (fun hg => hg.2) (sameMode_datagram now role source data p)
  | tick now =>
    refine .keeps (fun hg => hg.2) ?_
    rw [meet, sink_tick]
    exact .refl _
  | shutdown => exact sinkStep_of_reset h (fun hstate => ⟨hstate, trivial⟩) rfl
  | request binder now request =>
    by_cases hannounce : request.method = .announce
    · exact sinkStep_announce h hannounce
    · by_cases hteardown : request.method = .teardown
      · exact sinkStep_teardown h hteardown
      · by_cases hrecord : request.method = .record
        · exact sinkStep_record hrecord
        · refine .keeps ?_ (sameMode_handle hannounce hrecord hteardown)
          rintro ⟨-, hm | ⟨hm, -⟩⟩
          · exact hteardown hm
          · exact hannounce hm

theorem mem_holding_of_streaming {state : SessionState} (h : state ∈ SessionState.streaming) :
    state ∈ holding := by
  revert h
  cases state <;> decide

theorem streaming_flush (h : p.session.state ∈ SessionState.streaming) :
    (p.flush request).2.session.state ∈ SessionState.streaming := by
  rcases flush_cases request p with ⟨e, hp⟩ | ⟨q, hp, -, -, hq⟩
  · rw [hp]
    exact h
  · rw [hp, hq]
    exact List.mem_cons_of_mem _ List.mem_cons_self

theorem streaming_handle (h : p.session.state ∈ SessionState.streaming)
    (hannounce : request.method = .announce → ∀ reply, (p.handle ctx now request).1 ≠ .ok reply)
    (hteardown : request.method ≠ .teardown) :
    (p.handle ctx now request).2.session.state ∈ SessionState.streaming := by
  have hnot : p.session.state ≠ .announced := by
    intro hstate
    rw [hstate] at h
    exact absurd h (by decide)
  unfold handle at hannounce ⊢
  split
  · exact h
  · next hm =>
    rw [hm] at hannounce
    rcases announce_cases ctx request p with ⟨e, hp⟩ | ⟨_, _, q, hp, -⟩
    · simp only [hp]
      exact h
    · exact absurd (by simp [hp]) (hannounce rfl {})
  · rcases setup_cases ctx request p with
      ⟨e, hp⟩ | ⟨e, _, hstate, -⟩ | ⟨_, _, _, _, _, hstate, -⟩
    · rw [hp]
      exact h
    · exact absurd hstate hnot
    · exact absurd hstate hnot
  · rcases record_cases ctx now request p with
      ⟨e, hp⟩ | ⟨_, _, q, hp, -, -, -, -, hq⟩ | ⟨q, hp, -, -, hq⟩
    · rw [hp]
      exact h
    · rw [hp, hq]
      exact List.mem_cons_self
    · rw [hp, hq]
      exact List.mem_cons_self
  · exact streaming_flush h
  · exact streaming_flush h
  · exact (keeps_setParameter request p).state ▸ h
  · exact h
  · exact absurd ‹_› hteardown
  · exact h

/-- A session in which sound may be pending stays one until it gives up its stream. -/
theorem streaming_meet {o : Occurrence} (h : p.session.state ∈ SessionState.streaming)
    (hholds : ¬ p.GivesUp ctx o) : (p.meet ctx o).session.state ∈ SessionState.streaming := by
  have hhold := mem_holding_of_streaming h
  cases o with
  | datagram now role source data => exact (keeps_datagram now role source data p).state ▸ h
  | tick now => exact (keeps_tick ctx now p).state ▸ h
  | shutdown => exact absurd ⟨hhold, trivial⟩ hholds
  | request binder now request =>
    refine streaming_handle h (fun hm reply hreply => hholds ⟨hhold, Or.inr ⟨hm, reply, hreply⟩⟩) ?_
    exact fun hm => hholds ⟨hhold, Or.inl hm⟩

end Player

end Raop
