/-
# What a step of the player does to its session

For every request that changes how far a session has come there is one lemma
that lists the cases: refused, and then what the session still is; or accepted,
with the state it was in and the session afterwards. Everything else a session
does (datagrams, time, parameters, questions) keeps the state, the stream and
the channels, and neither makes nor drops the pipeline or the timing requests.

Key definitions: `PlayerSession.Keeps`.
Key theorems: `Player.announce_cases`, `Player.setup_cases`, `Player.record_cases`,
`Player.flush_cases`, `Player.setup_of_error`, `Player.keeps_datagram`, `Player.keeps_tick`,
`Player.keeps_setParameter`.
-/
import Raop.Player.Session
import Raop.Proofs.Negotiation

namespace Raop

namespace SessionState

variable {s : SessionState} {method : Method} {allowed : List SessionState}

theorem expect_eq_ok_iff : s.expect method allowed = .ok () ↔ s ∈ allowed := by
  unfold expect
  by_cases h : s ∈ allowed <;> simp [h]

theorem expect_of_not_mem (h : s ∉ allowed) :
    s.expect method allowed = .error (.invalidState method.token s.name) := by
  simp [expect, h]

theorem mem_of_expect {u : Unit} (h : s.expect method allowed = .ok u) : s ∈ allowed :=
  expect_eq_ok_iff.mp h

end SessionState

/-- What a step keeps that does not change how far a session has come. -/
structure PlayerSession.Keeps (s s' : PlayerSession) : Prop where
  client : s'.client = s.client
  state : s'.state = s.state
  stream : s'.stream = s.stream
  pipeline : s'.pipeline.isSome = s.pipeline.isSome
  channels : s'.channels = s.channels
  timing : s'.timing.isSome = s.timing.isSome

namespace PlayerSession.Keeps

variable {s s' s'' : PlayerSession}

theorem refl (s : PlayerSession) : Keeps s s := ⟨rfl, rfl, rfl, rfl, rfl, rfl⟩

theorem trans (h : Keeps s s') (h' : Keeps s' s'') : Keeps s s'' :=
  ⟨h'.client.trans h.client, h'.state.trans h.state, h'.stream.trans h.stream,
    h'.pipeline.trans h.pipeline, h'.channels.trans h.channels, h'.timing.trans h.timing⟩

end PlayerSession.Keeps

namespace Player

@[simp] theorem session_emit (p : Player) (e : Event) : (p.emit e).session = p.session := rfl

@[simp] theorem session_update (p : Player) (f : PlayerSession → PlayerSession) :
    (p.update f).session = f p.session := rfl

@[simp] theorem session_send (p : Player) (role : Role) (data : Bytes) :
    (p.send role data).session = p.session := by
  unfold send
  split
  · rfl
  · split <;> rfl

/-! ### Work on a stream -/

/-- Requests for missing packets are sent and change nothing. -/
theorem session_foldl_send (role : Role) : ∀ (asked : List RetransmitRequest) (p : Player),
    (asked.foldl (fun p r => p.send role r.encode) p).session = p.session
  | [], _ => rfl
  | r :: rs, p => by
    rw [List.foldl_cons, session_foldl_send role rs, session_send]

theorem keeps_play (p : Player) (f : Playback → Playback) : p.session.Keeps (p.play f).session := by
  unfold play
  split
  · exact .refl _
  · rename_i pipeline hp
    simp only
    rw [session_foldl_send]
    exact ⟨rfl, rfl, rfl, by simp [hp], rfl, rfl⟩

theorem keeps_sendDue (interval : Nat) (now : Moment) : ∀ (n : Nat) (p : Player),
    p.session.Keeps (sendDue interval now n p).session
  | 0, _ => .refl _
  | n + 1, p => by
    unfold sendDue
    split
    · exact .refl _
    · rename_i t ht
      split
      · exact .refl _
      · refine PlayerSession.Keeps.trans ?_ (keeps_sendDue interval now n _)
        rw [session_update, session_send]
        exact ⟨rfl, rfl, rfl, rfl, rfl, by simp [ht]⟩

theorem keeps_tick (ctx : PlayerContext) (now : Moment) (p : Player) :
    p.session.Keeps (p.tick ctx now).session := by
  unfold tick
  split
  · exact .refl _
  · exact keeps_sendDue ..

theorem keeps_onTiming (now : Moment) (source : Endpoint) (data : Bytes) (c : Channel)
    (p : Player) : p.session.Keeps (p.onTiming now source data c).session := by
  unfold onTiming
  split
  · exact .refl _
  · split
    · exact ⟨rfl, rfl, rfl, rfl, rfl, rfl⟩
    · simp only
      split <;> exact .refl _

theorem keeps_datagram (now : Moment) (role : Role) (source : Endpoint) (data : Bytes)
    (p : Player) : p.session.Keeps (p.datagram now role source data).session := by
  unfold datagram
  split
  · exact .refl _
  · split
    · cases role
      · exact keeps_play ..
      · exact keeps_play ..
      · exact keeps_onTiming ..
    · exact .refl _

theorem keeps_applyParameters : ∀ (l : List (String × String)) (p : Player),
    p.session.Keeps (p.applyParameters l).2.session
  | [], _ => .refl _
  | (name, value) :: rest, p => by
    unfold applyParameters
    split
    · split
      · exact .refl _
      · rename_i db _
        have hk : p.session.Keeps (p.applyVolume db).session := ⟨rfl, rfl, rfl, rfl, rfl, rfl⟩
        exact hk.trans (keeps_applyParameters rest _)
    · exact keeps_applyParameters rest p

theorem keeps_setParameter (request : Request) (p : Player) :
    p.session.Keeps (p.setParameter request).2.session := by
  unfold setParameter
  split
  · exact .refl _
  · split
    · split
      · exact .refl _
      · exact keeps_applyParameters ..
    · exact .refl _

/-! ### Requests that change how far a session has come -/

theorem announce_cases (ctx : PlayerContext) (request : Request) (p : Player) :
    (∃ e, p.announce ctx request = (.error e, p)) ∨
    (∃ stream pipeline q, p.announce ctx request = (.ok {}, q) ∧
      StreamDescription.parse request.bodyText ctx.privateKey = .ok stream ∧
      Pipeline.ofStream ctx.decoders stream = .ok pipeline ∧ q.sink = p.reset.sink ∧
      q.session = { p.reset.session with
        state := .announced, stream := some stream, pipeline := some pipeline }) := by
  unfold announce
  split
  · exact Or.inl ⟨_, rfl⟩
  · split
    · exact Or.inl ⟨_, rfl⟩
    · rename_i stream hparse
      split
      · exact Or.inl ⟨_, rfl⟩
      · rename_i pipeline hpipe
        exact Or.inr ⟨stream, pipeline, _, rfl, hparse, hpipe, rfl, rfl⟩

theorem setup_cases (ctx : PlayerContext) (request : Request) (p : Player) :
    (∃ e, p.setup ctx request = (.error e, p)) ∨
    (∃ e channels, p.session.state = .announced ∧ p.setup ctx request =
      (.error e, { p with session := { p.session with channels := ChannelSet.closeAll channels } })) ∨
    (∃ value pipeline t channels hasControl, p.session.state = .announced ∧
      request.headers.transport? = some value ∧ p.session.pipeline = some pipeline ∧
      Negotiation.negotiate (ctx.opener p.session.localEnd.ip) p.session.client.ip value
        p.session.channels = (.ok t, channels) ∧
      p.setup ctx request = (.ok (setupReply t), { p with session := { p.session with
        state := .setUp, channels, pipeline := some { pipeline with hasControl } } })) := by
  unfold setup
  simp only
  split
  · exact Or.inl ⟨_, rfl⟩
  · rename_i hstate
    have hst : p.session.state = .announced := by
      simpa using SessionState.mem_of_expect hstate
    split
    · exact Or.inl ⟨_, rfl⟩
    · exact Or.inl ⟨_, rfl⟩
    · rename_i value pipeline hvalue hpipe
      split
      · exact Or.inr (Or.inl ⟨_, _, hst, rfl⟩)
      · rename_i t channels hneg
        exact Or.inr (Or.inr ⟨value, pipeline, t, channels, _, hst, hvalue, hpipe, hneg, rfl⟩)

theorem record_cases (ctx : PlayerContext) (now : Moment) (request : Request) (p : Player) :
    (∃ e, p.record ctx now request = (.error e, p)) ∨
    (∃ pipeline sink q, p.record ctx now request = (.ok {}, q) ∧ p.session.state = .setUp ∧
      p.session.pipeline = some pipeline ∧
      p.sink.start pipeline.decoder.format = .ok sink ∧ q.sink = sink ∧
      q.session = { (p.startTiming ctx now).session with state := .recording }) ∨
    (∃ q, p.record ctx now request = (.ok {}, q) ∧ p.session.state ∈ SessionState.streaming ∧
      q.sink = p.sink ∧ q.session = { p.session with state := .recording }) := by
  unfold record
  simp only
  split
  · exact Or.inl ⟨_, rfl⟩
  · next pipeline hpipe =>
    split
    · exact Or.inl ⟨_, rfl⟩
    · next hstate =>
      have hact := SessionState.mem_of_expect hstate
      by_cases hst : p.session.state = .setUp
      · rw [if_pos hst]
        cases hstart : p.sink.start pipeline.decoder.format with
        | error e =>
          simp only [Playback.start, hstart]
          exact Or.inl ⟨_, rfl⟩
        | ok sink =>
          let started := (({ p with sink } : Player).startTiming ctx now).emit .recordingStarted
          refine Or.inr (Or.inl ⟨pipeline, sink,
            started.update fun s => { s with state := .recording }, ?_, hst, hpipe, hstart, rfl, rfl⟩)
          simp only [Playback.start, hstart, hst, if_true, reduceCtorEq, if_false]
          rfl
      · have hstr : p.session.state ∈ SessionState.streaming := by
          simpa [SessionState.active, SessionState.streaming, hst] using hact
        simp only [hst, if_false]
        refine Or.inr (Or.inr ⟨_, rfl, hstr, ?_, ?_⟩) <;> split <;> rfl

theorem flush_cases (request : Request) (p : Player) :
    (∃ e, p.flush request = (.error e, p)) ∨
    (∃ q, p.flush request = (.ok {}, q) ∧ p.session.state ∈ SessionState.streaming ∧
      q.sink = (p.play Playback.flush).sink ∧
      q.session = { (p.play Playback.flush).session with state := .flushed }) := by
  unfold flush
  split
  · exact Or.inl ⟨_, rfl⟩
  · rename_i hstate
    exact Or.inr ⟨_, rfl, SessionState.mem_of_expect hstate, rfl, rfl⟩

/-! ### Refusals -/

variable {ctx : PlayerContext} {now : Moment} {request : Request} {p : Player} {e : Error}

theorem announce_of_error (h : (p.announce ctx request).1 = .error e) :
    (p.announce ctx request).2 = p := by
  rcases announce_cases ctx request p with ⟨_, hp⟩ | ⟨_, _, q, hp, -⟩
  · rw [hp]
  · simp [hp] at h

/-- A failed SETUP closes what it opened. -/
theorem setup_of_error (h : (p.setup ctx request).1 = .error e) :
    (p.setup ctx request).2 = p ∨ p.session.state = .announced ∧
      ∃ channels, (p.setup ctx request).2.session =
        { p.session with channels := ChannelSet.closeAll channels } := by
  rcases setup_cases ctx request p with
    ⟨_, hp⟩ | ⟨_, channels, hst, hp⟩ | ⟨_, _, _, _, _, -, -, -, -, hp⟩
  · rw [hp]
    exact Or.inl rfl
  · rw [hp]
    exact Or.inr ⟨hst, channels, rfl⟩
  · simp [hp] at h

theorem record_of_error (h : (p.record ctx now request).1 = .error e) :
    (p.record ctx now request).2 = p := by
  rcases record_cases ctx now request p with ⟨_, hp⟩ | ⟨_, _, q, hp, -⟩ | ⟨q, hp, -⟩
  · rw [hp]
  · simp [hp] at h
  · simp [hp] at h

theorem flush_of_error (h : (p.flush request).1 = .error e) : (p.flush request).2 = p := by
  rcases flush_cases request p with ⟨_, hp⟩ | ⟨q, hp, -⟩
  · rw [hp]
  · simp [hp] at h

end Player
end Raop
