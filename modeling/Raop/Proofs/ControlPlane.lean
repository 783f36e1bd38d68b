/-
# The control plane of a player and of a proxy

A player and a proxy are written apart. A player answers at once, checks for a
pipeline where a proxy checks the state, and starts its sink; a proxy connects
to its peers and waits for their answers. What the client can tell of either
projects onto one control plane: the state, and the channels that are
negotiated on. A request takes it to the next one (`ControlPlane.next`), which
is where the session projects to after the request (`Player.plane_handle`) or
after the turn (`Proxy.plane_turn`).

A player needs to be consistent for that: it has a pipeline just when its state
says so.

Key definitions: `ControlPlane`, `ControlPlane.setup`, `ControlPlane.next`, `AnswersSetup`,
`PlayerSession.plane`, `Proxy.plane`.
Key theorems: `Player.plane_setup`, `Player.plane_handle`, `Proxy.plane_setup`, `Proxy.plane_turn`.
-/
import Raop.Proofs.Player.Invariant
import Raop.Proofs.Proxy.Turns

namespace Raop

/-! ### The control plane -/

/-- What a client can tell of a session: how far it has come, and its channels. -/
structure ControlPlane where
  client : Endpoint
  state : SessionState
  channels : ChannelSet

/-- A SETUP is answered with what was negotiated, or with an error. -/
inductive AnswersSetup : Option Transport → Except Error Reply → Prop where
  | accepted (t : Transport) : AnswersSetup (some t) (.ok (setupReply t))
  | refused (e : Error) : AnswersSetup none (.error e)

namespace ControlPlane

variable {o : Opener ChannelSet} {request : Request} {c : ControlPlane}

/-- What a SETUP negotiates, and the channels afterwards. -/
def setup (o : Opener ChannelSet) (request : Request) (c : ControlPlane) : Option Transport × ChannelSet :=
  if c.state = .announced then
    match request.headers.transport? with
    | none => (none, c.channels)
    | some value =>
      match Negotiation.negotiate o c.client.ip value c.channels with
      | (.error _, channels) => (none, channels.closeAll)
      | (.ok t, channels) => (some t, channels)
  else (none, c.channels)

/-- The control plane once a SETUP came to this. -/
def settle (outcome : Option Transport × ChannelSet) (c : ControlPlane) : ControlPlane :=
  { c with state := if outcome.1.isSome then .setUp else c.state, channels := outcome.2 }

/-- No channel is open any more. -/
def clear (state : SessionState) (c : ControlPlane) : ControlPlane :=
  { c with state, channels := c.channels.closeAll }

/-- The state changes if it is one of these. -/
def move (allowed : List SessionState) (state : SessionState) (c : ControlPlane) : ControlPlane :=
  { c with state := if c.state ∈ allowed then state else c.state }

/-- The control plane after a request. Whether a stream can be played or passed on is not its concern:
an ANNOUNCE is accepted or not. -/
def next (accepted : Bool) (o : Opener ChannelSet) (request : Request) (c : ControlPlane) : ControlPlane :=
  match request.method with
  | .announce => if accepted then c.clear .announced else c
  | .setup => c.settle (c.setup o request)
  | .record => c.move SessionState.active .recording
  | .flush | .pause => c.move SessionState.streaming .flushed
  | .teardown => c.clear .tornDown
  | .options | .setParameter | .getParameter | .other _ => c

theorem setup_of_state_ne (h : c.state ≠ .announced) : c.setup o request = (none, c.channels) := by
  rw [setup, if_neg h]

theorem setup_of_transport_eq_none (h : request.headers.transport? = none) :
    c.setup o request = (none, c.channels) := by
  simp [setup, h]

theorem setup_of_negotiate {value : String} {outcome : Except Error Transport} {channels : ChannelSet}
    (hstate : c.state = .announced) (hvalue : request.headers.transport? = some value)
    (hneg : Negotiation.negotiate o c.client.ip value c.channels = (outcome, channels)) :
    c.setup o request =
      match outcome with
      | .error _ => (none, channels.closeAll)
      | .ok t => (some t, channels) := by
  simp only [setup, if_pos hstate, hvalue, hneg]
  cases outcome <;> rfl

end ControlPlane

/-! ### The player -/

/-- What the client can tell of a player's session. -/
def PlayerSession.plane (s : PlayerSession) : ControlPlane := ⟨s.client, s.state, s.channels⟩

namespace PlayerSession

theorem Keeps.plane {s s' : PlayerSession} (h : s.Keeps s') : s'.plane = s.plane := by
  simp only [PlayerSession.plane, h.client, h.state, h.channels]

end PlayerSession

namespace Player

variable {ctx : PlayerContext} {now : Moment} {request : Request} {p : Player}

theorem plane_announce {accepted : Bool}
    (haccepted : accepted = true ↔ ∃ reply, (p.announce ctx request).1 = .ok reply) :
    (p.announce ctx request).2.session.plane =
      if accepted then p.session.plane.clear .announced else p.session.plane := by
  rcases announce_cases ctx request p with ⟨e, hp⟩ | ⟨stream, pipeline, q, hp, -, -, -, hq⟩
  · rw [hp] at haccepted ⊢
    rw [if_neg (by simp [haccepted])]
  · rw [hp] at haccepted ⊢
    rw [if_pos (haccepted.2 ⟨_, rfl⟩), hq]
    rfl

/-- A player sets up what the control plane says: it has a pipeline once a stream was announced. -/
theorem plane_setup (h : p.session.Consistent) {outcome : Option Transport × ChannelSet}
    (houtcome : p.session.plane.setup (ctx.opener p.session.localEnd.ip) request = outcome) :
    (p.setup ctx request).2.session.plane = p.session.plane.settle outcome ∧
      AnswersSetup outcome.1 (p.setup ctx request).1 := by
  subst houtcome
  by_cases hstate : p.session.state = .announced
  · have hexpect : p.session.state.expect request.method [.announced] = .ok () :=
      SessionState.expect_eq_ok_iff.2 (by simp [hstate])
    obtain ⟨pipeline, hpipeline⟩ := Option.isSome_iff_exists.1 (h.pipeline.2 (by simp [hstate]))
    cases hvalue : request.headers.transport? with
    | none =>
      rw [ControlPlane.setup_of_transport_eq_none hvalue]
      simp only [setup, hexpect, hvalue]
      exact ⟨rfl, .refused _⟩
    | some value =>
      obtain ⟨result, channels, hneg⟩ : ∃ result channels, Negotiation.negotiate
          (ctx.opener p.session.localEnd.ip) p.session.client.ip value p.session.channels =
            (result, channels) := ⟨_, _, (Prod.eta _).symm⟩
      rw [ControlPlane.setup_of_negotiate (c := p.session.plane) hstate hvalue hneg]
      cases result with
      | error e =>
        simp only [setup, hexpect, hvalue, hpipeline, hneg]
        exact ⟨rfl, .refused e⟩
      | ok t =>
        simp only [setup, hexpect, hvalue, hpipeline, hneg]
        exact ⟨rfl, .accepted t⟩
  · rw [ControlPlane.setup_of_state_ne (c := p.session.plane) hstate]
    have hnot : p.session.state ∉ [.announced] := by simpa using hstate
    simp only [setup, SessionState.expect_of_not_mem hnot]
    exact ⟨rfl, .refused _⟩

/-- RECORD is accepted in the states that admit it, if the sink starts. -/
theorem plane_record (h : p.session.Consistent)
    (hstarts : ∀ pipeline, p.session.pipeline = some pipeline →
      ∃ sink, p.sink.start pipeline.decoder.format = .ok sink) :
    (p.record ctx now request).2.session.plane =
      p.session.plane.move SessionState.active .recording := by
  unfold ControlPlane.move
  rcases record_cases ctx now request p with
    ⟨e, hp⟩ | ⟨_, _, q, hp, hst, -, -, -, hq⟩ | ⟨q, hp, hst, -, hq⟩
  · have hnot : p.session.plane.state ∉ SessionState.active := fun hstate => by
      have hexpect : p.session.state.expect request.method SessionState.active = .ok () :=
        SessionState.expect_eq_ok_iff.2 hstate
      obtain ⟨pipeline, hpipeline⟩ :=
        Option.isSome_iff_exists.1 (h.pipeline.2 (List.mem_cons_of_mem _ hstate))
      obtain ⟨sink, hsink⟩ := hstarts pipeline hpipeline
      simp only [record, hpipeline, hexpect] at hp
      by_cases hsetUp : p.session.state = .setUp <;> simp [hsetUp, Playback.start, hsink] at hp
    rw [hp, if_neg hnot]
  · have hmem : p.session.plane.state ∈ SessionState.active := by
      simp [PlayerSession.plane, hst, SessionState.active]
    rw [hp, hq, if_pos hmem]
    rfl
  · have hmem : p.session.plane.state ∈ SessionState.active := List.mem_cons_of_mem _ hst
    rw [hp, hq, if_pos hmem]
    rfl

theorem plane_flush (request : Request) (p : Player) :
    (p.flush request).2.session.plane = p.session.plane.move SessionState.streaming .flushed := by
  unfold ControlPlane.move
  rcases flush_cases request p with ⟨e, hp⟩ | ⟨q, hp, hst, -, hq⟩
  · have hnot : p.session.plane.state ∉ SessionState.streaming := fun hstate => by
      have hexpect : p.session.state.expect request.method SessionState.streaming = .ok () :=
        SessionState.expect_eq_ok_iff.2 hstate
      simp [flush, hexpect] at hp
    rw [hp, if_neg hnot]
  · have hplane : (p.play Playback.flush).session.plane = p.session.plane :=
      (keeps_play p Playback.flush).plane
    have hmem : p.session.plane.state ∈ SessionState.streaming := hst
    rw [hp, hq, if_pos hmem, ← hplane]
    rfl

/-- **A player's control plane.** -/
theorem plane_handle (h : p.session.Consistent) {accepted : Bool}
    (haccepted : request.method = .announce →
      (accepted = true ↔ ∃ reply, (p.handle ctx now request).1 = .ok reply))
    (hstarts : request.method = .record → ∀ pipeline, p.session.pipeline = some pipeline →
      ∃ sink, p.sink.start pipeline.decoder.format = .ok sink) :
    (p.handle ctx now request).2.session.plane =
      p.session.plane.next accepted (ctx.opener p.session.localEnd.ip) request := by
  unfold handle at haccepted ⊢
  cases hm : request.method with
  | announce =>
    rw [hm] at haccepted
    simpa only [ControlPlane.next, hm] using plane_announce (haccepted rfl)
  | setup => simpa only [ControlPlane.next, hm] using (plane_setup h rfl).1
  | record => simpa only [ControlPlane.next, hm] using plane_record h (hstarts hm)
  | flush => simpa only [ControlPlane.next, hm] using plane_flush request p
  | pause => simpa only [ControlPlane.next, hm] using plane_flush request p
  | setParameter => simpa only [ControlPlane.next, hm] using (keeps_setParameter request p).plane
  | teardown =>
    simp only [ControlPlane.next, hm]
    rfl
  | options | getParameter | other token => simp only [ControlPlane.next, hm]

end Player

/-! ### The proxy -/

/-- What the client can tell of a proxy's session. -/
def Proxy.plane (p : Proxy) : ControlPlane := ⟨p.client, p.state, p.channels⟩

namespace Proxy

variable {ctx : ProxyContext} {request : Request} {reply : Reply} {p q : Proxy} {t : Turn}

theorem Steady.plane (h : p.Steady q) : q.plane = p.plane := by
  simp only [Proxy.plane, h.client, h.state, h.channels]

theorem Heading.plane (h : p.Heading request reply q) (hm : request.method ≠ .teardown)
    (hwait : q.wait = none) :
    q.plane = { p.plane with state := p.state.after request.method } := by
  obtain ⟨-, hstate, hchannels⟩ := h.ended hwait
  rw [if_neg hm] at hchannels
  simp only [Proxy.plane, h.client, hstate, hchannels]

/-- How a turn begins. -/
def begun (ctx : ProxyContext) (p : Proxy) (t : Turn) : Proxy :=
  p.ready.start (t.context ctx) t.now t.request

theorem turn_eq (ctx : ProxyContext) (p : Proxy) (t : Turn) :
    p.turn ctx t = (p.begun ctx t).meetAll ctx t.met := rfl

/-- A request that is answered at once is all of its turn. -/
theorem turn_of_begun (hbegun : p.begun ctx t = q) (hwait : q.wait = none) :
    (p.turn ctx t).plane = q.plane ∧ (p.turn ctx t).answer = q.answer := by
  have hsteady := (steady_meetAll ctx t.met hwait).1
  rw [turn_eq, hbegun]
  exact ⟨hsteady.plane, hsteady.answer⟩

/-- What a turn began with is where it ends. -/
theorem turn_of_heading (hbegun : q.Heading t.request reply (p.begun ctx t))
    (hover : (p.turn ctx t).wait = none) (hm : t.request.method ≠ .teardown) :
    (p.turn ctx t).plane = { q.plane with state := q.state.after t.request.method } ∧
      (p.turn ctx t).answer = some (.ok reply) := by
  have hturn : q.Heading t.request reply (p.turn ctx t) := hbegun.meetAll ctx t.met
  exact ⟨hturn.plane hm hover, (hturn.ended hover).1⟩

/-- A stream that is announced replaces the one before. -/
theorem plane_announce (hwait : p.wait = none) (hm : t.request.method = .announce)
    (hover : (p.turn ctx t).wait = none) {accepted : Bool}
    (haccepted : accepted = true ↔ ∃ reply, (p.turn ctx t).answer = some (.ok reply)) :
    (p.turn ctx t).plane = if accepted then p.plane.clear .announced else p.plane := by
  have hnot : t.request.method ≠ .teardown := by simp [hm]
  have hreset (hbegun : p.ready.reset.Heading t.request {} (p.begun ctx t)) :
      (p.turn ctx t).plane = if accepted then p.plane.clear .announced else p.plane := by
    obtain ⟨hplane, hanswer⟩ := turn_of_heading hbegun hover hnot
    rw [if_pos (haccepted.2 ⟨_, hanswer⟩), hplane, hm]
    rfl
  have hbegins := begins_start (t.context ctx) t.now t.request p.ready
  generalize hbegun : p.ready.start (t.context ctx) t.now t.request = q at hbegins
  cases hbegins with
  | refused e =>
    obtain ⟨hplane, hanswer⟩ := turn_of_begun (q := p.ready.refuse e) hbegun hwait
    have hrefused : accepted ≠ true := fun h => by
      obtain ⟨reply, hok⟩ := haccepted.1 h
      simp [hanswer, refuse] at hok
    rw [if_neg hrefused, hplane]
    rfl
  | undone e channels hm' => simp [hm] at hm'
  | told reply hm' => simp [hm, Method.isPassedOn] at hm'
  | connects deadline =>
    refine hreset ⟨?_, Or.inr ⟨?_, ?_, Or.inr ⟨rfl, ?_⟩⟩⟩ <;> rw [begun, hbegun]
    · rfl
    · rfl
    · rfl
    · exact ⟨_, _, _, rfl⟩
  | announces =>
    refine hreset ?_
    rw [begun, hbegun]
    exact heading_announceTo rfl rfl rfl _ t.now []
  | setsUp _ _ _ hm' => simp [hm] at hm'
  | passesOn volume _ hstream => exact absurd hm hstream.1

/-- The channels to the client are set up as the control plane says; the peers have no part in it. -/
theorem plane_setup (hwait : p.wait = none) (hm : t.request.method = .setup)
    (hover : (p.turn ctx t).wait = none) {outcome : Option Transport × ChannelSet}
    (houtcome : p.plane.setup (ChannelSet.opener t.binder ctx.config.localPorts p.localEnd.ip) t.request =
      outcome) :
    (p.turn ctx t).plane = p.plane.settle outcome ∧
      ∃ answer, (p.turn ctx t).answer = some answer ∧ AnswersSetup outcome.1 answer := by
  have hbegun : p.begun ctx t = p.ready.setup (t.context ctx) t.now t.request := by
    simp only [begun, start, hm]
  by_cases hstate : p.ready.state = .announced
  · have hexpect : p.ready.state.expect t.request.method [.announced] = .ok () :=
      SessionState.expect_eq_ok_iff.2 (by simp [hstate])
    cases hvalue : t.request.headers.transport? with
    | none =>
      obtain rfl := houtcome.symm.trans (ControlPlane.setup_of_transport_eq_none hvalue)
      simp only [setup, hexpect, hvalue] at hbegun
      obtain ⟨hplane, hanswer⟩ := turn_of_begun hbegun hwait
      exact ⟨hplane, _, hanswer, .refused _⟩
    | some value =>
      obtain ⟨result, channels, hneg⟩ : ∃ result channels, Negotiation.negotiate
          (ChannelSet.opener (t.context ctx).binder (t.context ctx).config.localPorts p.ready.localEnd.ip)
            p.ready.client.ip value p.ready.channels = (result, channels) := ⟨_, _, (Prod.eta _).symm⟩
      obtain rfl :=
        houtcome.symm.trans (ControlPlane.setup_of_negotiate (c := p.plane) hstate hvalue hneg)
      cases result with
      | error e =>
        have hrefused : p.begun ctx t = { p.ready with channels := channels.closeAll }.refuse e := by
          simp only [hbegun, setup, hexpect, hvalue, hneg]
        obtain ⟨hplane, hanswer⟩ := turn_of_begun hrefused hwait
        exact ⟨hplane, _, hanswer, .refused e⟩
      | ok transport =>
        have hhead : ({ p with channels } : Proxy).Heading t.request (setupReply transport)
            (p.begun ctx t) := by
          rw [hbegun, setup_of_negotiate (p := p.ready) hm hstate hvalue hneg]
          exact heading_await (p := { p with channels })
            (q := p.ready.setUpPeers (t.context ctx) t.request channels) rfl rfl rfl _ t.now
        obtain ⟨hplane, hanswer⟩ := turn_of_heading hhead hover (by simp [hm])
        refine ⟨?_, _, hanswer, .accepted transport⟩
        rw [hplane, hm]
        rfl
  · obtain rfl := houtcome.symm.trans (ControlPlane.setup_of_state_ne (c := p.plane) hstate)
    have hnot : p.ready.state ∉ [.announced] := by simpa using hstate
    simp only [setup, SessionState.expect_of_not_mem hnot] at hbegun
    obtain ⟨hplane, hanswer⟩ := turn_of_begun hbegun hwait
    exact ⟨hplane, _, hanswer, .refused _⟩

/-- A request that the state admits is passed on; in other states nothing happens. -/
theorem plane_replicateIn {allowed : List SessionState} (hwait : p.wait = none)
    (hm : t.request.method ≠ .teardown)
    (hbegun : p.begun ctx t = p.ready.replicateIn (t.context ctx) t.now allowed t.request)
    (hover : (p.turn ctx t).wait = none) :
    (p.turn ctx t).plane = p.plane.move allowed (p.state.after t.request.method) := by
  unfold ControlPlane.move
  by_cases hstate : p.state ∈ allowed
  · have hexpect : p.ready.state.expect t.request.method allowed = .ok () :=
      SessionState.expect_eq_ok_iff.2 hstate
    have hhead : p.Heading t.request {} (p.begun ctx t) := by
      simp only [hbegun, replicateIn, hexpect]
      exact heading_replicate (p := p) (q := p.ready) rfl rfl rfl _ t.now
    rw [if_pos (show p.plane.state ∈ allowed from hstate)]
    exact (turn_of_heading hhead hover hm).1
  · simp only [replicateIn, SessionState.expect_of_not_mem (s := p.ready.state) hstate] at hbegun
    rw [if_neg (show p.plane.state ∉ allowed from hstate)]
    exact (turn_of_begun hbegun hwait).1

/-- The peers are told to tear down, and then nothing is left. -/
theorem plane_teardown (hm : t.request.method = .teardown) (hover : (p.turn ctx t).wait = none) :
    (p.turn ctx t).plane = p.plane.clear .tornDown := by
  have hhead : p.Heading t.request {} (p.begun ctx t) := by
    simp only [begun, start, hm]
    exact heading_replicate (p := p) (q := p.ready) rfl rfl rfl _ t.now
  have hturn : p.Heading t.request {} (p.turn ctx t) := hhead.meetAll ctx t.met
  obtain ⟨-, hstate, hchannels⟩ := hturn.ended hover
  rw [hm] at hstate
  rw [if_pos hm] at hchannels
  simp only [plane, hturn.client, hstate, hchannels]
  rfl

/-- Of the rest nothing changes what the client can tell of the session. -/
theorem plane_rest (hwait : p.wait = none) (hm : t.request.method.isPassedOn = false ∨
      t.request.method = .setParameter) (hover : (p.turn ctx t).wait = none) :
    (p.turn ctx t).plane = p.plane := by
  have hbegins := begins_start (t.context ctx) t.now t.request p.ready
  generalize hbegun : p.ready.start (t.context ctx) t.now t.request = q at hbegins
  cases hbegins with
  | refused e => exact (turn_of_begun hbegun hwait).1
  | undone e channels hm' => simp [hm', Method.isPassedOn] at hm
  | told reply => exact (turn_of_begun hbegun hwait).1
  | connects deadline hm' => simp [hm', Method.isPassedOn] at hm
  | announces hm' => simp [hm', Method.isPassedOn] at hm
  | setsUp _ _ _ hm' => simp [hm', Method.isPassedOn] at hm
  | passesOn volume hpassed =>
    have hm' : t.request.method = .setParameter := by simpa [hpassed] using hm
    have hhead : p.Heading t.request {} (p.begun ctx t) := by
      rw [begun, hbegun]
      exact heading_replicate (p := p) (q := { p.ready with volume }) rfl rfl rfl _ t.now
    obtain ⟨hplane, -⟩ := turn_of_heading hhead hover (by simp [hm'])
    rw [hplane, hm']
    rfl

/-- **A proxy's control plane**, once the turn is over. -/
theorem plane_turn (hwait : p.wait = none) (hover : (p.turn ctx t).wait = none) {accepted : Bool}
    (haccepted : t.request.method = .announce →
      (accepted = true ↔ ∃ reply, (p.turn ctx t).answer = some (.ok reply))) :
    (p.turn ctx t).plane = p.plane.next accepted
      (ChannelSet.opener t.binder ctx.config.localPorts p.localEnd.ip) t.request := by
  have hin {allowed : List SessionState} (hne : t.request.method ≠ .teardown)
      (hbegun : p.begun ctx t = p.ready.replicateIn (t.context ctx) t.now allowed t.request) :=
    plane_replicateIn hwait hne hbegun hover
  cases hm : t.request.method with
  | announce => simpa only [ControlPlane.next, hm] using plane_announce hwait hm hover (haccepted hm)
  | setup => simpa only [ControlPlane.next, hm] using (plane_setup hwait hm hover rfl).1
  | record =>
    simpa only [ControlPlane.next, hm, SessionState.after] using
      hin (by simp [hm]) (by simp only [begun, start, hm])
  | flush =>
    simpa only [ControlPlane.next, hm, SessionState.after] using
      hin (by simp [hm]) (by simp only [begun, start, hm])
  | pause =>
    simpa only [ControlPlane.next, hm, SessionState.after] using
      hin (by simp [hm]) (by simp only [begun, start, hm])
  | teardown => simpa only [ControlPlane.next, hm] using plane_teardown hm hover
  | setParameter => simpa only [ControlPlane.next, hm] using plane_rest hwait (Or.inr hm) hover
  | options | getParameter | other token =>
    simpa only [ControlPlane.next, hm] using plane_rest hwait (Or.inl (by rw [hm]; rfl)) hover

end Proxy

end Raop
