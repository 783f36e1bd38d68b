/-
# A player and a proxy in lockstep

A player and a proxy are told the same requests of one client. If both accept
an ANNOUNCE or both refuse it, if the sink starts, and if channels open alike
in both, then both are in the same state after every request, and answer each
SETUP alike (`Lockstep.in_step`).

Both have the same control plane (`Aligned`), and it goes on the same with two
openers that open alike, since what is negotiated depends on nothing else
(`alike_negotiate`). The proxy's turn may take as long as it likes; it is over
at last.

Key definitions: `Negotiation.Alike`, `JointTurn`, `JointTurn.Admitted`, `Lockstep`, `Aligned`.
Key theorems: `Negotiation.alike_negotiate`, `Aligned.request`, `Aligned.setup`, `Lockstep.in_step`.
-/
import Raop.Proofs.ControlPlane
import Raop.Proofs.Proxy.PeerRecord

namespace Raop

/-! ### Negotiating alike -/

namespace Negotiation

variable {α σ : Type} {o o' : Opener σ}

/-- Two outcomes are the same, but for what an error says. -/
inductive Alike : Except Error α × σ → Except Error α × σ → Prop where
  | ok (a : α) (s : σ) : Alike (.ok a, s) (.ok a, s)
  | error (e e' : Error) (s : σ) : Alike (.error e, s) (.error e', s)

/-- Channels are opened alike, with the same ports. -/
def OpensAlike (o o' : Opener σ) : Prop := ∀ role remote s, Alike (o role remote s) (o' role remote s)

theorem Alike.refl (x : Except Error α × σ) : Alike x x := by
  rcases x with ⟨e | a, s⟩
  · exact .error e e s
  · exact .ok a s

theorem alike_answerOption (h : OpensAlike o o') (client : IpAddress) (option : TransportOption) (s : σ) :
    Alike (answerOption o client option s) (answerOption o' client option s) := by
  unfold answerOption
  split
  · next role _ =>
    split
    · exact .refl _
    · next port _ =>
      have hopen := h role (some ⟨client, port⟩) s
      generalize o role (some ⟨client, port⟩) s = x at hopen ⊢
      generalize o' role (some ⟨client, port⟩) s = y at hopen ⊢
      cases hopen with
      | ok localPort s => exact .ok _ s
      | error e e' s => exact .error e e' s
  · exact .refl _

theorem alike_answerOptions (h : OpensAlike o o') (client : IpAddress) :
    ∀ (options : List TransportOption) (s : σ),
      Alike (answerOptions o client options s) (answerOptions o' client options s)
  | [], s => .ok [] s
  | option :: options, s => by
    have hfirst := alike_answerOption h client option s
    unfold answerOptions
    generalize answerOption o client option s = x at hfirst ⊢
    generalize answerOption o' client option s = y at hfirst ⊢
    cases hfirst with
    | error e e' s => exact .error e e' s
    | ok a s =>
      have hrest := alike_answerOptions h client options s
      simp only
      generalize answerOptions o client options s = x at hrest ⊢
      generalize answerOptions o' client options s = y at hrest ⊢
      cases hrest with
      | error e e' s => exact .error e e' s
      | ok as s => exact .ok _ s

/-- **What is negotiated depends on how channels open, and on nothing else.** -/
theorem alike_negotiate (h : OpensAlike o o') (client : IpAddress) (value : String) (s : σ) :
    Alike (negotiate o client value s) (negotiate o' client value s) := by
  unfold negotiate
  split
  · exact .refl _
  · next sent _ =>
    have hoptions := alike_answerOptions h client sent.options s
    generalize answerOptions o client sent.options s = x at hoptions ⊢
    generalize answerOptions o' client sent.options s = y at hoptions ⊢
    cases hoptions with
    | error e e' s => exact .error e e' s
    | ok options s =>
      have haudio := h .audio none s
      simp only
      generalize o .audio none s = x at haudio ⊢
      generalize o' .audio none s = y at haudio ⊢
      cases haudio with
      | error e e' s => exact .error e e' s
      | ok port s => exact .ok _ s

/-- Sockets that are bound alike open channels alike. -/
theorem opensAlike_of_binder {binder binder' : Binder} {ports ports' : RtpPorts} {ip ip' : IpAddress}
    (h : ∀ n role remote port, binder n role ⟨ip, ports.ofRole role⟩ remote = .ok port ↔
      binder' n role ⟨ip', ports'.ofRole role⟩ remote = .ok port) :
    OpensAlike (ChannelSet.opener binder ports ip) (ChannelSet.opener binder' ports' ip') := by
  intro role remote s
  have hbound := h (s.closeRole role).attempts role remote
  unfold ChannelSet.opener ChannelSet.openRole
  simp only
  cases hb : binder (s.closeRole role).attempts role ⟨ip, ports.ofRole role⟩ remote with
  | ok port =>
    rw [(hbound port).1 hb]
    exact .ok _ _
  | error e =>
    cases hb' : binder' (s.closeRole role).attempts role ⟨ip', ports'.ofRole role⟩ remote with
    | ok port =>
      rw [(hbound port).2 hb'] at hb
      cases hb
    | error e' => exact .error e e' _

end Negotiation

namespace ControlPlane

variable {o o' : Opener ChannelSet}

theorem setup_congr (h : Negotiation.OpensAlike o o') (request : Request) (c : ControlPlane) :
    c.setup o request = c.setup o' request := by
  unfold setup
  split
  · split
    · rfl
    · next value _ =>
      have halike := Negotiation.alike_negotiate h c.client.ip value c.channels
      generalize Negotiation.negotiate o c.client.ip value c.channels = x at halike ⊢
      generalize Negotiation.negotiate o' c.client.ip value c.channels = y at halike ⊢
      cases halike <;> rfl
  · rfl

theorem next_congr (h : Negotiation.OpensAlike o o') (accepted : Bool) (request : Request)
    (c : ControlPlane) : c.next accepted o request = c.next accepted o' request := by
  simp only [next, setup_congr h]

end ControlPlane

/-! ### In step -/

/-- A request to both: the proxy's turn, and what the player answers it with. -/
structure JointTurn where
  turn : Proxy.Turn
  binder : Binder
  now : Moment
  sink : Sink
  output : List Output

namespace JointTurn

/-- What both are asked. -/
def request (t : JointTurn) : Request := t.turn.request

/-- What the player answers, and the player afterwards. -/
def player (ctx : PlayerContext) (s : PlayerSession) (t : JointTurn) : Except Error Reply × Player :=
  Player.handle { ctx with binder := t.binder } t.now t.request ⟨s, t.sink, t.output⟩

/-- An ANNOUNCE is accepted by both or by neither, the sink starts, channels open alike, and the proxy's
turn is over. -/
structure Admitted (pctx : PlayerContext) (xctx : ProxyContext) (s : PlayerSession) (q : Proxy)
    (t : JointTurn) : Prop where
  announce : t.request.method = .announce →
    ((∃ reply, (t.player pctx s).1 = .ok reply) ↔ ∃ reply, (q.turn xctx t.turn).answer = some (.ok reply))
  starts : t.request.method = .record → ∀ pipeline, s.pipeline = some pipeline →
    ∃ sink, t.sink.start pipeline.decoder.format = .ok sink
  opens : ∀ n role remote port,
    t.binder n role ⟨s.localEnd.ip, pctx.ports.ofRole role⟩ remote = .ok port ↔
      t.turn.binder n role ⟨q.localEnd.ip, xctx.config.localPorts.ofRole role⟩ remote = .ok port
  ended : (q.turn xctx t.turn).wait = none

end JointTurn

/-- Sessions of a player and of a proxy that were told the same requests of one client. Between the
requests either meets what it may. -/
inductive Lockstep (pctx : PlayerContext) (xctx : ProxyContext) : PlayerSession → Proxy → Prop where
  | start (client localEnd localEnd' : Endpoint) :
      Lockstep pctx xctx { client, localEnd } (Proxy.ofClient xctx client localEnd')
  | request {s : PlayerSession} {q : Proxy} (h : Lockstep pctx xctx s q) (t : JointTurn)
      (admitted : t.Admitted pctx xctx s q) :
      Lockstep pctx xctx (t.player pctx s).2.session (q.turn xctx t.turn)
  | datagram {s : PlayerSession} {q : Proxy} (h : Lockstep pctx xctx s q) (now : Moment) (role : Role)
      (source : Endpoint) (data : Bytes) (sink : Sink) (output : List Output) :
      Lockstep pctx xctx (Player.datagram now role source data ⟨s, sink, output⟩).session q
  | tick {s : PlayerSession} {q : Proxy} (h : Lockstep pctx xctx s q) (now : Moment) (sink : Sink)
      (output : List Output) : Lockstep pctx xctx (Player.tick pctx now ⟨s, sink, output⟩).session q
  | met {s : PlayerSession} {q : Proxy} (h : Lockstep pctx xctx s q) (o : Proxy.Occurrence) :
      Lockstep pctx xctx s (q.meet xctx o)

/-- The two have one control plane, and nothing is waited for. -/
structure Aligned (s : PlayerSession) (q : Proxy) : Prop where
  plane : s.plane = q.plane
  consistent : s.Consistent
  wait : q.wait = none

section

variable {pctx : PlayerContext} {xctx : ProxyContext} {s : PlayerSession} {q : Proxy} {t : JointTurn}

theorem JointTurn.Admitted.opensAlike (ha : t.Admitted pctx xctx s q) :
    Negotiation.OpensAlike (PlayerContext.opener { pctx with binder := t.binder } s.localEnd.ip)
      (ChannelSet.opener t.turn.binder xctx.config.localPorts q.localEnd.ip) :=
  Negotiation.opensAlike_of_binder ha.opens

/-- A request keeps both in step. -/
theorem Aligned.request (h : Aligned s q) (ha : t.Admitted pctx xctx s q) :
    Aligned (t.player pctx s).2.session (q.turn xctx t.turn) := by
  obtain ⟨accepted, haccepted⟩ : ∃ accepted : Bool,
      accepted = true ↔ ∃ reply, (t.player pctx s).1 = .ok reply := by
    cases hanswer : (t.player pctx s).1 with
    | ok reply => exact ⟨true, by simp⟩
    | error e => exact ⟨false, by simp⟩
  have hplayer : (t.player pctx s).2.session.plane = _ :=
    Player.plane_handle (p := ⟨s, t.sink, t.output⟩) h.consistent (fun _ => haccepted) ha.starts
  have hproxy : (q.turn xctx t.turn).plane = _ :=
    Proxy.plane_turn h.wait ha.ended fun hm => haccepted.trans (ha.announce hm)
  refine ⟨?_, h.consistent.handle (p := ⟨s, t.sink, t.output⟩), ha.ended⟩
  calc (t.player pctx s).2.session.plane
      = s.plane.next accepted _ t.request := hplayer
    _ = s.plane.next accepted _ t.request := ControlPlane.next_congr ha.opensAlike accepted t.request _
    _ = q.plane.next accepted _ t.request := by rw [h.plane]
    _ = (q.turn xctx t.turn).plane := hproxy.symm

/-- A SETUP is answered alike. -/
theorem Aligned.setup (h : Aligned s q) (ha : t.Admitted pctx xctx s q) (hm : t.request.method = .setup) :
    (∃ transport, (t.player pctx s).1 = .ok (setupReply transport) ∧
        (q.turn xctx t.turn).answer = some (.ok (setupReply transport))) ∨
      ∃ e e', (t.player pctx s).1 = .error e ∧ (q.turn xctx t.turn).answer = some (.error e') := by
  have hhandle : (t.player pctx s).1 =
      (Player.setup { pctx with binder := t.binder } t.request ⟨s, t.sink, t.output⟩).1 := by
    simp only [JointTurn.player, Player.handle, hm]
  obtain ⟨outcome, houtcome⟩ : ∃ outcome, s.plane.setup
      (PlayerContext.opener { pctx with binder := t.binder } s.localEnd.ip) t.request = outcome :=
    ⟨_, rfl⟩
  obtain ⟨-, hplayer⟩ := Player.plane_setup (p := ⟨s, t.sink, t.output⟩) h.consistent houtcome
  rw [ControlPlane.setup_congr ha.opensAlike, h.plane] at houtcome
  obtain ⟨-, answer, hanswer, hproxy⟩ := Proxy.plane_setup h.wait hm ha.ended houtcome
  rw [← hhandle] at hplayer
  rw [hanswer]
  generalize (t.player pctx s).1 = answer' at hplayer ⊢
  generalize outcome.1 = transport at hplayer hproxy
  cases hplayer with
  | accepted transport =>
    cases hproxy with
    | accepted => exact Or.inl ⟨transport, rfl, rfl⟩
  | refused e =>
    cases hproxy with
    | refused e' => exact Or.inr ⟨e, e', rfl, rfl⟩

theorem Lockstep.aligned (h : Lockstep pctx xctx s q) : Aligned s q := by
  induction h with
  | start client localEnd localEnd' => exact ⟨rfl, .fresh client localEnd, rfl⟩
  | request _ t admitted ih => exact ih.request admitted
  | @datagram s q _ now role source data sink output ih =>
    have hkeeps := Player.keeps_datagram now role source data ⟨s, sink, output⟩
    exact ⟨hkeeps.plane.trans ih.plane, ih.consistent.of_keeps hkeeps, ih.wait⟩
  | @tick s q _ now sink output ih =>
    have hkeeps := Player.keeps_tick pctx now ⟨s, sink, output⟩
    exact ⟨hkeeps.plane.trans ih.plane, ih.consistent.of_keeps hkeeps, ih.wait⟩
  | met _ o ih =>
    obtain ⟨hsteady, hwait⟩ := Proxy.steady_meet xctx ih.wait o
    exact ⟨ih.plane.trans hsteady.plane.symm, ih.consistent, hwait⟩

/-- **A player and a proxy are in step.** Told the same requests of one client, they are in the same state
after every request, as they were before it, and answer a SETUP with the same reply or both with an
error: if both accept an ANNOUNCE or both refuse it, if the sink starts, and if channels open alike. The
proxy's turn is over at last, whatever was met in it. -/
theorem Lockstep.in_step (h : Lockstep pctx xctx s q) :
    s.state = q.state ∧
      (∀ turn : Proxy.Turn, ∃ later : List Proxy.Occurrence,
        (q.turn xctx { turn with met := turn.met ++ later }).wait = none) ∧
      ∀ t : JointTurn, t.Admitted pctx xctx s q →
        (t.player pctx s).2.session.state = (q.turn xctx t.turn).state ∧
          (t.request.method = .setup →
            (∃ transport, (t.player pctx s).1 = .ok (setupReply transport) ∧
                (q.turn xctx t.turn).answer = some (.ok (setupReply transport))) ∨
              ∃ e e', (t.player pctx s).1 = .error e ∧
                (q.turn xctx t.turn).answer = some (.error e')) := by
  refine ⟨congrArg ControlPlane.state h.aligned.plane, fun turn => ?_, fun _ ha => ?_⟩
  · obtain ⟨later, hlater⟩ := Proxy.exists_ticks xctx (q.turn xctx turn)
    refine ⟨later, ?_⟩
    rwa [Proxy.turn, Proxy.meetAll, List.foldl_append]
  · exact ⟨congrArg ControlPlane.state (h.aligned.request ha).plane, h.aligned.setup ha⟩

end

open PlayerSession (plainContext afterAnnounce)
open Proxy (peeredContext peeredAnnounce peeredSetup peeredAnnounced)

/-- A turn of a player and of a proxy with one peer, in which every channel opens. -/
def peeredJoint (turn : Proxy.Turn) : JointTurn := ⟨turn, peeredContext.binder, default, {}, []⟩

/-- Both heard of a stream, and then of a transport. -/
theorem in_step_peeredSetup :
    Lockstep plainContext peeredContext afterAnnounce peeredAnnounced ∧
      (peeredJoint peeredSetup).Admitted plainContext peeredContext afterAnnounce peeredAnnounced ∧
      ((peeredJoint peeredSetup).player plainContext afterAnnounce).2.session.state = .setUp ∧
      (peeredAnnounced.turn peeredContext peeredSetup).state = .setUp ∧
      ∃ transport,
        ((peeredJoint peeredSetup).player plainContext afterAnnounce).1 = .ok (setupReply transport) ∧
        (peeredAnnounced.turn peeredContext peeredSetup).answer =
          some (.ok (setupReply transport)) := by
  have hrun : ((peeredJoint peeredAnnounce).player plainContext
        { client := default, localEnd := default }).1 = .ok {} ∧
      peeredAnnounced.answer.bind Except.toOption = some {} ∧ peeredAnnounced.wait.isNone = true ∧
      (peeredAnnounced.turn peeredContext peeredSetup).wait.isNone = true ∧
      ((peeredJoint peeredSetup).player plainContext afterAnnounce).2.session.state = .setUp ∧
      ((peeredJoint peeredSetup).player plainContext afterAnnounce).1.toOption.isSome = true := by
    decide +kernel
  obtain ⟨hplayer, hproxy, hannounced, hover, hstate, hanswer⟩ := hrun
  have hannounce : (peeredJoint peeredAnnounce).Admitted plainContext peeredContext
      { client := default, localEnd := default } (Proxy.ofClient peeredContext default default) := by
    refine ⟨fun _ => ⟨fun _ => ?_, fun _ => ⟨_, hplayer⟩⟩, fun hm => absurd hm (by decide),
      fun _ _ _ _ => Iff.rfl, Option.isNone_iff_eq_none.1 hannounced⟩
    change ∃ reply, peeredAnnounced.answer = some (.ok reply)
    rcases h : peeredAnnounced.answer with _ | e | reply
    · simp [h] at hproxy
    · simp [h, Except.toOption] at hproxy
    · exact ⟨reply, rfl⟩
  have hsetup : (peeredJoint peeredSetup).Admitted plainContext peeredContext afterAnnounce
      peeredAnnounced :=
    ⟨fun hm => absurd hm (by decide), fun hm => absurd hm (by decide), fun _ _ _ _ => Iff.rfl,
      Option.isNone_iff_eq_none.1 hover⟩
  have hlock : Lockstep plainContext peeredContext afterAnnounce peeredAnnounced :=
    .request (.start default default default) (peeredJoint peeredAnnounce) hannounce
  obtain ⟨-, -, hstep⟩ := hlock.in_step
  obtain ⟨hsame, halike⟩ := hstep (peeredJoint peeredSetup) hsetup
  refine ⟨hlock, hsetup, hstate, hsame.symm.trans hstate, ?_⟩
  rcases halike rfl with haccepted | ⟨e, _, he, -⟩
  · exact haccepted
  · simp [he, Except.toOption] at hanswer

end Raop
