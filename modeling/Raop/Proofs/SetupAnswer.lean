/-
# The answer to a SETUP and the channels of the session

A player answers a SETUP at once, a proxy when its peers have answered. Either
way the answer is what was negotiated, and the session has the channels of the
negotiation when the response is written. So the last option of each port key
names an open channel of its role.

An option in front of another one of its key names what was open before the
other one was served: a control port asked for twice is answered with two
ports, of which the first is closed again, and a server port that the sender
put in is echoed. All ports that are named are open just if the options of one
key have one value.

Key definitions: `SetupAccepted`.
Key theorems: `Connection.transport?_respond`, `SetupAccepted.negotiated`,
`SetupAccepted.open_ports_of_response`.
-/
import Raop.Connection
import Raop.Proofs.Player.Invariant
import Raop.Proofs.Proxy.Run

namespace Raop

namespace Connection

/-- What a connection adds to a reply leaves its status and its transport alone. -/
theorem transport?_respond (conn : ConnectionContext) (ip : IpAddress) (request : Request)
    (reply : Reply) :
    (respond conn ip request (.ok reply)).status = reply.status ∧
      (respond conn ip request (.ok reply)).headers.transport? = reply.headers.transport? := by
  have hfield {r : Reply} {name value : String} (hne : foldCase name ≠ foldCase "Transport") :
      (r.withHeader name value).headers.transport? = r.headers.transport? :=
    Headers.get?_insert_of_ne hne
  have hoptional (r : Reply) {name : String} (value : Option String)
      (hne : foldCase name ≠ foldCase "Transport") :
      (withOptional r name value).status = r.status ∧
        (withOptional r name value).headers.transport? = r.headers.transport? := by
    cases value with
    | none => exact ⟨rfl, rfl⟩
    | some v => exact ⟨rfl, hfield hne⟩
  have hfinish (r : Reply) : r.toResponse.headers.transport? = r.headers.transport? := by
    unfold Reply.toResponse
    split
    · exact Headers.get?_insert_of_ne (by decide)
    · rfl
  have hcseq : foldCase "CSeq" ≠ foldCase "Transport" := by decide
  have hresponse : foldCase "Apple-Response" ≠ foldCase "Transport" := by decide
  constructor
  · exact (hoptional _ _ hresponse).1.trans (hoptional _ _ hcseq).1
  · calc (respond conn ip request (.ok reply)).headers.transport?
        = (withOptional (withOptional (decorate conn reply) "CSeq" (request.headers.get? "CSeq"))
            "Apple-Response" (challengeAnswer? conn ip request)).headers.transport? := hfinish _
      _ = (withOptional (decorate conn reply) "CSeq" (request.headers.get? "CSeq")).headers.transport? :=
        (hoptional _ _ hresponse).2
      _ = (decorate conn reply).headers.transport? := (hoptional _ _ hcseq).2
      _ = (reply.withHeader "Server" conn.server).headers.transport? := hfield (by decide)
      _ = reply.headers.transport? := hfield (by decide)

end Connection

/-- A session that can come about answers a SETUP with a reply, and then has these channels. A proxy
may have met anything between the request and the answer. -/
inductive SetupAccepted (request : Request) (reply : Reply) : ChannelSet → Prop where
  | player {ctx : PlayerContext} {s : PlayerSession} (reachable : PlayerSession.Reachable ctx s)
      (binder : Binder) (now : Moment) (sink : Sink) (output : List Output)
      (method : request.method = .setup)
      (answer : (Player.handle { ctx with binder } now request ⟨s, sink, output⟩).1 = .ok reply) :
      SetupAccepted request reply
        (Player.handle { ctx with binder } now request ⟨s, sink, output⟩).2.session.channels
  | proxy {ctx : ProxyContext} {p : Proxy} (reachable : Proxy.Reachable ctx p)
      (wait : p.wait = none) (free : p.answer = none) (binder : Binder)
      (peerBinder : Nat → Binder) (now : Moment) (met : List Proxy.Occurrence)
      (method : request.method = .setup)
      (answer : ((p.start { ctx with binder, peerBinder } now request).meetAll
        { ctx with binder, peerBinder } met).answer = some (.ok reply)) :
      SetupAccepted request reply ((p.start { ctx with binder, peerBinder } now request).meetAll
        { ctx with binder, peerBinder } met).channels

namespace SetupAccepted

variable {request : Request} {reply : Reply} {channels : ChannelSet}

/-- A SETUP that is accepted is answered with what was negotiated. -/
theorem negotiated (h : SetupAccepted request reply channels) :
    ∃ value sent answer, request.headers.transport? = some value ∧
      Transport.parse value = .ok sent ∧ reply = setupReply answer ∧
      Negotiation.Answered sent answer channels := by
  cases h with
  | @player ctx s reachable binder now sink output method answer =>
    have hsetup : Player.handle { ctx with binder } now request ⟨s, sink, output⟩ =
        Player.setup { ctx with binder } request ⟨s, sink, output⟩ := by
      unfold Player.handle
      rw [method]
    rw [hsetup] at answer ⊢
    rcases Player.setup_cases { ctx with binder } request ⟨s, sink, output⟩ with
      ⟨e, hp⟩ | ⟨e, cs, -, hp⟩ | ⟨value, _, t, cs, _, hst, hvalue, -, hneg, hp⟩
    · rw [hp] at answer
      cases answer
    · rw [hp] at answer
      cases answer
    · rw [hp] at answer ⊢
      have hstate : s.state = .announced := hst
      have hnone : s.channels.entries = [] := reachable.consistent.noChannels (by simp [hstate])
      obtain ⟨sent, hsent, hanswered⟩ :=
        Negotiation.negotiate_eq_ok (ChannelSet.distinct_of_entries_eq_nil hnone) hneg
      exact ⟨value, sent, t, hvalue, hsent, (Except.ok.inj answer).symm, hanswered⟩
  | proxy reachable wait free binder peerBinder now met method answer =>
    obtain ⟨value, t, cs, hvalue, hneg, hreply, hcs⟩ :=
      Proxy.setup_of_answer method wait free answer
    obtain ⟨sent, hsent, hanswered⟩ := Negotiation.negotiate_eq_ok reachable.distinct hneg
    exact ⟨value, sent, t, hvalue, hsent, hreply, hcs ▸ hanswered⟩

/-- **Which ports of a response are open.** The response to a SETUP has the options that were sent, and
the server port behind them. Of the options of one port key the last one names an open channel of its
role, and all of them do just if they have one value; so they do if the sender asks for no port twice
and puts in no server port. -/
theorem open_ports_of_response (h : SetupAccepted request reply channels)
    (conn : ConnectionContext) (ip : IpAddress) :
    ∃ value sent answer, request.headers.transport? = some value ∧
      Transport.parse value = .ok sent ∧
      (Connection.respond conn ip request (.ok reply)).status = .ok ∧
      (Connection.respond conn ip request (.ok reply)).headers.transport? = some answer.render ∧
      Transport.parse answer.render = .ok answer ∧
      answer.options.map (·.key) = sent.options.map (·.key) ++ [Transport.serverPort] ∧
      (∀ key a, Negotiation.lastOf key answer.options = some a → channels.Names a) ∧
      ((∀ a ∈ answer.options, channels.Names a) ↔ Negotiation.OneValue answer) ∧
      (((sent.options.map (·.key) ++ [Transport.serverPort]).filter
        fun key => (Negotiation.portRole? key).isSome).Nodup →
        ∀ a ∈ answer.options, channels.Names a) := by
  obtain ⟨value, sent, answer, hvalue, hsent, rfl, hanswered⟩ := h.negotiated
  obtain ⟨hstatus, htransport⟩ := Connection.transport?_respond conn ip request (setupReply answer)
  exact ⟨value, sent, answer, hvalue, hsent, hstatus, htransport.trans (transport?_setupReply answer),
    Transport.parse_render hanswered.readable, hanswered.keys, hanswered.last,
    hanswered.forall_names_iff, hanswered.forall_names_of_nodup⟩

open PlayerSession (plainContext announceLossless afterAnnounce)

/-- What a player that heard of a stream says to a transport. -/
def answeredWith (transport : String) : Except Error Reply × Player :=
  Player.handle plainContext default (setupWith transport) ⟨afterAnnounce, {}, []⟩

theorem of_answeredWith {transport : String} {reply : Reply}
    (h : (answeredWith transport).1 = .ok reply) :
    SetupAccepted (setupWith transport) reply (answeredWith transport).2.session.channels := by
  have hreach : PlayerSession.Reachable plainContext afterAnnounce :=
    .request (.start _ _) plainContext.binder _ _ _ _
  exact .player hreach plainContext.binder default {} [] rfl h

/-- Both ports asked for once. -/
def onceEach : Transport := ⟨[⟨"mode", "record"⟩, ⟨"timing_port", "6002"⟩, ⟨"control_port", "6001"⟩]⟩

theorem open_ports_of_onceEach :
    ∃ reply, (answeredWith onceEach.render).1 = .ok reply ∧
      SetupAccepted (setupWith onceEach.render) reply
        (answeredWith onceEach.render).2.session.channels ∧
      ∃ answer : Transport, reply.headers.transport? = some answer.render ∧
        answer.options.map (·.key) = ["mode", "timing_port", "control_port", "server_port"] ∧
        ∀ a ∈ answer.options, (answeredWith onceEach.render).2.session.channels.Names a := by
  have hparse : Transport.parse onceEach.render = .ok onceEach := by decide +kernel
  have hreply : (answeredWith onceEach.render).1 = .ok (setupReply
      ⟨[⟨"mode", "record"⟩, ⟨"timing_port", "6000"⟩, ⟨"control_port", "6001"⟩,
        ⟨"server_port", "6002"⟩]⟩) := by decide +kernel
  have haccepted := of_answeredWith hreply
  obtain ⟨value, sent, answer, hvalue, hsent, -, htransport, -, hkeys, -, -, hnodup⟩ :=
    haccepted.open_ports_of_response ⟨none, default, ""⟩ default
  obtain rfl : onceEach.render = value := Option.some.inj hvalue
  obtain rfl : onceEach = sent := Except.ok.inj (hparse.symm.trans hsent)
  rw [(Connection.transport?_respond _ _ _ _).2] at htransport
  exact ⟨_, hreply, haccepted, answer, htransport, hkeys, hnodup (by decide)⟩

/-- A proxy without peers. -/
def aloneContext : ProxyContext where
  config := {}
  binder := .successive 6000 none true
  peerBinder _ := .successive 6000 none true

/-- A proxy that heard of a stream, its answer taken. -/
def aloneAfterAnnounce : Proxy :=
  { (Proxy.ofClient aloneContext default default).start aloneContext default announceLossless with
    answer := none }

/-- The proxy once it answered to a transport. -/
def aloneAnsweredWith (transport : String) : Proxy :=
  (aloneAfterAnnounce.start aloneContext default (setupWith transport)).meetAll aloneContext []

theorem of_aloneAnsweredWith {transport : String} {reply : Reply}
    (h : (aloneAnsweredWith transport).answer = some (.ok reply)) :
    SetupAccepted (setupWith transport) reply (aloneAnsweredWith transport).channels := by
  have hreach : Proxy.Reachable aloneContext aloneAfterAnnounce :=
    .answerTaken (.request (.start _ _) rfl rfl aloneContext.binder aloneContext.peerBinder _ _)
  have hwait : aloneAfterAnnounce.wait.isNone = true := by decide +kernel
  exact .proxy hreach (Option.isNone_iff_eq_none.1 hwait) rfl aloneContext.binder
    aloneContext.peerBinder default [] rfl h

/-- The control port of the first option was given up for that of the second, and the server port is the
sender's. -/
theorem closed_ports_of_repeated_option :
    (∃ reply, SetupAccepted (setupWith "RTP/AVP/UDP;control_port=6001;control_port=6003") reply
        (answeredWith "RTP/AVP/UDP;control_port=6001;control_port=6003").2.session.channels ∧
      reply.headers.transport? =
        some "RTP/AVP/UDP;control_port=6000;control_port=6001;server_port=6002" ∧
      ¬ (answeredWith "RTP/AVP/UDP;control_port=6001;control_port=6003").2.session.channels.Names
        ⟨"control_port", "6000"⟩) ∧
    ∃ reply, SetupAccepted (setupWith "RTP/AVP/UDP;server_port=9999") reply
        (aloneAnsweredWith "RTP/AVP/UDP;server_port=9999").channels ∧
      reply.headers.transport? = some "RTP/AVP/UDP;server_port=9999;server_port=6000" ∧
      ¬ (aloneAnsweredWith "RTP/AVP/UDP;server_port=9999").channels.Names
        ⟨"server_port", "9999"⟩ := by
  constructor
  · generalize htransport : "RTP/AVP/UDP;control_port=6001;control_port=6003" = transport
    have hrun : (answeredWith transport).1 = .ok (setupReply
          ⟨[⟨"control_port", "6000"⟩, ⟨"control_port", "6001"⟩, ⟨"server_port", "6002"⟩]⟩) ∧
        ¬ (answeredWith transport).2.session.channels.Names ⟨"control_port", "6000"⟩ := by
      subst htransport
      decide +kernel
    exact ⟨_, of_answeredWith hrun.1, by decide, hrun.2⟩
  · generalize htransport : "RTP/AVP/UDP;server_port=9999" = transport
    have hrun : (aloneAnsweredWith transport).answer = some (.ok (setupReply
          ⟨[⟨"server_port", "9999"⟩, ⟨"server_port", "6000"⟩]⟩)) ∧
        ¬ (aloneAnsweredWith transport).channels.Names ⟨"server_port", "9999"⟩ := by
      subst htransport
      decide +kernel
    exact ⟨_, of_aloneAnsweredWith hrun.1, by decide, hrun.2⟩

end SetupAccepted
end Raop
