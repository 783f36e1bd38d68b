/-
# What inputs do to the open timing requests

A session is told one input after the other: requests of its sender, what is
met between them, that its answer was taken, that it is shut down. Its peers'
timing requests are observed in the relay's table, and its sender's responses
are resolved there. No other input reads the table or what was put out: it
does the same whatever is in them, and at most empties the table (`Aside`). So
there are three kinds of inputs, and `take_cases` says what each does.

Key definitions: `Proxy.Input`, `Proxy.take`, `Proxy.run`, `Proxy.asked?`,
`Proxy.answered?`, `Proxy.swap`, `Proxy.Aside`.
Key theorems: `Proxy.aside_start`, `Proxy.aside_meet`, `Proxy.take_peerDatagram`,
`Proxy.take_cases`, `Proxy.keys_take`.
-/
import Raop.Proofs.Proxy.Run
import Raop.Proofs.Proxy.TimingKeys

namespace Raop

namespace TimingPacket

/-- The key under which the request in a datagram is observed: the time it was sent. -/
def requestKey? (data : Bytes) : Option UInt64 :=
  match PayloadType.of data with
  | .ok .timingRequest => rawTime? data sendAt
  | _ => none

/-- The key under which the response in a datagram is resolved: the time its request was sent. -/
def responseKey? (data : Bytes) : Option UInt64 :=
  match PayloadType.of data with
  | .ok .timingResponse => rawTime? data referenceAt
  | _ => none

end TimingPacket

theorem ChannelSet.role_of_get? {s : ChannelSet} {role : Role} {c : Channel}
    (h : s.get? role = some c) : c.role = role := by
  simpa using List.find?_some h

namespace Relay

variable {r : Relay} {index : Nat} {p : Peer}

theorem index_of_peer? (h : r.peer? index = some p) : p.index = index := by
  simpa using List.find?_some h

/-- What a datagram comes to that is for the channel of a peer from where a request came. -/
def delivered (r : Relay) (origin : Option (Nat × Nat)) (data : Bytes) : List Output :=
  match origin with
  | none => []
  | some (index, id) =>
    match r.peer? index with
    | none => []
    | some p =>
      match p.channels.find? id with
      | none => []
      | some c => toPeer p c data

theorem peerDatagram_not_mem_toSender (channels : ChannelSet) (id : Option Nat) (data : Bytes)
    {index : Nat} {role : Role} {target : Endpoint} {sent : Bytes} :
    Output.peerDatagram index role target sent ∉ toSender channels id data := by
  unfold toSender
  split
  · simp
  · split <;> simp

variable {now : Moment} {c : Channel} {source : Endpoint} {data : Bytes} {channels : ChannelSet}
  {key : UInt64}

/-- A datagram of the sender that is no timing response has nothing to do with the timing requests. -/
theorem fromSender_aside (r : Relay) (now : Moment) (source : Endpoint)
    (h : c.role = .timing → TimingPacket.responseKey? data = none) :
    ∃ out, ∀ keys, { r with keys }.fromSender now c source data =
      ({ (r.fromSender now c source data).1 with keys }, out) := by
  refine ⟨(r.fromSender now c source data).2, fun keys => ?_⟩
  unfold fromSender
  cases hrole : c.role with
  | audio => rfl
  | control =>
    simp only [fromSenderControl]
    split <;> rfl
  | timing =>
    have hnone := h hrole
    unfold TimingPacket.responseKey? at hnone
    simp only [fromSenderTiming]
    split
    · next htype =>
      rw [htype] at hnone
      simp only [routeTiming, hnone]
    · split
      · rfl
      · split <;> rfl
    · rfl

/-- A timing response of the sender is resolved, and delivered. -/
theorem fromSender_response (r : Relay) (now : Moment) (source : Endpoint) (hrole : c.role = .timing)
    (h : TimingPacket.responseKey? data = some key) (keys : TimingKeys (Nat × Nat)) :
    { r with keys }.fromSender now c source data =
      ({ r with keys := (keys.resolve now.ticks key).2 },
        r.delivered (keys.resolve now.ticks key).1 data) := by
  unfold TimingPacket.responseKey? at h
  split at h
  · next htype =>
    simp only [fromSender, hrole, fromSenderTiming, htype, routeTiming, h]
    rfl
  · cases h

/-- A datagram of a peer that is no timing request has nothing to do with the timing requests, and
leaves the relay as it is. -/
theorem fromPeer_aside (r : Relay) (now : Moment) (channels : ChannelSet) (p : Peer)
    (h : c.role = .timing → TimingPacket.requestKey? data = none) (keys : TimingKeys (Nat × Nat)) :
    { r with keys }.fromPeer now channels p c data =
      ({ r with keys }, (r.fromPeer now channels p c data).2) := by
  unfold fromPeer
  cases hrole : c.role with
  | audio => rfl
  | control =>
    simp only [fromPeerControl]
    split <;> rfl
  | timing =>
    have hnone := h hrole
    unfold TimingPacket.requestKey? at hnone
    simp only [fromPeerTiming]
    split
    · next htype _ =>
      rw [htype] at hnone
      simp_all
    · rfl

/-- A timing request of a peer is observed, and passed on to the sender. -/
theorem fromPeer_request (r : Relay) (now : Moment) (channels : ChannelSet) (p : Peer)
    (hrole : c.role = .timing) (h : TimingPacket.requestKey? data = some key)
    (keys : TimingKeys (Nat × Nat)) :
    { r with keys }.fromPeer now channels p c data =
      ({ r with keys := keys.observe now.ticks key (p.index, c.id) },
        toSender channels r.timing data) := by
  unfold TimingPacket.requestKey? at h
  split at h
  · next htype =>
    simp only [fromPeer, hrole, fromPeerTiming, htype, h]
  · cases h

/-- What a datagram of a peer comes to is for that peer or for the sender. -/
theorem index_of_mem_fromPeer {r : Relay} {role : Role} {target : Endpoint} {sent : Bytes}
    (h : Output.peerDatagram index role target sent ∈ (r.fromPeer now channels p c data).2) :
    index = p.index := by
  unfold fromPeer at h
  split at h
  · simp at h
  · unfold fromPeerControl at h
    simp only at h
    split at h
    · obtain ⟨response, -, hsent⟩ := List.mem_flatMap.1 h
      unfold toPeer at hsent
      split at hsent
      · simp only [List.mem_singleton, Output.peerDatagram.injEq] at hsent
        exact hsent.1
      · cases hsent
    · exact absurd h (peerDatagram_not_mem_toSender _ _ _)
  · exact absurd h (peerDatagram_not_mem_toSender _ _ _)

end Relay

namespace Proxy

/-- What a session is told. -/
inductive Input where
  /-- A request, and what the system does with the channels that it opens. -/
  | request (binder : Binder) (peerBinder : Nat → Binder) (now : Moment) (request : Request)
  | met (o : Occurrence)
  | answerTaken
  | shutdown

/-- The session after an input. -/
def take (ctx : ProxyContext) (p : Proxy) : Input → Proxy
  | .request binder peerBinder now request => p.start { ctx with binder, peerBinder } now request
  | .met o => p.meet ctx o
  | .answerTaken => { p with answer := none }
  | .shutdown => p.reset

/-- The session after inputs, one after the other. -/
def run (ctx : ProxyContext) (p : Proxy) (inputs : List Input) : Proxy := inputs.foldl (take ctx) p

@[simp] theorem run_append (ctx : ProxyContext) (p : Proxy) (inputs later : List Input) :
    p.run ctx (inputs ++ later) = (p.run ctx inputs).run ctx later :=
  List.foldl_append

/-- The channel on which a datagram of the sender is taken. -/
def taking? (p : Proxy) (role : Role) (source : Endpoint) : Option Channel :=
  (p.channels.get? role).filter fun c => c.accepts source

/-- The peer and its channel on which a datagram of that peer is taken. -/
def peerTaking? (p : Proxy) (index : Nat) (role : Role) (source : Endpoint) :
    Option (Peer × Channel) :=
  (p.relay.peer? index).bind fun peer =>
    ((peer.channels.get? role).filter fun c => c.accepts source).map fun c => (peer, c)

/-- The timing request of a peer that is observed with an input. -/
def asked? (p : Proxy) : Input → Option (TimingEntry (Nat × Nat))
  | .met (.peerDatagram now index .timing source data) =>
    (p.peerTaking? index .timing source).bind fun (_, c) =>
      (TimingPacket.requestKey? (Channel.taken data)).map fun key => ⟨key, (index, c.id), now.ticks⟩
  | _ => none

/-- A timing response of the sender: its key, when it arrived, and its octets. -/
structure TimingAnswer where
  key : UInt64
  arrived : Nat
  data : Bytes

/-- The timing response of the sender that is taken with an input. -/
def answered? (p : Proxy) : Input → Option TimingAnswer
  | .met (.datagram now .timing source data) =>
    (p.taking? .timing source).bind fun _ =>
      (TimingPacket.responseKey? (Channel.taken data)).map fun key =>
        ⟨key, now.ticks, Channel.taken data⟩
  | _ => none

/-- The session with another table of timing requests, and other things put out. -/
def swap (p : Proxy) (keys : TimingKeys (Nat × Nat)) (output : List Output) : Proxy :=
  { p with relay := { p.relay with keys }, output }

/-- What is done to a session does not depend on the table of timing requests or on what was put out:
the table is kept or emptied, and more may be put out. -/
def Aside (f : Proxy → Proxy) (p : Proxy) : Prop :=
  ∃ (forget : Bool) (out : List Output), ∀ keys output,
    f (p.swap keys output) =
      (f p).swap (if forget then keys.clear else keys) (output ++ out)

variable {ctx : ProxyContext} {now : Moment} {request : Request} {reply : Reply} {p : Proxy}

theorem aside_id (p : Proxy) : Aside id p :=
  ⟨false, [], fun keys output => by rw [List.append_nil]; rfl⟩

/-- What does neither and puts nothing out. -/
theorem Aside.of_quiet {f : Proxy → Proxy}
    (h : ∀ keys output, f (p.swap keys output) = (f p).swap keys output) : Aside f p :=
  ⟨false, [], fun keys output => by rw [List.append_nil]; exact h keys output⟩

theorem Aside.comp {f g : Proxy → Proxy} (hg : Aside g (f p)) (hf : Aside f p) :
    Aside (fun p => g (f p)) p := by
  obtain ⟨forget, out, hf⟩ := hf
  obtain ⟨forget', out', hg⟩ := hg
  refine ⟨forget || forget', out ++ out', fun keys output => ?_⟩
  simp only [hf, hg]
  cases forget <;> cases forget' <;> simp [TimingKeys.clear]

theorem Aside.congr {f g : Proxy → Proxy} (h : Aside f p)
    (heq : ∀ keys output, g (p.swap keys output) = f (p.swap keys output)) : Aside g p := by
  obtain ⟨forget, out, hf⟩ := h
  refine ⟨forget, out, fun keys output => ?_⟩
  have hself : g p = f p := heq p.relay.keys p.output
  rw [heq, hf, hself]

/-! ### Requests -/

theorem aside_reset (p : Proxy) : Aside reset p :=
  ⟨true, p.relay.peers.map fun q => .disconnect q.index, fun _ _ => rfl⟩

theorem aside_complete (request : Request) (reply : Reply) (p : Proxy) :
    Aside (complete request reply) p := by
  unfold complete
  cases hm : request.method with
  | announce => exact ⟨false, [_], fun _ _ => rfl⟩
  | flush => exact ⟨false, [_], fun _ _ => rfl⟩
  | pause => exact ⟨false, [_], fun _ _ => rfl⟩
  | teardown =>
    refine ⟨true, (p.relay.peers.map fun q => .disconnect q.index) ++ [.event .tornDown],
      fun keys output => ?_⟩
    rw [← List.append_assoc]
    rfl
  | record =>
    by_cases hstate : p.state = .recording
    · refine .of_quiet fun keys output => ?_
      simp only [show (p.swap keys output).state = .recording from hstate, hstate, if_true]
      rfl
    · refine ⟨false, [.event .recordingStarted], fun keys output => ?_⟩
      simp only [show (p.swap keys output).state ≠ .recording from hstate, hstate, if_false]
      rfl
  | _ => exact .of_quiet fun _ _ => rfl

theorem aside_await (ctx : ProxyContext) (now : Moment) (request : Request) (reply : Reply)
    (p : Proxy) : Aside (await ctx now request reply) p := by
  unfold await
  cases request.headers.cseq? with
  | none => exact aside_complete request reply p
  | some cseq =>
    have hprune : Aside (fun p => p.withRelay p.relay.prune) p :=
      ⟨false, p.relay.prune.2, fun _ _ => rfl⟩
    simp only
    by_cases hreached : (Barrier.start cseq
      ((p.withRelay p.relay.prune).relay.peers.map (·.cell))).reached
    · exact ((aside_complete request reply _).comp hprune).congr fun _ _ => if_pos hreached
    · have hwait : Aside (fun q : Proxy => { q with wait := some (.answering request reply
            (p.relay.prune.1.peers.map (·.index))
            (Barrier.start cseq (p.relay.prune.1.peers.map (·.cell)))
            (now.ticks + ctx.config.barrierTimeout.toNanos)) }) (p.withRelay p.relay.prune) :=
        .of_quiet fun _ _ => rfl
      exact (hwait.comp (f := fun p => p.withRelay p.relay.prune) hprune).congr
        fun _ _ => if_neg hreached

theorem aside_replicate (ctx : ProxyContext) (now : Moment) (request : Request) (p : Proxy) :
    Aside (replicate ctx now request) p :=
  (aside_await ctx now request {} _).comp
    (f := fun p => p.withRelay (p.relay.forward request))
    ⟨false, (p.relay.forward request).2, fun _ _ => rfl⟩

theorem aside_announceTo (ctx : ProxyContext) (now : Moment) (request : Request) (found : List Peer)
    (p : Proxy) : Aside (announceTo ctx now request found) p :=
  (aside_replicate ctx now request _).comp
    (f := fun p => { p with wait := none, relay := { p.relay with peers := found } })
    (.of_quiet fun _ _ => rfl)

theorem aside_replicateIn (ctx : ProxyContext) (now : Moment) (allowed : List SessionState)
    (request : Request) (p : Proxy) : Aside (replicateIn ctx now allowed request) p := by
  cases hstate : p.state.expect request.method allowed with
  | error e =>
    refine .of_quiet fun keys output => ?_
    simp only [replicateIn, show (p.swap keys output).state = p.state from rfl, hstate]
    rfl
  | ok _ =>
    refine (aside_replicate ctx now request p).congr fun keys output => ?_
    simp only [replicateIn, show (p.swap keys output).state = p.state from rfl, hstate]

theorem aside_announce (ctx : ProxyContext) (now : Moment) (request : Request) (p : Proxy) :
    Aside (announce ctx now request) p := by
  unfold announce
  split
  · exact .of_quiet fun _ _ => rfl
  · split
    · exact .of_quiet fun _ _ => rfl
    · simp only
      split
      · exact (aside_announceTo ctx now request [] _).comp (aside_reset p)
      · exact Aside.comp (g := fun p => put { p with wait := _ } _) ⟨false, _, fun _ _ => rfl⟩
          (aside_reset p)

theorem aside_setup (ctx : ProxyContext) (now : Moment) (request : Request) (p : Proxy) :
    Aside (setup ctx now request) p := by
  cases hstate : p.state.expect request.method [.announced] with
  | error e =>
    refine .of_quiet fun keys output => ?_
    simp only [setup, show (p.swap keys output).state = p.state from rfl, hstate]
    rfl
  | ok _ =>
    cases hvalue : request.headers.transport? with
    | none =>
      refine .of_quiet fun keys output => ?_
      simp only [setup, show (p.swap keys output).state = p.state from rfl, hstate, hvalue]
      rfl
    | some value =>
      rcases hneg : Negotiation.negotiate (ChannelSet.opener ctx.binder ctx.config.localPorts
        p.localEnd.ip) p.client.ip value p.channels with ⟨result, channels⟩
      cases result with
      | error e =>
        refine .of_quiet fun keys output => ?_
        simp only [setup, swap, hstate, hvalue, hneg]
        rfl
      | ok t =>
        refine ((aside_await ctx now request (setupReply t) _).comp
          (f := setUpPeers ctx request channels)
          ⟨false, (Relay.setup ctx.peerBinder request { p.relay with
            control := (channels.get? .control).map Channel.id
            timing := (channels.get? .timing).map Channel.id }).2, fun _ _ => rfl⟩).congr
          fun keys output => ?_
        simp only [setup, swap, hstate, hvalue, hneg]
        rfl

theorem aside_setParameter (ctx : ProxyContext) (now : Moment) (request : Request) (p : Proxy) :
    Aside (setParameter ctx now request) p := by
  cases hstate : p.state.expect request.method SessionState.active with
  | error e =>
    refine .of_quiet fun keys output => ?_
    simp only [setParameter, swap, hstate]
    rfl
  | ok _ =>
    by_cases hin : Parameters.areIn request = true
    · cases hparse : Parameters.parse request.bodyText with
      | error e =>
        refine .of_quiet fun keys output => ?_
        simp only [setParameter, swap, hstate, hin, hparse]
        rfl
      | ok parameters =>
        refine ((aside_replicate ctx now request _).comp
          (f := fun p => { p with volume := (lastVolume parameters).or p.volume })
          (.of_quiet fun _ _ => rfl)).congr fun keys output => ?_
        simp only [setParameter, swap, hstate, hin, hparse]
        rfl
    · refine (aside_replicate ctx now request p).congr fun keys output => ?_
      simp only [setParameter, swap, hstate, hin]
      rfl

theorem aside_start (ctx : ProxyContext) (now : Moment) (request : Request) (p : Proxy) :
    Aside (start ctx now request) p := by
  unfold start
  cases request.method with
  | options => exact .of_quiet fun _ _ => rfl
  | announce => exact aside_announce ctx now request p
  | setup => exact aside_setup ctx now request p
  | record => exact aside_replicateIn ctx now _ request p
  | flush => exact aside_replicateIn ctx now _ request p
  | pause => exact aside_replicateIn ctx now _ request p
  | setParameter => exact aside_setParameter ctx now request p
  | getParameter => exact .of_quiet fun _ _ => rfl
  | teardown => exact aside_replicate ctx now request p
  | other token => exact .of_quiet fun _ _ => rfl

/-! ### What is met between requests -/

theorem aside_tick (ctx : ProxyContext) (now : Moment) (p : Proxy) : Aside (tick ctx now) p := by
  cases hwait : p.wait with
  | none => exact (aside_id p).congr fun _ _ => by simp only [tick, swap, hwait]; rfl
  | some wait =>
    cases wait with
    | connecting request pending found deadline =>
      by_cases hdue : now.ticks < deadline
      · exact (aside_id p).congr fun _ _ => by simp only [tick, swap, hwait, hdue, if_true]; rfl
      · exact (aside_announceTo ctx now request found p).congr fun _ _ => by
          simp only [tick, swap, hwait, hdue, if_false]
    | answering request reply members barrier deadline =>
      by_cases hdue : now.ticks < deadline
      · exact (aside_id p).congr fun _ _ => by simp only [tick, swap, hwait, hdue, if_true]; rfl
      · exact (aside_complete request reply p).congr fun _ _ => by
          simp only [tick, swap, hwait, hdue, if_false]

theorem aside_decided (ctx : ProxyContext) (now : Moment) (index : Nat) (ip : Option IpAddress)
    (p : Proxy) : Aside (decided ctx now index ip) p := by
  cases hwait : p.wait with
  | none => exact (aside_id p).congr fun _ _ => by simp only [decided, swap, hwait]; rfl
  | some wait =>
    cases wait with
    | answering request reply members barrier deadline =>
      exact (aside_id p).congr fun _ _ => by simp only [decided, swap, hwait]; rfl
    | connecting request pending found deadline =>
      by_cases hpending : pending.contains index = true
      · by_cases hlast : (pending.erase index).isEmpty = true
        · exact (aside_announceTo ctx now request _ p).congr fun _ _ => by
            simp only [decided, swap, hwait, hpending, hlast, if_true]; rfl
        · exact Aside.congr (f := fun p => { p with wait := some (.connecting request _ _ deadline) })
            (.of_quiet fun _ _ => rfl) fun _ _ => by
              simp only [decided, swap, hwait, hpending, hlast, if_true]; rfl
      · exact (aside_id p).congr fun _ _ => by simp only [decided, swap, hwait, hpending]; rfl

theorem aside_onPeer (index : Nat) (f : Peer → Peer) (p : Proxy) : Aside (onPeer index f) p := by
  have hmodify : Aside (fun p => { p with relay := p.relay.modify index f }) p :=
    .of_quiet fun _ _ => rfl
  cases hwait : p.wait with
  | none => exact hmodify.congr fun _ _ => by simp only [onPeer, swap, hwait]
  | some wait =>
    cases wait with
    | connecting request pending found deadline =>
      refine Aside.congr (f := fun p =>
        { p with
          relay := p.relay.modify index f
          wait := some (.connecting request pending
            (found.map fun q => if q.index = index then f q else q) deadline) })
        (.of_quiet fun _ _ => rfl) fun _ _ => ?_
      simp only [onPeer, swap, hwait]
    | answering request reply members barrier deadline =>
      rcases hindex : members.idxOf? index with _ | i
      · exact hmodify.congr fun _ _ => by simp only [onPeer, swap, hwait, hindex]
      · rcases hpeer : (p.relay.modify index f).peer? index with _ | peer
        · refine hmodify.congr fun keys output => ?_
          have hpeer' : ((p.swap keys output).relay.modify index f).peer? index = none := hpeer
          simp only [onPeer, show (p.swap keys output).wait = p.wait from rfl, hwait, hindex, hpeer']
        · have hpeer' (keys : TimingKeys (Nat × Nat)) (output : List Output) :
              ((p.swap keys output).relay.modify index f).peer? index = some peer := hpeer
          generalize hnoted : barrier.note i
            (if peer.cell.isOpen then .answered peer.cell.seen else .closed) = noted
          by_cases hreached : noted.reached = true
          · refine ((aside_complete request reply _).comp
              (f := fun p => { p with relay := p.relay.modify index f }) hmodify).congr
              fun keys output => ?_
            simp only [onPeer, show (p.swap keys output).wait = p.wait from rfl, hwait, hindex,
              hpeer' keys output, hnoted, hreached, if_true]
          · refine Aside.congr (f := fun p =>
              { p with
                relay := p.relay.modify index f
                wait := some (.answering request reply members noted deadline) })
              (.of_quiet fun _ _ => rfl) fun keys output => ?_
            simp only [onPeer, show (p.swap keys output).wait = p.wait from rfl, hwait, hindex,
              hpeer' keys output, hnoted, hreached]
            rfl

/-! ### Datagrams -/

theorem datagram_eq (now : Moment) (role : Role) (source : Endpoint) (data : Bytes) (p : Proxy) :
    p.datagram now role source data = match p.taking? role source with
      | none => p
      | some c => p.withRelay (p.relay.fromSender now c source (Channel.taken data)) := by
  unfold datagram taking?
  cases p.channels.get? role with
  | none => rfl
  | some c => by_cases haccepts : c.accepts source = true <;> simp [Option.filter, haccepts]

theorem role_of_taking? {role : Role} {source : Endpoint} {c : Channel}
    (h : p.taking? role source = some c) : c.role = role :=
  ChannelSet.role_of_get? (Option.filter_eq_some_iff.1 h).1

theorem peerDatagram_eq (now : Moment) (index : Nat) (role : Role) (source : Endpoint) (data : Bytes)
    (p : Proxy) :
    p.peerDatagram now index role source data = match p.peerTaking? index role source with
      | none => p
      | some (peer, c) =>
        p.withRelay (p.relay.fromPeer now p.channels peer c (Channel.taken data)) := by
  unfold peerDatagram peerTaking?
  cases p.relay.peer? index with
  | none => rfl
  | some peer =>
    cases hget : peer.channels.get? role with
    | none => simp [hget]
    | some c => by_cases haccepts : c.accepts source = true <;> simp [hget, Option.filter, haccepts]

theorem role_of_peerTaking? {index : Nat} {role : Role} {source : Endpoint} {peer : Peer} {c : Channel}
    (h : p.peerTaking? index role source = some (peer, c)) : peer.index = index ∧ c.role = role := by
  simp only [peerTaking?, Option.bind_eq_some_iff, Option.map_eq_some_iff, Prod.mk.injEq] at h
  obtain ⟨peer', hpeer, c', hc, rfl, rfl⟩ := h
  exact ⟨Relay.index_of_peer? hpeer, ChannelSet.role_of_get? (Option.filter_eq_some_iff.1 hc).1⟩

theorem aside_datagram (now : Moment) (role : Role) (source : Endpoint) (data : Bytes) (p : Proxy)
    (h : p.answered? (.met (.datagram now role source data)) = none) :
    Aside (datagram now role source data) p := by
  cases htaking : p.taking? role source with
  | none =>
    have htaking' (keys : TimingKeys (Nat × Nat)) (output : List Output) :
        (p.swap keys output).taking? role source = none := htaking
    refine (aside_id p).congr fun keys output => ?_
    rw [datagram_eq, htaking' keys output]
    rfl
  | some c =>
    have hnone : c.role = .timing → TimingPacket.responseKey? (Channel.taken data) = none := by
      intro hrole
      obtain rfl : role = .timing := (role_of_taking? htaking).symm.trans hrole
      simpa [answered?, htaking] using h
    obtain ⟨out, hout⟩ := p.relay.fromSender_aside now source hnone
    refine ⟨false, out, fun keys output => ?_⟩
    have htaking' : (p.swap keys output).taking? role source = some c := htaking
    simp only [datagram_eq, htaking, htaking']
    exact congrArg (withRelay (p.swap keys output)) (hout keys)

/-- A timing response of the sender is resolved, and what is resolved is delivered. -/
theorem take_answered (ctx : ProxyContext) {i : Input} {a : TimingAnswer} (h : p.answered? i = some a)
    (keys : TimingKeys (Nat × Nat)) (output : List Output) :
    (p.swap keys output).take ctx i = p.swap (keys.resolve a.arrived a.key).2
      (output ++ p.relay.delivered (keys.resolve a.arrived a.key).1 a.data) := by
  unfold answered? at h
  split at h
  · next now source data =>
    simp only [Option.bind_eq_some_iff, Option.map_eq_some_iff] at h
    obtain ⟨c, htaking, key, hkey, rfl⟩ := h
    have htaking' : (p.swap keys output).taking? .timing source = some c := htaking
    simp only [take, meet, datagram_eq, htaking']
    exact congrArg (withRelay (p.swap keys output))
      (p.relay.fromSender_response now source (role_of_taking? htaking) hkey keys)
  · cases h

/-- A datagram of a peer changes nothing but what its timing request does to the table, and puts out
nothing that is for another peer. -/
theorem take_peerDatagram (ctx : ProxyContext) (p : Proxy) (now : Moment) (index : Nat) (role : Role)
    (source : Endpoint) (data : Bytes) :
    ∃ out, (∀ other r target sent, Output.peerDatagram other r target sent ∈ out → other = index) ∧
      ∀ keys output, (p.swap keys output).take ctx (.met (.peerDatagram now index role source data)) =
        p.swap (match p.asked? (.met (.peerDatagram now index role source data)) with
          | some e => keys.observe e.seen e.key e.origin
          | none => keys) (output ++ out) := by
  cases htaking : p.peerTaking? index role source with
  | none =>
    have hnone : p.asked? (.met (.peerDatagram now index role source data)) = none := by
      cases role <;> simp [asked?, htaking]
    refine ⟨[], by simp, fun keys output => ?_⟩
    have htaking' : (p.swap keys output).peerTaking? index role source = none := htaking
    simp only [take, meet, peerDatagram_eq, htaking', hnone, List.append_nil]
  | some found =>
    obtain ⟨peer, c⟩ := found
    obtain ⟨hindex, hrole⟩ := role_of_peerTaking? htaking
    refine ⟨(p.relay.fromPeer now p.channels peer c (Channel.taken data)).2,
      fun other r target sent hmem => (Relay.index_of_mem_fromPeer hmem).trans hindex,
      fun keys output => ?_⟩
    have htaking' : (p.swap keys output).peerTaking? index role source = some (peer, c) := htaking
    simp only [take, meet, peerDatagram_eq, htaking']
    cases hasked : p.asked? (.met (.peerDatagram now index role source data)) with
    | none =>
      have hnone : c.role = .timing → TimingPacket.requestKey? (Channel.taken data) = none := by
        intro htiming
        obtain rfl : role = .timing := hrole.symm.trans htiming
        simpa [asked?, htaking] using hasked
      exact congrArg (withRelay (p.swap keys output))
        (p.relay.fromPeer_aside now p.channels peer hnone keys)
    | some e =>
      unfold asked? at hasked
      split at hasked
      · next hinput =>
        cases hinput
        simp only [htaking, Option.bind_some, Option.map_eq_some_iff] at hasked
        obtain ⟨key, hkey, rfl⟩ := hasked
        have hrequest := p.relay.fromPeer_request now p.channels peer hrole hkey
        have hout : (p.relay.fromPeer now p.channels peer c (Channel.taken data)).2 =
            Relay.toSender p.channels p.relay.timing (Channel.taken data) :=
          congrArg Prod.snd (hrequest p.relay.keys)
        rw [hout, ← hindex]
        exact congrArg (withRelay (p.swap keys output)) (hrequest keys)
      · cases hasked

theorem take_asked {i : Input} {e : TimingEntry (Nat × Nat)} (ctx : ProxyContext)
    (h : p.asked? i = some e) :
    ∃ out, ∀ keys output, (p.swap keys output).take ctx i =
      p.swap (keys.observe e.seen e.key e.origin) (output ++ out) := by
  have hinput : ∃ now index source data, i = .met (.peerDatagram now index .timing source data) := by
    unfold asked? at h
    split at h
    · exact ⟨_, _, _, _, rfl⟩
    · cases h
  obtain ⟨now, index, source, data, rfl⟩ := hinput
  obtain ⟨out, -, hout⟩ := take_peerDatagram ctx p now index .timing source data
  rw [h] at hout
  exact ⟨out, hout⟩

/-! ### Every input -/

theorem aside_meet (ctx : ProxyContext) (p : Proxy) (o : Occurrence) (hasked : p.asked? (.met o) = none)
    (hanswered : p.answered? (.met o) = none) : Aside (meet ctx · o) p := by
  cases o with
  | tick now => exact aside_tick ctx now p
  | connected now index ip => exact aside_decided ctx now index (some ip) p
  | refused now index => exact aside_decided ctx now index none p
  | peerData peerBinder index data => exact aside_onPeer index _ p
  | peerLost index => exact aside_onPeer index _ p
  | peerBroken index => exact aside_onPeer index _ p
  | datagram now role source data => exact aside_datagram now role source data p hanswered
  | peerDatagram now index role source data =>
    obtain ⟨out, -, hout⟩ := take_peerDatagram ctx p now index role source data
    rw [hasked] at hout
    have hself : p.meet ctx (.peerDatagram now index role source data) =
        p.swap p.relay.keys (p.output ++ out) := hout p.relay.keys p.output
    refine ⟨false, out, fun keys output => (hout keys output).trans ?_⟩
    simp only [hself]
    rfl

/-- **What an input does to the open timing requests.** A peer's request that is observed is entered, a
response of the sender is resolved and delivered, and in both cases nothing else of the session changes.
Any other input does not depend on the table, and keeps or empties it. -/
theorem take_cases (ctx : ProxyContext) (p : Proxy) (i : Input) :
    (∃ e out, p.asked? i = some e ∧ p.answered? i = none ∧
      ∀ keys output, (p.swap keys output).take ctx i =
        p.swap (keys.observe e.seen e.key e.origin) (output ++ out)) ∨
    (∃ a, p.asked? i = none ∧ p.answered? i = some a ∧
      ∀ keys output, (p.swap keys output).take ctx i = p.swap (keys.resolve a.arrived a.key).2
        (output ++ p.relay.delivered (keys.resolve a.arrived a.key).1 a.data)) ∨
    (p.asked? i = none ∧ p.answered? i = none ∧ Aside (take ctx · i) p) := by
  cases hanswered : p.answered? i with
  | some a =>
    have hasked : p.asked? i = none := by
      unfold answered? at hanswered
      split at hanswered
      · rfl
      · cases hanswered
    exact Or.inr (Or.inl ⟨a, hasked, rfl, take_answered ctx hanswered⟩)
  | none =>
    cases hasked : p.asked? i with
    | some e =>
      obtain ⟨out, hout⟩ := take_asked ctx hasked
      exact Or.inl ⟨e, out, rfl, rfl, hout⟩
    | none =>
      refine Or.inr (Or.inr ⟨rfl, rfl, ?_⟩)
      cases i with
      | request binder peerBinder now request => exact aside_start _ now request p
      | met o => exact aside_meet ctx p o hasked hanswered
      | answerTaken => exact .of_quiet fun _ _ => rfl
      | shutdown => exact aside_reset p

/-- The table after an input. -/
theorem keys_take (ctx : ProxyContext) (p : Proxy) (i : Input) :
    (∃ e, p.asked? i = some e ∧ p.answered? i = none ∧
      (p.take ctx i).relay.keys = p.relay.keys.observe e.seen e.key e.origin) ∨
    (∃ a, p.asked? i = none ∧ p.answered? i = some a ∧
      (p.take ctx i).relay.keys = (p.relay.keys.resolve a.arrived a.key).2) ∨
    (p.asked? i = none ∧ p.answered? i = none ∧
      ((p.take ctx i).relay.keys = p.relay.keys ∨
        (p.take ctx i).relay.keys = p.relay.keys.clear)) := by
  rcases take_cases ctx p i with
    ⟨e, out, hasked, hanswered, htake⟩ | ⟨a, hasked, hanswered, htake⟩ |
    ⟨hasked, hanswered, forget, out, htake⟩
  · exact Or.inl ⟨e, hasked, hanswered, congrArg (·.relay.keys) (htake p.relay.keys p.output)⟩
  · exact Or.inr (Or.inl ⟨a, hasked, hanswered, congrArg (·.relay.keys) (htake p.relay.keys p.output)⟩)
  · have hkeys : (p.take ctx i).relay.keys = if forget then p.relay.keys.clear else p.relay.keys :=
      congrArg (·.relay.keys) (htake p.relay.keys p.output)
    refine Or.inr (Or.inr ⟨hasked, hanswered, ?_⟩)
    cases forget with
    | true => exact Or.inr hkeys
    | false => exact Or.inl hkeys

/-- An input only adds to what was put out. -/
theorem output_take (ctx : ProxyContext) (p : Proxy) (i : Input) :
    ∃ out, (p.take ctx i).output = p.output ++ out := by
  rcases take_cases ctx p i with ⟨_, out, -, -, htake⟩ | ⟨_, -, -, htake⟩ | ⟨-, -, _, out, htake⟩
  · exact ⟨out, congrArg (·.output) (htake p.relay.keys p.output)⟩
  · exact ⟨_, congrArg (·.output) (htake p.relay.keys p.output)⟩
  · exact ⟨out, congrArg (·.output) (htake p.relay.keys p.output)⟩

end Proxy
end Raop
