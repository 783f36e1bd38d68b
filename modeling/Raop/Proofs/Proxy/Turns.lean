/-
# The turns of a proxy's session

A turn is a request with what is met until the next one. What a request can begin
is said once (`Begins`): it is refused, or answered by the session itself, or it
is passed on to the peers, ANNOUNCE after connecting to them. What is met moves
such a turn on or does not concern it (`Meets`); whatever it does besides leaves
what the sender sees, and only the peers' channels and what is remembered of
datagrams may change (`Steady`).

An answer that is an error is there at once, and is the only one
(`error_meetAll_iff`). A request that is passed on heads for one end, however
long that takes (`Heading`), and it does end (`exists_ticks`).

Key definitions: `Method.isPassedOn`, `Proxy.Begins`, `Proxy.Steady`, `Proxy.Meets`, `Proxy.turn`,
`Proxy.Heading`.
Key theorems: `Proxy.begins_start`, `Proxy.meets_meet`, `Proxy.error_meetAll_iff`,
`Proxy.Heading.meet`, `Proxy.exists_ticks`.
-/
import Raop.Proofs.Proxy.PeerLog
import Raop.Proofs.Proxy.Reset

namespace Raop

/-- Requests of this method are passed on to the peers. -/
def Method.isPassedOn : Method → Bool
  | .announce | .setup | .record | .flush | .pause | .setParameter | .teardown => true
  | .options | .getParameter | .other _ => false

namespace SessionState

/-- A method is admitted in the states in which it may change the stream. -/
def admits (s : SessionState) (method : Method) : Prop :=
  match method with
  | .record | .setParameter => s ∈ active
  | .flush | .pause => s ∈ streaming
  | .setup => s = announced
  | _ => True

/-- The state once a request of this method was accepted. -/
def after (s : SessionState) (method : Method) : SessionState :=
  match method with
  | .announce => announced
  | .setup => setUp
  | .record => recording
  | .flush | .pause => flushed
  | .teardown => tornDown
  | .options | .getParameter | .setParameter | .other _ => s

end SessionState

namespace Relay

theorem modify_of_peers_eq_nil {r : Relay} (h : r.peers = []) (index : Nat) (f : Peer → Peer) :
    r.modify index f = r := by
  cases r
  simp_all [modify]

/-- A datagram of a peer has nothing to do with the channels to the sender that are known. -/
theorem handles_fromPeer (r : Relay) (now : Moment) (channels : ChannelSet) (p : Peer) (c : Channel)
    (data : Bytes) : (r.fromPeer now channels p c data).1.control = r.control ∧
      (r.fromPeer now channels p c data).1.timing = r.timing := by
  unfold fromPeer
  split
  · exact ⟨rfl, rfl⟩
  · unfold fromPeerControl
    simp only
    split <;> exact ⟨rfl, rfl⟩
  · unfold fromPeerTiming
    simp only
    split <;> exact ⟨rfl, rfl⟩

end Relay

namespace Proxy

variable {ctx : ProxyContext} {now : Moment} {request : Request} {reply : Reply} {p q r : Proxy}

/-! ### Requests -/

/-- What a request can begin. -/
inductive Begins (ctx : ProxyContext) (now : Moment) (request : Request) (p : Proxy) : Proxy → Prop where
  | refused (e : Error) : Begins ctx now request p (p.refuse e)
  /-- A SETUP is refused, and the channels that it opened are closed again. -/
  | undone (e : Error) (channels : ChannelSet) (hm : request.method = .setup)
      (hstate : p.state = .announced) :
      Begins ctx now request p ({ p with channels := channels.closeAll }.refuse e)
  /-- The session answers by itself. -/
  | told (reply : Reply) (hm : request.method.isPassedOn = false) :
      Begins ctx now request p { p with answer := some (.ok reply) }
  /-- A stream is announced, and there are peers to connect to. -/
  | connects (deadline : Nat) (hm : request.method = .announce) :
      Begins ctx now request p
        ({ p.reset with
            wait := some (.connecting request (List.range ctx.config.peers.length) [] deadline) }.put
          (ctx.config.peers.mapIdx fun i a => .connect i a))
  /-- A stream is announced, and there are no peers. -/
  | announces (hm : request.method = .announce) :
      Begins ctx now request p (p.reset.announceTo ctx now request [])
  | setsUp (value : String) (t : Transport) (channels : ChannelSet) (hm : request.method = .setup)
      (hstate : p.state = .announced) (hvalue : request.headers.transport? = some value)
      (hneg : Negotiation.negotiate (ChannelSet.opener ctx.binder ctx.config.localPorts p.localEnd.ip)
        p.client.ip value p.channels = (.ok t, channels)) :
      Begins ctx now request p
        ((p.setUpPeers ctx request channels).await ctx now request (setupReply t))
  | passesOn (volume : Option String) (hm : request.method.isPassedOn = true)
      (hstream : request.method ≠ .announce ∧ request.method ≠ .setup)
      (hstate : p.state.admits request.method) :
      Begins ctx now request p ({ p with volume }.replicate ctx now request)

theorem begins_replicateIn {allowed : List SessionState} (hm : request.method.isPassedOn = true)
    (hstream : request.method ≠ .announce ∧ request.method ≠ .setup)
    (hstate : p.state ∈ allowed → p.state.admits request.method) :
    Begins ctx now request p (p.replicateIn ctx now allowed request) := by
  unfold replicateIn
  split
  · exact .refused _
  · next hexpect =>
    exact .passesOn p.volume hm hstream (hstate (SessionState.mem_of_expect hexpect))

theorem begins_announce (hm : request.method = .announce) :
    Begins ctx now request p (p.announce ctx now request) := by
  unfold announce
  split
  · exact .refused _
  · split
    · exact .refused _
    · simp only
      split
      · exact .announces hm
      · exact .connects _ hm

theorem begins_setup (hm : request.method = .setup) :
    Begins ctx now request p (p.setup ctx now request) := by
  unfold setup
  split
  · exact .refused _
  · next hexpect =>
    have hstate : p.state = .announced := by simpa using SessionState.mem_of_expect hexpect
    split
    · exact .refused _
    · next value hvalue =>
      simp only
      split
      · exact .undone _ _ hm hstate
      · next t channels hneg => exact .setsUp value t channels hm hstate hvalue hneg

theorem begins_setParameter (hm : request.method = .setParameter) :
    Begins ctx now request p (p.setParameter ctx now request) := by
  have hpassed : request.method.isPassedOn = true := by rw [hm]; rfl
  have hstream : request.method ≠ .announce ∧ request.method ≠ .setup := by simp [hm]
  unfold setParameter
  split
  · exact .refused _
  · next hexpect =>
    have hstate : p.state.admits request.method := by
      rw [hm]
      exact SessionState.mem_of_expect hexpect
    split
    · split
      · exact .refused _
      · exact .passesOn _ hpassed hstream hstate
    · exact .passesOn p.volume hpassed hstream hstate

/-- **What a request begins.** -/
theorem begins_start (ctx : ProxyContext) (now : Moment) (request : Request) (p : Proxy) :
    Begins ctx now request p (p.start ctx now request) := by
  unfold start
  cases hm : request.method with
  | options => exact .told _ (by rw [hm]; rfl)
  | announce => exact begins_announce hm
  | setup => exact begins_setup hm
  | record =>
    exact begins_replicateIn (by rw [hm]; rfl) (by simp [hm]) fun h => by rw [hm]; exact h
  | flush =>
    exact begins_replicateIn (by rw [hm]; rfl) (by simp [hm]) fun h => by rw [hm]; exact h
  | pause =>
    exact begins_replicateIn (by rw [hm]; rfl) (by simp [hm]) fun h => by rw [hm]; exact h
  | setParameter => exact begins_setParameter hm
  | getParameter => exact .told _ (by rw [hm]; rfl)
  | teardown => exact .passesOn p.volume (by rw [hm]; rfl) (by simp [hm]) (by rw [hm]; trivial)
  | other token => exact .refused _

/-! ### What is met -/

/-- The sender sees the same session, the relay knows the same channels to the sender, and no request
was written. The peers that are usable were so before; without peers and channels the relay is the
same. -/
structure Steady (p q : Proxy) : Prop where
  client : q.client = p.client
  localEnd : q.localEnd = p.localEnd
  state : q.state = p.state
  channels : q.channels = p.channels
  volume : q.volume = p.volume
  answer : q.answer = p.answer
  control : q.relay.control = p.relay.control
  timing : q.relay.timing = p.relay.timing
  usable : ∀ peer ∈ q.relay.peers, peer.alive = true →
    ∃ former ∈ p.relay.peers, former.alive = true ∧ former.index = peer.index
  relay : p.relay.peers = [] → p.channels.entries = [] → q.relay = p.relay
  still : p.Still q

/-- What an occurrence can do: it does not concern the request that is waited for, or it moves it on. -/
inductive Meets (ctx : ProxyContext) (p : Proxy) : Proxy → Prop where
  | aside (q : Proxy) (h : p.Steady q) (hwait : q.wait = p.wait) : Meets ctx p q
  /-- Connections are waited for still. -/
  | connecting (q : Proxy) (request : Request) (pending pending' : List Nat) (found found' : List Peer)
      (deadline : Nat) (h : p.Steady q)
      (hwait : p.wait = some (.connecting request pending found deadline))
      (hwait' : q.wait = some (.connecting request pending' found' deadline))
      (hpending : pending' ⊆ pending)
      (hfound : ∀ peer ∈ found', peer.index ∈ pending ∨ ∃ former ∈ found, former.index = peer.index) :
      Meets ctx p q
  /-- The connections are there, and the stream is announced. -/
  | connected (now : Moment) (request : Request) (pending : List Nat) (found found' : List Peer)
      (deadline : Nat) (hwait : p.wait = some (.connecting request pending found deadline))
      (hfound : ∀ peer ∈ found', peer.index ∈ pending ∨ ∃ former ∈ found, former.index = peer.index)
      (hnodup : (∀ index ∈ pending, index ∉ found.map (·.index)) → (found.map (·.index)).Nodup →
        (found'.map (·.index)).Nodup) :
      Meets ctx p (p.announceTo ctx now request found')
  /-- Answers are waited for still. -/
  | answering (q : Proxy) (request : Request) (reply : Reply) (members : List Nat)
      (barrier barrier' : Barrier) (deadline : Nat) (h : p.Steady q)
      (hwait : p.wait = some (.answering request reply members barrier deadline))
      (hwait' : q.wait = some (.answering request reply members barrier' deadline)) : Meets ctx p q
  /-- The answers are there, or time is up. -/
  | answered (q : Proxy) (request : Request) (reply : Reply) (members : List Nat) (barrier : Barrier)
      (deadline : Nat) (h : p.Steady q)
      (hwait : p.wait = some (.answering request reply members barrier deadline)) :
      Meets ctx p (q.complete request reply)

theorem Steady.refl (p : Proxy) : p.Steady p :=
  ⟨rfl, rfl, rfl, rfl, rfl, rfl, rfl, rfl, fun peer hpeer halive => ⟨peer, hpeer, halive, rfl⟩,
    fun _ _ => rfl, .refl p⟩

/-- The wait has no part in this. -/
theorem Steady.withWait (h : p.Steady q) (wait : Option Wait) : p.Steady { q with wait } :=
  ⟨h.client, h.localEnd, h.state, h.channels, h.volume, h.answer, h.control, h.timing, h.usable, h.relay,
    h.still⟩

theorem meets_tick (ctx : ProxyContext) (now : Moment) (p : Proxy) : Meets ctx p (p.tick ctx now) := by
  unfold tick
  split
  · next request pending found deadline hwait =>
    split
    · exact .aside p (.refl p) rfl
    · exact .connected now request pending found found deadline hwait
        (fun peer hpeer => Or.inr ⟨peer, hpeer, rfl⟩) fun _ hnodup => hnodup
  · next request reply members barrier deadline hwait =>
    split
    · exact .aside p (.refl p) rfl
    · exact .answered p request reply members barrier deadline (.refl p) hwait
  · exact .aside p (.refl p) rfl

theorem meets_decided (ctx : ProxyContext) (now : Moment) (index : Nat) (ip : Option IpAddress)
    (p : Proxy) : Meets ctx p (p.decided ctx now index ip) := by
  by_cases hexpects : p.expects index = true
  · obtain ⟨request, pending, found, deadline, hwait, hpending⟩ := exists_wait_of_expects hexpects
    obtain ⟨found', hfound', hdecided⟩ := decided_of_pending hwait hpending ctx now ip
    have hfound : ∀ peer ∈ found', peer.index ∈ pending ∨
        ∃ former ∈ found, former.index = peer.index := by
      intro peer hpeer
      rcases hfound' with rfl | ⟨-, new, rfl, -, rfl⟩
      · exact Or.inr ⟨peer, hpeer, rfl⟩
      · rw [(Listens.place_perm new found).mem_iff, List.mem_cons] at hpeer
        rcases hpeer with rfl | hpeer
        · exact Or.inl hpending
        · exact Or.inr ⟨peer, hpeer, rfl⟩
    rw [hdecided]
    split
    · refine .connected now request pending found found' deadline hwait hfound fun hnew hnodup => ?_
      rcases hfound' with rfl | ⟨-, new, rfl, -, rfl⟩
      · exact hnodup
      · rw [((Listens.place_perm new found).map _).nodup_iff, List.map_cons, List.nodup_cons]
        exact ⟨hnew _ hpending, hnodup⟩
    · exact .connecting _ request pending (pending.erase index) found found' deadline
        ((Steady.refl p).withWait _) hwait rfl List.erase_subset hfound
  · rw [decided_of_not_expects hexpects]
    exact .aside p (.refl p) rfl

/-- What happens to a peer is nothing that the sender sees, as long as it does not become usable. -/
theorem steady_modify {f : Peer → Peer} (hindex : ∀ peer, (f peer).index = peer.index)
    (halive : ∀ peer, (f peer).alive = true → peer.alive = true) (index : Nat) (p : Proxy) :
    p.Steady { p with relay := p.relay.modify index f } where
  client := rfl
  localEnd := rfl
  state := rfl
  channels := rfl
  volume := rfl
  answer := rfl
  control := rfl
  timing := rfl
  usable peer hpeer ha := by
    obtain ⟨former, hformer, rfl⟩ := List.mem_map.1 hpeer
    refine ⟨former, hformer, ?_, ?_⟩
    · split at ha
      · exact halive former ha
      · exact ha
    · split
      · exact (hindex former).symm
      · rfl
  relay hpeers _ := Relay.modify_of_peers_eq_nil hpeers index f
  still := .refl p

theorem meets_onPeer (ctx : ProxyContext) {f : Peer → Peer} (hindex : ∀ peer, (f peer).index = peer.index)
    (halive : ∀ peer, (f peer).alive = true → peer.alive = true) (index : Nat) (p : Proxy) :
    Meets ctx p (p.onPeer index f) := by
  have hsteady := steady_modify hindex halive index p
  unfold onPeer
  simp only
  split
  · next request pending found deadline hwait =>
    refine .connecting _ request pending pending found _ deadline (hsteady.withWait _) hwait rfl
      (List.Subset.refl _) fun peer hpeer => ?_
    obtain ⟨former, hformer, rfl⟩ := List.mem_map.1 hpeer
    refine Or.inr ⟨former, hformer, ?_⟩
    split
    · exact (hindex former).symm
    · rfl
  · next request reply members barrier deadline hwait =>
    split
    · generalize barrier.note _ _ = noted
      split
      · exact .answered _ request reply members barrier deadline hsteady hwait
      · exact .answering _ request reply members barrier noted deadline (hsteady.withWait _) hwait rfl
    · exact .aside _ hsteady rfl
  · exact .aside _ hsteady rfl

/-- Of the peers that are left each was there. -/
theorem usable_of_sublist {peers peers' : List Peer} (h : peers'.Sublist peers) :
    ∀ peer ∈ peers', peer.alive = true →
      ∃ former ∈ peers, former.alive = true ∧ former.index = peer.index :=
  fun peer hpeer halive => ⟨peer, h.subset hpeer, halive, rfl⟩

/-- The relay has worked, and has kept what it knows of the channels to the sender. -/
theorem steady_withRelay {result : Relay × List Output} (hpeers : result.1.peers.Sublist p.relay.peers)
    (hcontrol : result.1.control = p.relay.control) (htiming : result.1.timing = p.relay.timing)
    (hsilent : Silent result.2) (hsome : p.relay.peers ≠ [] ∨ p.channels.entries ≠ []) :
    p.Steady (p.withRelay result) :=
  ⟨rfl, rfl, rfl, rfl, rfl, rfl, hcontrol, htiming, usable_of_sublist hpeers,
    fun hpeers hchannels => hsome.elim (absurd hpeers) (absurd hchannels), still_withRelay p hsilent⟩

theorem steady_datagram (now : Moment) (role : Role) (source : Endpoint) (data : Bytes) (p : Proxy) :
    p.Steady (p.datagram now role source data) := by
  rw [datagram_eq]
  cases htaking : p.taking? role source with
  | none => exact .refl p
  | some c =>
    obtain ⟨-, hcontrol, htiming, -⟩ :=
      p.relay.remembered_fromSender now c source (Channel.taken data)
    refine steady_withRelay (Relay.peers_fromSender ..) hcontrol htiming (Relay.traffic_fromSender _ _ _ _ _).silent
      (Or.inr fun hnone => ?_)
    simp [taking?, ChannelSet.get?, hnone] at htaking

theorem steady_peerDatagram (now : Moment) (index : Nat) (role : Role) (source : Endpoint) (data : Bytes)
    (p : Proxy) : p.Steady (p.peerDatagram now index role source data) := by
  rw [peerDatagram_eq]
  cases htaking : p.peerTaking? index role source with
  | none => exact .refl p
  | some found =>
    obtain ⟨peer, c⟩ := found
    obtain ⟨hcontrol, htiming⟩ := p.relay.handles_fromPeer now p.channels peer c (Channel.taken data)
    refine steady_withRelay ?_ hcontrol htiming (Relay.traffic_fromPeer _ _ _ _ _ _).silent (Or.inl fun hnone => ?_)
    · rw [Relay.peers_fromPeer]
    · simp [peerTaking?, Relay.peer?, hnone] at htaking

/-- **What an occurrence does.** -/
theorem meets_meet (ctx : ProxyContext) (p : Proxy) (o : Occurrence) : Meets ctx p (p.meet ctx o) := by
  cases o with
  | tick now => exact meets_tick ctx now p
  | connected now index ip => exact meets_decided ctx now index (some ip) p
  | refused now index => exact meets_decided ctx now index none p
  | peerData peerBinder index data =>
    exact meets_onPeer ctx (fun peer => (peer.samePlace_read _ data).index)
      (fun _ => Peer.alive_of_read) index p
  | peerLost index =>
    exact meets_onPeer ctx (f := Peer.lose) (fun _ => rfl)
      (fun _ hdead => absurd hdead (by simp [Peer.lose])) index p
  | peerBroken index =>
    exact meets_onPeer ctx (f := fun peer => { peer with broken := true }) (fun _ => rfl)
      (fun _ halive => halive) index p
  | datagram now role source data =>
    exact .aside _ (steady_datagram now role source data p) (keeps_datagram now role source data p).wait
  | peerDatagram now index role source data =>
    exact .aside _ (steady_peerDatagram now index role source data p)
      (keeps_peerDatagram now index role source data p).wait

/-! ### Turns -/

/-- A request, what the system does with the channels that it opens, and what is met until the next
one. -/
structure Turn where
  binder : Binder
  peerBinder : Nat → Binder
  now : Moment
  request : Request
  met : List Occurrence

/-- How channels are opened in a turn. -/
def Turn.context (ctx : ProxyContext) (t : Turn) : ProxyContext :=
  { ctx with binder := t.binder, peerBinder := t.peerBinder }

/-- The session once the answer and what was put out are taken. -/
def ready (p : Proxy) : Proxy := { p with answer := none, output := [] }

/-- The session after a turn. -/
def turn (ctx : ProxyContext) (p : Proxy) (t : Turn) : Proxy :=
  (p.ready.start (t.context ctx) t.now t.request).meetAll ctx t.met

/-- Without peers, channels and a wait nothing that is met is of any account. -/
theorem meet_of_empty (hwait : p.wait = none) (hpeers : p.relay.peers = [])
    (hchannels : p.channels.entries = []) (ctx : ProxyContext) (o : Occurrence) : p.meet ctx o = p := by
  have hon (index : Nat) (f : Peer → Peer) : p.onPeer index f = p := by
    simp only [onPeer, Relay.modify_of_peers_eq_nil hpeers, hwait]
    rw [← hwait]
  cases o with
  | tick now => simp [meet, tick, hwait]
  | connected now index ip => simp [meet, connected, decided, hwait]
  | refused now index => simp [meet, refused, decided, hwait]
  | peerData peerBinder index data => exact hon ..
  | peerLost index => exact hon ..
  | peerBroken index => exact hon ..
  | datagram now role source data => simp [meet, datagram, ChannelSet.get?, hchannels]
  | peerDatagram now index role source data => simp [meet, peerDatagram, Relay.peer?, hpeers]

theorem meetAll_of_empty (hwait : p.wait = none) (hpeers : p.relay.peers = [])
    (hchannels : p.channels.entries = []) (ctx : ProxyContext) : ∀ met : List Occurrence,
    p.meetAll ctx met = p
  | [] => rfl
  | o :: met => by
    rw [meetAll, List.foldl_cons, meet_of_empty hwait hpeers hchannels]
    exact meetAll_of_empty hwait hpeers hchannels ctx met

/-! ### Answers -/

@[simp] theorem answer_complete (request : Request) (reply : Reply) (p : Proxy) :
    (p.complete request reply).answer = some (.ok reply) := rfl

@[simp] theorem wait_complete (request : Request) (reply : Reply) (p : Proxy) :
    (p.complete request reply).wait = none := rfl

theorem state_complete (request : Request) (reply : Reply) (p : Proxy) :
    (p.complete request reply).state = p.state.after request.method := by
  unfold complete
  cases hm : request.method <;> rfl

/-- But for TEARDOWN a request that is complete leaves what the session holds. -/
theorem holds_complete (hm : request.method ≠ .teardown) (reply : Reply) (p : Proxy) :
    (p.complete request reply).relay = p.relay ∧ (p.complete request reply).volume = p.volume := by
  unfold complete
  cases hm' : request.method with
  | record =>
    simp only
    split <;> exact ⟨rfl, rfl⟩
  | teardown => exact absurd hm' hm
  | _ => exact ⟨rfl, rfl⟩

theorem answer_await (ctx : ProxyContext) (now : Moment) (request : Request) (reply : Reply) (p : Proxy) :
    (p.await ctx now request reply).answer = some (.ok reply) ∨
      (p.await ctx now request reply).answer = p.answer := by
  obtain ⟨q, hkeeps, hq | ⟨_, _, _, hq⟩⟩ := await_cases ctx now request reply p
  · rw [hq]
    exact Or.inl rfl
  · rw [hq]
    exact Or.inr hkeeps.answer

/-- No connection is waited for when a request was passed on. -/
theorem wait_await_ne (ctx : ProxyContext) (now : Moment) (request request' : Request) (reply : Reply)
    (p : Proxy) (pending : List Nat) (found : List Peer) (deadline : Nat) :
    (p.await ctx now request reply).wait ≠ some (.connecting request' pending found deadline) := by
  obtain ⟨q, -, hq | ⟨_, _, _, hq⟩⟩ := await_cases ctx now request reply p <;> rw [hq] <;> simp

/-- The answer that is there is no error. -/
def NoError (p : Proxy) : Prop := ∀ e, p.answer ≠ some (.error e)

theorem NoError.await (h : p.NoError) (ctx : ProxyContext) (now : Moment) (request : Request)
    (reply : Reply) : (p.await ctx now request reply).NoError := by
  intro e
  rcases answer_await ctx now request reply p with hanswer | hanswer
  · simp [hanswer]
  · rw [hanswer]
    exact h e

theorem NoError.replicate (h : p.NoError) (ctx : ProxyContext) (now : Moment) (request : Request) :
    (p.replicate ctx now request).NoError :=
  NoError.await (p := p.withRelay (p.relay.forward request)) h ctx now request {}

theorem NoError.announceTo (h : p.NoError) (ctx : ProxyContext) (now : Moment) (request : Request)
    (found : List Peer) : (p.announceTo ctx now request found).NoError :=
  NoError.replicate (p := { p with wait := none, relay := { p.relay with peers := found } }) h ctx now
    request

/-- No error is answered after a wait. -/
theorem NoError.meet (h : p.NoError) (ctx : ProxyContext) (o : Occurrence) : (p.meet ctx o).NoError := by
  have hmeets := meets_meet ctx p o
  generalize p.meet ctx o = q at hmeets ⊢
  cases hmeets with
  | aside _ hsteady => exact fun e => hsteady.answer ▸ h e
  | connecting _ _ _ _ _ _ _ hsteady => exact fun e => hsteady.answer ▸ h e
  | connected now request pending found found' => exact h.announceTo ctx now request found'
  | answering _ _ _ _ _ _ _ hsteady => exact fun e => hsteady.answer ▸ h e
  | answered _ request reply => simp [NoError]

theorem NoError.meetAll (ctx : ProxyContext) : ∀ (met : List Occurrence) {p : Proxy}, p.NoError →
    (p.meetAll ctx met).NoError
  | [], _, h => h
  | o :: met, _, h => NoError.meetAll ctx met (h.meet ctx o)

/-- A request that is answered with an error at once has changed nothing but the channels, and those only
if it was a SETUP. -/
theorem start_of_error {e : Error} (hanswer : p.answer = none)
    (h : (p.start ctx now request).answer = some (.error e)) :
    p.start ctx now request = p.refuse e ∨ p.state = .announced ∧
      ∃ channels : ChannelSet,
        p.start ctx now request = { p with channels := channels.closeAll }.refuse e := by
  have hnoError {q : Proxy} (hq : q.answer = none) : q.NoError := by simp [NoError, hq]
  have hbegins := begins_start ctx now request p
  generalize p.start ctx now request = q at h hbegins ⊢
  cases hbegins with
  | refused e' =>
    obtain rfl : e' = e := by simpa [refuse] using h
    exact Or.inl rfl
  | undone e' channels _ hstate =>
    obtain rfl : e' = e := by simpa [refuse] using h
    exact Or.inr ⟨hstate, channels, rfl⟩
  | told reply => simp at h
  | connects deadline =>
    have hq : p.answer = some (.error e) := h
    rw [hanswer] at hq
    cases hq
  | announces =>
    exact absurd h ((hnoError (q := p.reset) hanswer).announceTo ctx now request [] e)
  | setsUp value t channels =>
    exact absurd h ((hnoError (q := p.setUpPeers ctx request channels) hanswer).await ctx now request _ e)
  | passesOn volume =>
    exact absurd h ((hnoError (q := { p with volume }) hanswer).replicate ctx now request e)

/-- **An error is the answer at once, or never.** -/
theorem error_meetAll_iff {e : Error} (hwait : p.wait = none) (hanswer : p.answer = none)
    (ctx' : ProxyContext) (met : List Occurrence) :
    ((p.start ctx now request).meetAll ctx' met).answer = some (.error e) ↔
      (p.start ctx now request).answer = some (.error e) := by
  -- an error that is there at once stays
  have hstays {e : Error} (h : (p.start ctx now request).answer = some (.error e)) :
      ((p.start ctx now request).meetAll ctx' met).answer = some (.error e) := by
    have hwait' : (p.start ctx now request).wait = none := by
      rcases start_of_error hanswer h with hp | ⟨-, channels, hp⟩ <;> rw [hp] <;> exact hwait
    rw [(keeps_meetAll ctx' met hwait').answer, h]
  refine ⟨fun h => ?_, hstays⟩
  by_cases hnone : (p.start ctx now request).NoError
  · exact absurd h (hnone.meetAll ctx' met e)
  · simp only [NoError, not_forall, not_not] at hnone
    obtain ⟨e', he'⟩ := hnone
    obtain rfl : e' = e := by simpa [hstays he'] using h
    exact he'

/-! ### How a turn ends -/

theorem Steady.trans (h : p.Steady q) (h' : q.Steady r) : p.Steady r where
  client := h'.client.trans h.client
  localEnd := h'.localEnd.trans h.localEnd
  state := h'.state.trans h.state
  channels := h'.channels.trans h.channels
  volume := h'.volume.trans h.volume
  answer := h'.answer.trans h.answer
  control := h'.control.trans h.control
  timing := h'.timing.trans h.timing
  usable peer hpeer halive := by
    obtain ⟨former, hformer, ha, hindex⟩ := h'.usable peer hpeer halive
    obtain ⟨first, hfirst, ha', hindex'⟩ := h.usable former hformer ha
    exact ⟨first, hfirst, ha', hindex'.trans hindex⟩
  relay hpeers hchannels := by
    have hrelay := h.relay hpeers hchannels
    exact (h'.relay (hrelay ▸ hpeers) (h.channels ▸ hchannels)).trans hrelay
  still := h.still.trans h'.still

/-- Without a wait nothing that is met is more than that. -/
theorem steady_meet (ctx : ProxyContext) (hwait : p.wait = none) (o : Occurrence) :
    p.Steady (p.meet ctx o) ∧ (p.meet ctx o).wait = none := by
  have hmeets := meets_meet ctx p o
  generalize p.meet ctx o = q at hmeets ⊢
  cases hmeets with
  | aside _ hsteady hw => exact ⟨hsteady, hw.trans hwait⟩
  | connecting _ _ _ _ _ _ _ _ hw => simp [hwait] at hw
  | connected _ _ _ _ _ _ hw => simp [hwait] at hw
  | answering _ _ _ _ _ _ _ _ hw => simp [hwait] at hw
  | answered _ _ _ _ _ _ _ hw => simp [hwait] at hw

theorem steady_meetAll (ctx : ProxyContext) : ∀ (met : List Occurrence) {p : Proxy}, p.wait = none →
    p.Steady (p.meetAll ctx met) ∧ (p.meetAll ctx met).wait = none
  | [], p, hwait => ⟨.refl p, hwait⟩
  | o :: met, p, hwait => by
    obtain ⟨hsteady, hwait'⟩ := steady_meet ctx hwait o
    obtain ⟨hsteady', hwait''⟩ := steady_meetAll ctx met hwait'
    exact ⟨hsteady.trans hsteady', hwait''⟩

/-- The turn of a request that is passed on: it will end with this reply and in the state after it, and it
has until then the state and the channels that it began with. -/
structure Heading (request : Request) (reply : Reply) (p q : Proxy) : Prop where
  client : q.client = p.client
  progress :
    q.wait = none ∧ q.answer = some (.ok reply) ∧ q.state = p.state.after request.method ∧
        q.channels = (if request.method = .teardown then p.channels.closeAll else p.channels) ∨
      q.state = p.state ∧ q.channels = p.channels ∧
        ((∃ members barrier deadline,
            q.wait = some (.answering request reply members barrier deadline)) ∨
          reply = {} ∧ ∃ pending found deadline,
            q.wait = some (.connecting request pending found deadline))

theorem client_complete (request : Request) (reply : Reply) (p : Proxy) :
    (p.complete request reply).client = p.client := by
  unfold complete
  cases request.method with
  | record =>
    simp only
    split <;> rfl
  | _ => rfl

theorem heading_complete (hclient : q.client = p.client) (hstate : q.state = p.state)
    (hchannels : q.channels = p.channels) : p.Heading request reply (q.complete request reply) where
  client := (client_complete request reply q).trans hclient
  progress := Or.inl ⟨rfl, rfl, by rw [state_complete, hstate], by rw [channels_complete, hchannels]⟩

theorem heading_await (hclient : q.client = p.client) (hstate : q.state = p.state)
    (hchannels : q.channels = p.channels) (ctx : ProxyContext) (now : Moment) :
    p.Heading request reply (q.await ctx now request reply) := by
  unfold await
  split
  · exact heading_complete hclient hstate hchannels
  · simp only
    split
    · exact heading_complete (q := q.withRelay q.relay.prune) hclient hstate hchannels
    · exact ⟨hclient, Or.inr ⟨hstate, hchannels, Or.inl ⟨_, _, _, rfl⟩⟩⟩

theorem heading_replicate (hclient : q.client = p.client) (hstate : q.state = p.state)
    (hchannels : q.channels = p.channels) (ctx : ProxyContext) (now : Moment) :
    p.Heading request {} (q.replicate ctx now request) :=
  heading_await (q := q.withRelay (q.relay.forward request)) hclient hstate hchannels ctx now

theorem heading_announceTo (hclient : q.client = p.client) (hstate : q.state = p.state)
    (hchannels : q.channels = p.channels) (ctx : ProxyContext) (now : Moment) (found : List Peer) :
    p.Heading request {} (q.announceTo ctx now request found) :=
  heading_replicate (q := { q with wait := none, relay := { q.relay with peers := found } }) hclient hstate
    hchannels ctx now

/-- Whatever is met, the turn heads for the same end. -/
theorem Heading.meet (h : p.Heading request reply q) (ctx : ProxyContext) (o : Occurrence) :
    p.Heading request reply (q.meet ctx o) := by
  obtain ⟨hclient, ⟨hwait, hanswer, hstate, hchannels⟩ | ⟨hstate, hchannels, hwaits⟩⟩ := h
  · obtain ⟨hsteady, hwait'⟩ := steady_meet ctx hwait o
    exact ⟨hsteady.client.trans hclient, Or.inl ⟨hwait', hsteady.answer.trans hanswer,
      hsteady.state.trans hstate, hsteady.channels.trans hchannels⟩⟩
  · have hmeets := meets_meet ctx q o
    generalize q.meet ctx o = r at hmeets ⊢
    cases hmeets with
    | aside _ hsteady hwait =>
      refine ⟨hsteady.client.trans hclient, Or.inr ⟨hsteady.state.trans hstate,
        hsteady.channels.trans hchannels, ?_⟩⟩
      rwa [hwait]
    | connecting _ _ _ _ _ _ _ hsteady hwait hwait' =>
      refine ⟨hsteady.client.trans hclient, Or.inr ⟨hsteady.state.trans hstate,
        hsteady.channels.trans hchannels, ?_⟩⟩
      rcases hwaits with ⟨_, _, _, hw⟩ | ⟨hreply, _, _, _, hw⟩
      · simp [hwait] at hw
      · obtain ⟨rfl, -⟩ := Wait.connecting.inj (Option.some.inj (hwait.symm.trans hw))
        exact Or.inr ⟨hreply, _, _, _, hwait'⟩
    | connected now _ _ _ found' _ hwait =>
      rcases hwaits with ⟨_, _, _, hw⟩ | ⟨rfl, _, _, _, hw⟩
      · simp [hwait] at hw
      · obtain ⟨rfl, -⟩ := Wait.connecting.inj (Option.some.inj (hwait.symm.trans hw))
        exact heading_announceTo hclient hstate hchannels ctx now found'
    | answering _ _ _ _ _ _ _ hsteady hwait hwait' =>
      refine ⟨hsteady.client.trans hclient, Or.inr ⟨hsteady.state.trans hstate,
        hsteady.channels.trans hchannels, ?_⟩⟩
      rcases hwaits with ⟨_, _, _, hw⟩ | ⟨-, _, _, _, hw⟩
      · obtain ⟨rfl, rfl, -⟩ := Wait.answering.inj (Option.some.inj (hwait.symm.trans hw))
        exact Or.inl ⟨_, _, _, hwait'⟩
      · simp [hwait] at hw
    | answered _ _ _ _ _ _ hsteady hwait =>
      rcases hwaits with ⟨_, _, _, hw⟩ | ⟨-, _, _, _, hw⟩
      · obtain ⟨rfl, rfl, -⟩ := Wait.answering.inj (Option.some.inj (hwait.symm.trans hw))
        exact heading_complete (hsteady.client.trans hclient) (hsteady.state.trans hstate)
          (hsteady.channels.trans hchannels)
      · simp [hwait] at hw

theorem Heading.meetAll (ctx : ProxyContext) : ∀ (met : List Occurrence) {q : Proxy},
    p.Heading request reply q → p.Heading request reply (q.meetAll ctx met)
  | [], _, h => h
  | o :: met, _, h => Heading.meetAll ctx met (h.meet ctx o)

/-- The turn is over. -/
theorem Heading.ended (h : p.Heading request reply q) (hwait : q.wait = none) :
    q.answer = some (.ok reply) ∧ q.state = p.state.after request.method ∧
      q.channels = (if request.method = .teardown then p.channels.closeAll else p.channels) := by
  rcases h.progress with ⟨-, hended⟩ | ⟨-, -, ⟨_, _, _, hw⟩ | ⟨-, _, _, _, hw⟩⟩
  · exact hended
  · simp [hwait] at hw
  · simp [hwait] at hw

/-- A wait is over when enough time has passed: first for connections, then for answers. -/
theorem exists_ticks (ctx : ProxyContext) (p : Proxy) :
    ∃ met : List Occurrence, (p.meetAll ctx met).wait = none := by
  have hanswers (p : Proxy) (hw : ∀ request pending found deadline,
      p.wait ≠ some (.connecting request pending found deadline)) :
      ∃ now, (p.tick ctx now).wait = none := by
    cases hwait : p.wait with
    | none => exact ⟨default, by simp [tick, hwait]⟩
    | some wait =>
      cases wait with
      | connecting request pending found deadline => exact absurd hwait (hw _ _ _ _)
      | answering request reply members barrier deadline =>
        exact ⟨⟨deadline, {}⟩, by simp [tick, hwait]⟩
  by_cases hw : ∃ request pending found deadline,
      p.wait = some (.connecting request pending found deadline)
  · obtain ⟨request, pending, found, deadline, hwait⟩ := hw
    have hannounced : p.tick ctx ⟨deadline, {}⟩ = p.announceTo ctx ⟨deadline, {}⟩ request found := by
      simp [tick, hwait]
    obtain ⟨now, hnow⟩ := hanswers (p.tick ctx ⟨deadline, {}⟩) fun request' pending' found' deadline' => by
      rw [hannounced]
      exact wait_await_ne ctx _ request request' {} _ pending' found' deadline'
    exact ⟨[.tick ⟨deadline, {}⟩, .tick now], hnow⟩
  · simp only [not_exists] at hw
    obtain ⟨now, hnow⟩ := hanswers p hw
    exact ⟨[.tick now], hnow⟩

end Proxy
end Raop
