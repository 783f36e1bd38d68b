/-
# The requests that are written to the peers

Requests are written to the peers when one of the sender is passed on, and at no
other time: all else that a session does writes none (`Quiet`); nor does it
connect to a peer, ANNOUNCE aside (`Still`). With a datagram go datagrams and
connections that are closed, and nothing else (`Traffic`). A request that
is passed on is written to just the peers that are usable after it, since a peer
to which it cannot be written is not (`Passed`).

Key definitions: `NoRequest`, `Silent`, `Traffic`, `Proxy.Quiet`, `Proxy.Still`, `Proxy.Passed`,
`Proxy.Hands`, `Proxy.HandedOver`.
Key theorems: `Relay.traffic_fromSender`, `Relay.traffic_fromPeer`, `Proxy.still_await`,
`Proxy.HandedOver.passed`, `Proxy.passed_forward`, `Proxy.passed_setUpPeers`.
-/
import Raop.Proofs.Proxy.PeerAnswers

namespace Raop

/-- No request is written. -/
def NoRequest (out : List Output) : Prop := ∀ index request, Output.request index request ∉ out

theorem NoRequest.append {out out' : List Output} (h : NoRequest out) (h' : NoRequest out') :
    NoRequest (out ++ out') := fun index request hmem =>
  (List.mem_append.1 hmem).elim (h index request) (h' index request)

/-- No request is written, and no connection is attempted. -/
def Silent (out : List Output) : Prop :=
  NoRequest out ∧ ∀ index address, Output.connect index address ∉ out

theorem Silent.nil : Silent [] := by simp [Silent, NoRequest]

theorem Silent.append {out out' : List Output} (h : Silent out) (h' : Silent out') :
    Silent (out ++ out') :=
  ⟨h.1.append h'.1, fun index address hmem =>
    (List.mem_append.1 hmem).elim (h.2 index address) (h'.2 index address)⟩

/-- A datagram is sent, or a connection is closed. -/
def Output.isTraffic : Output → Bool
  | datagram .. | peerDatagram .. | disconnect _ => true
  | event _ | connect .. | request .. => false

/-- Datagrams are sent and connections are closed, and that is all. -/
def Traffic (out : List Output) : Prop := ∀ o ∈ out, o.isTraffic = true

theorem Traffic.nil : Traffic [] := by simp [Traffic]

theorem Traffic.append {out out' : List Output} (h : Traffic out) (h' : Traffic out') :
    Traffic (out ++ out') := List.forall_mem_append.2 ⟨h, h'⟩

theorem Traffic.flatMap {α : Type} {xs : List α} {f : α → List Output} (h : ∀ x ∈ xs, Traffic (f x)) :
    Traffic (xs.flatMap f) := by
  intro o ho
  obtain ⟨x, hx, hout⟩ := List.mem_flatMap.1 ho
  exact h x hx o hout

theorem Traffic.silent {out : List Output} (h : Traffic out) : Silent out :=
  ⟨fun _ _ hmem => absurd (h _ hmem) (by simp [Output.isTraffic]),
    fun _ _ hmem => absurd (h _ hmem) (by simp [Output.isTraffic])⟩

namespace Relay

theorem traffic_prune (r : Relay) : Traffic r.prune.2 := List.forall_mem_map.2 fun _ _ => rfl

theorem traffic_closePeers (r : Relay) : Traffic r.closePeers.2 := List.forall_mem_map.2 fun _ _ => rfl

theorem traffic_toPeer (p : Peer) (c : Channel) (data : Bytes) : Traffic (toPeer p c data) := by
  unfold toPeer
  split <;> simp [Traffic, Output.isTraffic]

theorem traffic_toSender (channels : ChannelSet) (id : Option Nat) (data : Bytes) :
    Traffic (toSender channels id data) := by
  unfold toSender
  split
  · exact .nil
  · split <;> simp [Traffic, Output.isTraffic]

theorem traffic_broadcast (r : Relay) (role : Role) (data : Bytes) :
    Traffic (r.broadcast role data).2 := by
  refine r.traffic_prune.append (.flatMap fun p _ => ?_)
  split
  · split
    · exact traffic_toPeer _ _ _
    · exact .nil
  · exact .nil

theorem traffic_routeTiming (r : Relay) (now : Moment) (data : Bytes) :
    Traffic (r.routeTiming now data).2 := by
  unfold routeTiming
  split
  · exact .nil
  · simp only
    split
    · exact .nil
    · split
      · exact .nil
      · split
        · exact .nil
        · exact traffic_toPeer _ _ _

/-- With a datagram of the sender goes nothing but datagrams, and connections that are closed. -/
theorem traffic_fromSender (r : Relay) (now : Moment) (c : Channel) (source : Endpoint)
    (data : Bytes) : Traffic (r.fromSender now c source data).2 := by
  unfold fromSender
  split
  · exact traffic_broadcast _ _ _
  · exact traffic_broadcast _ _ _
  · unfold fromSenderTiming
    split
    · exact traffic_routeTiming _ _ _
    · split
      · exact .nil
      · simp only
        split <;> simp [Traffic, Output.isTraffic]
    · exact .nil

/-- With a datagram of the sender, peers that are not usable may be dropped. -/
theorem peers_fromSender (r : Relay) (now : Moment) (c : Channel) (source : Endpoint) (data : Bytes) :
    (r.fromSender now c source data).1.peers.Sublist r.peers := by
  unfold fromSender
  split
  · exact List.filter_sublist
  · unfold fromSenderControl
    split <;> exact List.filter_sublist
  · unfold fromSenderTiming
    split
    · unfold routeTiming
      split <;> exact .refl _
    · split
      · exact .refl _
      · simp only
        split <;> exact .refl _
    · exact .refl _

/-- With a datagram of a peer goes nothing but datagrams. -/
theorem traffic_fromPeer (r : Relay) (now : Moment) (channels : ChannelSet) (p : Peer) (c : Channel)
    (data : Bytes) : Traffic (r.fromPeer now channels p c data).2 := by
  unfold fromPeer
  split
  · exact .nil
  · unfold fromPeerControl
    simp only
    split
    · exact .flatMap fun response _ => traffic_toPeer _ _ _
    · exact traffic_toSender _ _ _
  · exact traffic_toSender _ _ _

theorem peers_fromPeer (r : Relay) (now : Moment) (channels : ChannelSet) (p : Peer) (c : Channel)
    (data : Bytes) : (r.fromPeer now channels p c data).1.peers = r.peers := by
  unfold fromPeer
  split
  · rfl
  · unfold fromPeerControl
    simp only
    split <;> rfl
  · unfold fromPeerTiming
    simp only
    split <;> rfl

end Relay

namespace Proxy

/-- No request is written. -/
def Quiet (p q : Proxy) : Prop := ∃ out, q.output = p.output ++ out ∧ NoRequest out

/-- No request is written, and no connection is attempted. -/
def Still (p q : Proxy) : Prop := ∃ out, q.output = p.output ++ out ∧ Silent out

/-- A request was passed on: it was written to just the peers that are usable. -/
structure Passed (log : Nat → List CellChange) (request : Request) (p q : Proxy) (out : List Output) :
    Prop where
  listens : Listens log q.relay.peers
  output_eq : q.output = p.output ++ out
  cseq_eq : ∀ index r, Output.request index r ∈ out → r.headers.cseq? = request.headers.cseq?
  written_iff : ∀ index, (∃ r, Output.request index r ∈ out) ↔
    ∃ peer ∈ q.relay.peers, peer.alive = true ∧ peer.index = index

variable {request : Request} {p q r : Proxy} {log : Nat → List CellChange}

theorem Quiet.refl (p : Proxy) : p.Quiet p := ⟨[], by simp, by simp [NoRequest]⟩

theorem Quiet.trans (h : p.Quiet q) (h' : q.Quiet r) : p.Quiet r := by
  obtain ⟨out, hout, hnone⟩ := h
  obtain ⟨out', hout', hnone'⟩ := h'
  exact ⟨out ++ out', by rw [hout', hout, List.append_assoc], hnone.append hnone'⟩

theorem Still.quiet (h : p.Still q) : p.Quiet q :=
  let ⟨out, hout, hsilent⟩ := h
  ⟨out, hout, hsilent.1⟩

theorem Still.refl (p : Proxy) : p.Still p := ⟨[], by simp, .nil⟩

theorem Still.trans (h : p.Still q) (h' : q.Still r) : p.Still r := by
  obtain ⟨out, hout, hsilent⟩ := h
  obtain ⟨out', hout', hsilent'⟩ := h'
  exact ⟨out ++ out', by rw [hout', hout, List.append_assoc], hsilent.append hsilent'⟩

theorem still_withRelay (p : Proxy) {result : Relay × List Output} (h : Silent result.2) :
    p.Still (p.withRelay result) := ⟨result.2, rfl, h⟩

theorem still_reset (p : Proxy) : p.Still p.reset := ⟨_, rfl, p.relay.traffic_closePeers.silent⟩

theorem still_complete (request : Request) (reply : Reply) (p : Proxy) :
    p.Still (p.complete request reply) := by
  unfold complete
  cases hm : request.method with
  | announce => exact ⟨[_], rfl, by simp [Silent, NoRequest]⟩
  | flush => exact ⟨[_], rfl, by simp [Silent, NoRequest]⟩
  | pause => exact ⟨[_], rfl, by simp [Silent, NoRequest]⟩
  | teardown => exact (still_reset p).trans ⟨[_], rfl, by simp [Silent, NoRequest]⟩
  | record =>
    by_cases hstate : p.state = .recording
    · simp only [hstate, if_true]
      exact .refl p
    · simp only [hstate, if_false]
      exact ⟨[_], rfl, by simp [Silent, NoRequest]⟩
  | _ => exact .refl p

theorem still_await (ctx : ProxyContext) (now : Moment) (request : Request) (reply : Reply) (p : Proxy) :
    p.Still (p.await ctx now request reply) := by
  unfold await
  split
  · exact still_complete request reply p
  · refine (still_withRelay p p.relay.traffic_prune.silent).trans ?_
    simp only
    split
    · exact still_complete ..
    · exact .refl _

/-! ### Datagrams -/

theorem still_datagram (p : Proxy) (now : Moment) (role : Role) (source : Endpoint) (data : Bytes) :
    p.Still (p.datagram now role source data) := by
  unfold datagram
  split
  · exact .refl p
  · split
    · exact still_withRelay p (Relay.traffic_fromSender _ _ _ _ _).silent
    · exact .refl p

theorem peers_datagram (p : Proxy) (now : Moment) (role : Role) (source : Endpoint) (data : Bytes) :
    (p.datagram now role source data).relay.peers.Sublist p.relay.peers := by
  unfold datagram
  split
  · exact .refl _
  · split
    · exact Relay.peers_fromSender ..
    · exact .refl _

theorem still_peerDatagram (p : Proxy) (now : Moment) (index : Nat) (role : Role) (source : Endpoint)
    (data : Bytes) : p.Still (p.peerDatagram now index role source data) := by
  unfold peerDatagram
  split
  · exact .refl p
  · split
    · exact .refl p
    · split
      · exact still_withRelay p (Relay.traffic_fromPeer _ _ _ _ _ _).silent
      · exact .refl p

theorem peers_peerDatagram (p : Proxy) (now : Moment) (index : Nat) (role : Role) (source : Endpoint)
    (data : Bytes) : (p.peerDatagram now index role source data).relay.peers = p.relay.peers := by
  unfold peerDatagram
  split
  · rfl
  · split
    · rfl
    · split
      · exact Relay.peers_fromPeer ..
      · rfl

/-! ### Requests that are passed on -/

theorem Passed.trans {out : List Output} (h : q.Passed log request r out) (hq : p.Quiet q) :
    ∃ out, p.Passed log request r out := by
  obtain ⟨before, hbefore, hnone⟩ := hq
  have hmem (index : Nat) (r : Request) :
      Output.request index r ∈ before ++ out ↔ Output.request index r ∈ out := by
    simp [hnone index r]
  refine ⟨before ++ out, h.listens, by rw [h.output_eq, hbefore, List.append_assoc], ?_, ?_⟩
  · intro index r hr
    exact h.cseq_eq index r ((hmem index r).1 hr)
  · intro index
    simp only [hmem]
    exact h.written_iff index

/-- What is done to each peer for a request: something is written to the peer, which stays as it is, or
the peer is not usable any more. -/
def Hands (carries : Request → Prop) (hand : Peer → Peer × List Output) : Prop :=
  ∀ peer, (∃ out, (hand peer).2 = [.request peer.index out] ∧ peer.Same (hand peer).1 ∧ carries out) ∨
    ((hand peer).1.index = peer.index ∧ (hand peer).1.alive = false ∧ Silent (hand peer).2)

/-- This is done to every usable peer, and the others are dropped. -/
structure HandedOver (hand : Peer → Peer × List Output) (p q : Proxy) : Prop where
  peers : q.relay.peers = (p.relay.peers.filter (·.alive)).map fun peer => (hand peer).1
  output : q.output = p.output ++ (p.relay.prune.2 ++
    (p.relay.peers.filter (·.alive)).flatMap fun peer => (hand peer).2)

theorem HandedOver.passed {carries : Request → Prop} {hand : Peer → Peer × List Output}
    (hover : p.HandedOver hand q) (hhand : Hands carries hand)
    (hcarries : ∀ out, carries out → out.headers.cseq? = request.headers.cseq?)
    (h : Listens log p.relay.peers) : ∃ out, p.Passed log request q out := by
  obtain ⟨hpeers, hout⟩ := hover
  -- what is written is written to a peer that was usable
  have hwritten (index : Nat) (out : Request) : Output.request index out ∈ p.relay.prune.2 ++
        (p.relay.peers.filter (·.alive)).flatMap (fun peer => (hand peer).2) ↔
      ∃ peer ∈ p.relay.peers.filter (·.alive), Output.request index out ∈ (hand peer).2 := by
    simp [Relay.prune]
  refine ⟨_, ?_, hout, fun index out hmem => ?_, fun index => ⟨?_, ?_⟩⟩
  · rw [hpeers]
    refine (h.sublist List.filter_sublist).map _ (fun peer => ?_) fun peer halive => ?_
    · rcases hhand peer with ⟨_, -, hsame, -⟩ | ⟨hindex, -, -⟩
      · exact hsame.index
      · exact hindex
    · rcases hhand peer with ⟨_, -, hsame, -⟩ | ⟨-, hdead, -⟩
      · exact ⟨hsame.alive ▸ halive, hsame.cell⟩
      · rw [hdead] at halive
        cases halive
  · obtain ⟨peer, -, hmem⟩ := (hwritten index out).1 hmem
    rcases hhand peer with ⟨out', hout', -, hcarried⟩ | ⟨-, -, hsilent⟩
    · rw [hout', List.mem_singleton, Output.request.injEq] at hmem
      rw [hmem.2, hcarries out' hcarried]
    · exact absurd hmem (hsilent.1 index out)
  · rintro ⟨out, hmem⟩
    obtain ⟨peer, hpeer, hmem⟩ := (hwritten index out).1 hmem
    rcases hhand peer with ⟨out', hout', hsame, -⟩ | ⟨-, -, hsilent⟩
    · rw [hout', List.mem_singleton, Output.request.injEq] at hmem
      refine ⟨(hand peer).1, hpeers ▸ List.mem_map_of_mem hpeer, ?_, hsame.index.trans hmem.1.symm⟩
      rw [hsame.alive]
      exact (List.mem_filter.1 hpeer).2
    · exact absurd hmem (hsilent.1 index out)
  · rintro ⟨peer, hpeer, halive, rfl⟩
    rw [hpeers] at hpeer
    obtain ⟨before, hbefore, rfl⟩ := List.mem_map.1 hpeer
    rcases hhand before with ⟨out, hout', hsame, -⟩ | ⟨-, hdead, -⟩
    · refine ⟨out, (hwritten _ out).2 ⟨before, hbefore, ?_⟩⟩
      rw [hout', hsame.index]
      exact List.mem_singleton_self _
    · rw [hdead] at halive
      cases halive

/-- A request is written to a peer as it is. -/
def forwarding (request : Request) (peer : Peer) : Peer × List Output :=
  ((peer.send request).2, Relay.written (peer.send request).2.index (peer.send request).1)

theorem hands_forwarding (request : Request) : Hands (· = request) (forwarding request) := by
  intro peer
  rcases peer.send_cases request with hs | ⟨e, hs⟩
  · exact Or.inl ⟨request, by simp [forwarding, hs, Relay.written],
      by simpa [forwarding, hs] using Peer.Same.refl peer, rfl⟩
  · exact Or.inr (by simp [forwarding, hs, Relay.written, Silent, NoRequest])

theorem handedOver_forward (request : Request) (p : Proxy) :
    p.HandedOver (forwarding request) (p.withRelay (p.relay.forward request)) := by
  constructor
  · simp [forwarding, withRelay, put, Relay.forward, Relay.prune, List.map_map]
  · simp [forwarding, withRelay, put, Relay.forward, Relay.prune, List.flatMap_map]

/-- A request is written to every usable peer. -/
theorem passed_forward (h : Listens log p.relay.peers) (request : Request) :
    ∃ out, p.Passed log request (p.withRelay (p.relay.forward request)) out :=
  (handedOver_forward request p).passed (hands_forwarding request) (fun _ heq => by rw [heq]) h

/-- A SETUP is written to a peer with a Transport of its own. -/
theorem hands_handed (binder : Nat → Binder) (request : Request) :
    Hands (fun out => ∃ value, out = request.withHeader "Transport" value)
      (Relay.handed binder request) := by
  intro peer
  have hindex := (Peer.samePlace_setup (binder peer.index) request peer).index
  cases hsetup : peer.setup (binder peer.index) request with
  | mk result peer' =>
    rw [hsetup] at hindex
    cases result with
    | error e =>
      refine Or.inr ?_
      simp only [Relay.handed, hsetup]
      exact ⟨hindex, rfl, by simp [Silent, NoRequest]⟩
    | ok out =>
      obtain ⟨hsame, hvalue⟩ := Peer.same_of_setup hsetup
      refine Or.inl ⟨out, ?_, ?_, hvalue⟩
      · simp only [Relay.handed, hsetup, hsame.index]
      · simpa only [Relay.handed, hsetup] using hsame

theorem handedOver_setUpPeers (ctx : ProxyContext) (request : Request) (channels : ChannelSet)
    (p : Proxy) :
    p.HandedOver (Relay.handed ctx.peerBinder request) (p.setUpPeers ctx request channels) := by
  constructor <;> simp [setUpPeers, withRelay, put, Relay.setup_eq, Relay.prune]

/-- A SETUP is written to every usable peer, as its own. -/
theorem passed_setUpPeers (h : Listens log p.relay.peers) (ctx : ProxyContext) (request : Request)
    (channels : ChannelSet) : ∃ out, p.Passed log request (p.setUpPeers ctx request channels) out := by
  refine (handedOver_setUpPeers ctx request channels p).passed (hands_handed ctx.peerBinder request)
    (fun out hout => ?_) h
  obtain ⟨value, rfl⟩ := hout
  unfold Headers.cseq? Request.withHeader
  rw [Headers.get?_insert_of_ne (by decide)]

end Proxy
end Raop
