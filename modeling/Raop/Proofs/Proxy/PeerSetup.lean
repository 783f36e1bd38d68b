/-
# The SETUP that a peer is given

Each peer is given the SETUP of the sender with ports of its own. Of several
options of a key the first one is changed: the first control port is the port
of the control channel that was opened toward the peer, the first timing port
that of its timing channel, and the options are as they were otherwise, in
their order (`getElem?_facing`). So a port that the sender asks for a second
time goes to the peers as the sender put it. A peer whose channels cannot be
opened is closed and given nothing.

Key definitions: `Peer.own`, `Peer.Opened`.
Key theorems: `Transport.getElem?_replaceIn?`, `Peer.getElem?_facing`, `Peer.facing_eq_map_own_iff`,
`Peer.setup_eq_ok`, `Relay.request_of_setup`, `Proxy.forwarded_transport`.
-/
import Raop.Proofs.Player.Invariant
import Raop.Proofs.Proxy.Run

namespace Raop

open Text

namespace Transport

variable {key value : String}

theorem key_withValue (o : TransportOption) (value : String) : (o.withValue value).key = o.key := rfl

/-- The first option of a key has the new value, and no other option is changed. -/
theorem getElem?_replaceIn? (key value : String) : ∀ (os : List TransportOption) (n : Nat),
    ((replaceIn? key value os).getD os)[n]? = os[n]?.map fun o =>
      if o.key = key ∧ key ∉ (os.map (·.key)).take n then o.withValue value else o
  | [], n => by simp [replaceIn?]
  | o :: os, n => by
    by_cases h : o.key = key
    · rw [replaceIn?, if_pos h]
      cases n with
      | zero => simp [h]
      | succ n => simp [h]
    · have ih := getElem?_replaceIn? key value os
      have htail : (replaceIn? key value (o :: os)).getD (o :: os) =
          o :: (replaceIn? key value os).getD os := by
        rw [replaceIn?, if_neg h]
        cases replaceIn? key value os <;> rfl
      rw [htail]
      cases n with
      | zero => simp [h]
      | succ n =>
        rw [List.getElem?_cons_succ, List.getElem?_cons_succ, ih n]
        have hfront : key ∈ ((o :: os).map (·.key)).take (n + 1) ↔ key ∈ (os.map (·.key)).take n := by
          simp [Ne.symm h]
        simp only [hfront]

/-- A changed value leaves the keys alone. -/
theorem map_key_replaceIn? (key value : String) (os : List TransportOption) :
    ((replaceIn? key value os).getD os).map (·.key) = os.map (·.key) := by
  refine List.ext_getElem? fun n => ?_
  rw [List.getElem?_map, getElem?_replaceIn?, List.getElem?_map, Option.map_map]
  congr 1
  funext o
  simp only [Function.comp_apply]
  split <;> rfl

theorem options_replace? (t : Transport) :
    ((t.replace? key value).getD t).options = (replaceIn? key value t.options).getD t.options := by
  unfold replace?
  cases replaceIn? key value t.options <;> rfl

end Transport

namespace Peer

/-! ### The options -/

/-- An option with the port of the peer's own channel, if it names one. -/
def own (control timing : UInt16) (o : TransportOption) : TransportOption :=
  match Negotiation.roleOf? o.key with
  | some .control => o.withValue (natText control.toNat)
  | some .timing => o.withValue (natText timing.toNat)
  | _ => o

/-- The first option of each key has the peer's own port, and the others are those of the sender. -/
theorem getElem?_facing (t : Transport) (control timing : UInt16) (n : Nat) :
    (facing t control timing).options[n]? = t.options[n]?.map fun o =>
      if o.key ∈ (t.options.map (·.key)).take n then o else own control timing o := by
  have hne : Transport.timingPort ≠ Transport.controlPort := by decide
  unfold facing
  simp only
  rw [Transport.options_replace?, Transport.getElem?_replaceIn?, Transport.options_replace?,
    Transport.map_key_replaceIn?, Transport.getElem?_replaceIn?, Option.map_map]
  congr 1
  funext o
  simp only [Function.comp_apply, own]
  generalize (t.options.map (·.key)).take n = front
  by_cases hc : o.key = Transport.controlPort
  · have hrole : Negotiation.roleOf? o.key = some .control := by rw [hc]; decide
    rw [hrole, hc]
    by_cases hf : Transport.controlPort ∈ front
    · simp [hf, hc, hne.symm]
    · simp [hf, hc, hne.symm, Transport.key_withValue]
  · by_cases ht : o.key = Transport.timingPort
    · have hrole : Negotiation.roleOf? o.key = some .timing := by rw [ht]; decide
      rw [hrole, ht]
      by_cases hf : Transport.timingPort ∈ front
      · simp [hf, ht, hne]
      · simp [hf, ht, hne]
    · have hrole : Negotiation.roleOf? o.key = none := by simp [Negotiation.roleOf?, hc, ht]
      simp [hrole, hc, ht]

theorem map_key_facing (t : Transport) (control timing : UInt16) :
    (facing t control timing).options.map (·.key) = t.options.map (·.key) := by
  unfold facing
  simp only
  rw [Transport.options_replace?, Transport.map_key_replaceIn?, Transport.options_replace?,
    Transport.map_key_replaceIn?]

/-- What a peer is given can be read by it. -/
theorem readable_facing {t : Transport} (h : t.Readable) (control timing : UInt16) :
    (facing t control timing).Readable := by
  intro o ho
  obtain ⟨n, hn⟩ := List.mem_iff_getElem?.1 ho
  rw [getElem?_facing, Option.map_eq_some_iff] at hn
  obtain ⟨a, ha, rfl⟩ := hn
  have hreadable : a.Readable := h a (List.mem_of_getElem? ha)
  split
  · exact hreadable
  · unfold own
    split
    · exact TransportOption.readable_withNumber hreadable.isName_key _
    · exact TransportOption.readable_withNumber hreadable.isName_key _
    · exact hreadable

/-! ### The channels -/

/-- The peer has opened a control and a timing channel, and uses them. -/
structure Opened (p : Peer) (control timing : Channel) : Prop where
  control_mem : control ∈ p.channels.entries
  control_role : control.role = .control
  control_open : control.isOpen = true
  control_used : p.handles.lookup .control = some control.id
  timing_mem : timing ∈ p.channels.entries
  timing_role : timing.role = .timing
  timing_open : timing.isOpen = true
  timing_used : p.handles.lookup .timing = some timing.id

variable {binder : Binder} {request out : Request} {p q : Peer} {control timing : Channel}

theorem opened_of_openChannels (h : p.openChannels binder = (.ok (control, timing), q)) :
    q.Opened control timing ∧ q.index = p.index ∧ q.alive = p.alive ∧ q.broken = p.broken := by
  unfold openChannels at h
  simp only at h
  split at h
  · cases h
  · next c channels hc =>
    split at h
    · cases h
    · next d channels' hd =>
      obtain ⟨⟨rfl, rfl⟩, rfl⟩ : (c = control ∧ d = timing) ∧ _ = q := by simpa using h
      obtain ⟨hcrole, hcopen, hcentries⟩ := ChannelSet.openRole_eq_ok hc
      obtain ⟨hdrole, hdopen, hdentries⟩ := ChannelSet.openRole_eq_ok hd
      have hcmem : c ∈ channels'.entries := by
        rw [hdentries, List.mem_append]
        refine Or.inl (ChannelSet.mem_closeRole ?_ (by simp [hcrole]))
        simp [hcentries]
      have hdmem : d ∈ channels'.entries := by simp [hdentries]
      have hne : (Role.control == Role.timing) = false := by decide
      refine ⟨⟨hcmem, hcrole, hcopen, ?_, hdmem, hdrole, hdopen, ?_⟩, rfl, rfl, rfl⟩
      · simp [use, hcrole, hdrole, List.lookup_cons, hne]
      · simp [use, hdrole]

/-- A SETUP that a peer is given names the channels that were opened for it. -/
theorem setup_eq_ok (h : p.setup binder request = (.ok out, q)) :
    ∃ value t control timing, request.headers.transport? = some value ∧
      Transport.parse value = .ok t ∧ q.Opened control timing ∧
      out = request.withHeader "Transport" (facing t control.port timing.port).render ∧
      q.index = p.index ∧ q.alive = p.alive := by
  unfold setup at h
  split at h
  · cases h
  · next value hvalue =>
    split at h
    · cases h
    · next t ht =>
      split at h
      · cases h
      · next control timing r hopen =>
        obtain ⟨hopened, hindex, halive, -⟩ := opened_of_openChannels hopen
        unfold send at h
        split at h
        · cases h
        · obtain ⟨rfl, rfl⟩ : _ = out ∧ r = q := by simpa using h
          exact ⟨value, t, control, timing, hvalue, ht, hopened, rfl, hindex, halive⟩

/-- A peer that can be written to is given the SETUP once its channels are open. -/
theorem setup_of_openChannels {value : String} {t : Transport}
    (hvalue : request.headers.transport? = some value) (ht : Transport.parse value = .ok t)
    (hbroken : p.broken = false) (h : p.openChannels binder = (.ok (control, timing), q)) :
    ∃ out, p.setup binder request = (.ok out, q) := by
  obtain ⟨-, -, -, hq⟩ := opened_of_openChannels h
  unfold setup
  simp only [hvalue, ht, h, send, hq, hbroken]
  exact ⟨_, rfl⟩

end Peer

namespace Relay

variable {binder : Nat → Binder} {request out : Request} {r : Relay} {index : Nat}

/-- A peer at a SETUP: it is given one, or closed. -/
def handed (binder : Nat → Binder) (request : Request) (p : Peer) : Peer × List Output :=
  match p.setup (binder p.index) request with
  | (.ok out, q) => (q, [.request q.index out])
  | (.error _, q) => (q.lose, [.disconnect q.index])

theorem setup_eq (binder : Nat → Binder) (request : Request) (r : Relay) :
    r.setup binder request =
      ({ r with peers := r.prune.1.peers.map fun p => (handed binder request p).1 },
        r.prune.2 ++ r.prune.1.peers.flatMap fun p => (handed binder request p).2) := by
  simp only [setup, List.map_map, List.flatMap_map]
  congr 1
  · congr 1
    refine List.map_congr_left fun p _ => ?_
    simp only [Function.comp, handed]
    rcases p.setup (binder p.index) request with ⟨_ | _, q⟩ <;> rfl
  · congr 1
    refine List.flatMap_congr fun p _ => ?_
    simp only [Function.comp, handed]
    rcases p.setup (binder p.index) request with ⟨_ | _, q⟩ <;> rfl

/-- What is written for a SETUP is what a peer was given that is still there. -/
theorem request_of_setup (h : Output.request index out ∈ (r.setup binder request).2) :
    ∃ p ∈ r.peers, ∃ q ∈ (r.setup binder request).1.peers, p.alive = true ∧ q.index = index ∧
      p.setup (binder p.index) request = (.ok out, q) := by
  simp only [setup_eq, prune, List.mem_append, List.mem_map, List.mem_flatMap, List.mem_filter] at h ⊢
  rcases h with ⟨p, -, hp⟩ | ⟨p, hp, hout⟩
  · cases hp
  · refine ⟨p, hp.1, (handed binder request p).1, ⟨p, hp, rfl⟩, hp.2, ?_⟩
    unfold handed at hout ⊢
    split at hout
    · next out' q hsetup =>
      obtain ⟨rfl, rfl⟩ : index = q.index ∧ out = out' := by simpa using hout
      exact ⟨rfl, hsetup⟩
    · simp at hout

/-- A usable peer whose channels open is given the SETUP. -/
theorem request_mem_setup {p q : Peer} {control timing : Channel} {value : String} {t : Transport}
    (hvalue : request.headers.transport? = some value) (ht : Transport.parse value = .ok t)
    (hp : p ∈ r.peers) (halive : p.alive = true) (hbroken : p.broken = false)
    (hopen : p.openChannels (binder p.index) = (.ok (control, timing), q)) :
    ∃ out, Output.request p.index out ∈ (r.setup binder request).2 := by
  obtain ⟨out, hout⟩ := Peer.setup_of_openChannels hvalue ht hbroken hopen
  have hindex := (Peer.opened_of_openChannels hopen).2.1
  refine ⟨out, ?_⟩
  simp only [setup_eq, prune, List.mem_append, List.mem_flatMap, List.mem_filter]
  refine Or.inr ⟨p, ⟨hp, halive⟩, ?_⟩
  simp [handed, hout, hindex]

end Relay

/-- A request as it is forwarded to a peer with these ports: with another transport, of which only the
first option of each key is changed. -/
structure Forwarded (request out : Request) (sent given : Transport) (control timing : UInt16) : Prop where
  request_eq : out = request.withHeader "Transport" given.render
  transport : out.headers.transport? = some given.render
  parse : Transport.parse given.render = .ok given
  keys : given.options.map (·.key) = sent.options.map (·.key)
  options : ∀ n, given.options[n]? = sent.options[n]?.map fun o =>
    if o.key ∈ (sent.options.map (·.key)).take n then o else Peer.own control timing o

theorem forwarded_facing (request : Request) {sent : Transport} (h : sent.Readable)
    (control timing : UInt16) :
    Forwarded request (request.withHeader "Transport" (Peer.facing sent control timing).render) sent
      (Peer.facing sent control timing) control timing where
  request_eq := rfl
  transport := Headers.get?_insert_self ..
  parse := Transport.parse_render (Peer.readable_facing h control timing)
  keys := Peer.map_key_facing sent control timing
  options := Peer.getElem?_facing sent control timing

/-- Every port is the peer's own just if those of a repeated key are so by themselves. -/
theorem Forwarded.all_own_iff {request out : Request} {sent given : Transport}
    {control timing : UInt16} (h : Forwarded request out sent given control timing) :
    given.options = sent.options.map (Peer.own control timing) ↔
      ∀ n o, sent.options[n]? = some o → o.key ∈ (sent.options.map (·.key)).take n →
        Peer.own control timing o = o := by
  constructor
  · intro hall n o ho hmem
    have hn := h.options n
    rw [hall, List.getElem?_map, ho, Option.map_some, Option.map_some, if_pos hmem] at hn
    exact Option.some.inj hn
  · intro hown
    refine List.ext_getElem? fun n => ?_
    rw [h.options n, List.getElem?_map]
    refine Option.map_congr fun o ho => ?_
    split
    · next hmem => exact (hown n o ho hmem).symm
    · rfl

namespace Proxy

variable {ctx : ProxyContext} {now : Moment} {request : Request} {p : Proxy}

/-- The wait for a SETUP writes no request, and keeps the peers that are usable. -/
theorem await_setup (ctx : ProxyContext) (now : Moment) (hm : request.method = .setup) (reply : Reply)
    (p : Proxy) :
    ∃ dropped, (p.await ctx now request reply).output = p.output ++ dropped ∧
      (∀ index out, Output.request index out ∉ dropped) ∧
      ∀ peer ∈ p.relay.peers, peer.alive = true →
        peer ∈ (p.await ctx now request reply).relay.peers := by
  have hcomplete (q : Proxy) : (q.complete request reply).output = q.output ∧
      (q.complete request reply).relay = q.relay := by
    unfold complete
    rw [hm]
    exact ⟨rfl, rfl⟩
  have hprune : ∀ index out, Output.request index out ∉ p.relay.prune.2 := by
    simp [Relay.prune]
  have hkept : ∀ peer ∈ p.relay.peers, peer.alive = true → peer ∈ p.relay.prune.1.peers :=
    fun peer hp ha => List.mem_filter.2 ⟨hp, ha⟩
  unfold await
  split
  · rw [(hcomplete p).1, (hcomplete p).2]
    exact ⟨[], by simp, by simp, fun _ hp _ => hp⟩
  · refine ⟨p.relay.prune.2, ?_, hprune, fun peer hp ha => ?_⟩
    · simp only
      split
      · exact (hcomplete _).1
      · rfl
    · simp only
      split
      · rw [(hcomplete _).2]
        exact hkept peer hp ha
      · exact hkept peer hp ha

/-- What a SETUP puts out that is accepted: what the relay, which knows the channels to the sender by
then and has the same peers, hands to them, and no further request. -/
theorem output_setup (now : Moment) {value : String} {answer : Transport} {channels : ChannelSet}
    (hm : request.method = .setup) (hstate : p.state = .announced)
    (hvalue : request.headers.transport? = some value)
    (hneg : Negotiation.negotiate (ChannelSet.opener ctx.binder ctx.config.localPorts p.localEnd.ip)
      p.client.ip value p.channels = (.ok answer, channels)) :
    ∃ relay : Relay, ∃ dropped, relay.peers = p.relay.peers ∧
      (p.start ctx now request).output =
        p.output ++ ((relay.setup ctx.peerBinder request).2 ++ dropped) ∧
      (∀ index out, Output.request index out ∉ dropped) ∧
      ∀ peer ∈ (relay.setup ctx.peerBinder request).1.peers, peer.alive = true →
        peer ∈ (p.start ctx now request).relay.peers := by
  obtain ⟨relay, hpeers, hset⟩ : ∃ relay : Relay, relay.peers = p.relay.peers ∧
      p.setUpPeers ctx request channels =
        { p with channels }.withRelay (relay.setup ctx.peerBinder request) :=
    ⟨{ p.relay with
      control := (channels.get? .control).map Channel.id
      timing := (channels.get? .timing).map Channel.id }, rfl, rfl⟩
  have hstart : p.start ctx now request =
      (p.setUpPeers ctx request channels).await ctx now request (setupReply answer) := by
    unfold start
    rw [hm]
    exact setup_of_negotiate hm hstate hvalue hneg
  obtain ⟨dropped, houtput, hdropped, hkept⟩ :=
    await_setup ctx now hm (setupReply answer) (p.setUpPeers ctx request channels)
  rw [← hstart, hset] at houtput hkept
  refine ⟨relay, dropped, hpeers, ?_, hdropped, hkept⟩
  rw [houtput, ← List.append_assoc]
  rfl

/-- **What the peers are given for a SETUP that is accepted.** Every usable peer whose channels open is
given the request, and each one that is given it gets the transport of the sender with the ports of its
own channels in the first option of each key; in all of them just if the ports of a repeated key were
its own already. -/
theorem forwarded_transport {value : String} {answer : Transport} {channels : ChannelSet}
    (hm : request.method = .setup) (hstate : p.state = .announced)
    (hvalue : request.headers.transport? = some value)
    (hneg : Negotiation.negotiate (ChannelSet.opener ctx.binder ctx.config.localPorts p.localEnd.ip)
      p.client.ip value p.channels = (.ok answer, channels)) :
    ∃ sent new, Transport.parse value = .ok sent ∧
      (p.start ctx now request).output = p.output ++ new ∧
      (∀ peer ∈ p.relay.peers, peer.alive = true → peer.broken = false →
        (∃ opened, (peer.openChannels (ctx.peerBinder peer.index)).1 = .ok opened) →
        ∃ out, Output.request peer.index out ∈ new) ∧
      ∀ index out, Output.request index out ∈ new →
        ∃ peer ∈ (p.start ctx now request).relay.peers, ∃ control timing given,
          peer.index = index ∧ peer.Opened control timing ∧
          Forwarded request out sent given control.port timing.port ∧
          (given.options = sent.options.map (Peer.own control.port timing.port) ↔
            ∀ n o, sent.options[n]? = some o → o.key ∈ (sent.options.map (·.key)).take n →
              Peer.own control.port timing.port o = o) := by
  obtain ⟨sent, hsent⟩ := Negotiation.parse_of_negotiate hneg
  obtain ⟨relay, dropped, hpeers, houtput, hdropped, hkept⟩ :=
    output_setup now hm hstate hvalue hneg
  refine ⟨sent, (relay.setup ctx.peerBinder request).2 ++ dropped, hsent, houtput, ?_, ?_⟩
  · rintro peer hp halive hbroken ⟨⟨control, timing⟩, hopen⟩
    obtain ⟨out, hout⟩ := Relay.request_mem_setup hvalue hsent (hpeers ▸ hp) halive hbroken
      (Prod.ext hopen rfl)
    exact ⟨out, List.mem_append_left _ hout⟩
  · intro index out hout
    rcases List.mem_append.1 hout with hout | hout
    · obtain ⟨peer, hp, q, hq, halive, hindex, hsetup⟩ := Relay.request_of_setup hout
      obtain ⟨value', sent', control, timing, hvalue', hsent', hopened, rfl, -, hqalive⟩ :=
        Peer.setup_eq_ok hsetup
      obtain rfl : value = value' := Option.some.inj (hvalue.symm.trans hvalue')
      obtain rfl : sent = sent' := Except.ok.inj (hsent.symm.trans hsent')
      have hforwarded := forwarded_facing request (Transport.readable_of_parse hsent)
        control.port timing.port
      exact ⟨q, hkept q hq (hqalive.trans halive), control, timing, _, hindex, hopened, hforwarded,
        hforwarded.all_own_iff⟩
    · exact absurd hout (hdropped index out)

/-- A proxy with one peer. -/
def peeredContext : ProxyContext where
  config := { peers := [⟨"10.0.0.2", 5000⟩] }
  binder := .successive 6000 none true
  peerBinder _ := .successive 7000 none true

/-- The peer once it is connected. -/
def peeredPeer : Peer :=
  { index := 0, address := ⟨"10.0.0.2", 5000⟩, ip := default
    ports := peeredContext.config.peerPorts 0 }

/-- The proxy once the peer heard of a stream, the answer taken. -/
def peeredAfterAnnounce : Proxy :=
  { ((ofClient peeredContext default default).start peeredContext default
      PlayerSession.announceLossless).meet peeredContext (.connected default 0 default) with
    answer := none, output := [] }

/-- The proxy after a SETUP. -/
def peeredAfterSetup (transport : String) : Proxy :=
  peeredAfterAnnounce.start peeredContext default (setupWith transport)

/-- Both ports asked for once. -/
def peeredTransport : Transport :=
  ⟨[⟨"timing_port", "6002"⟩, ⟨"mode", "record"⟩, ⟨"control_port", "6001"⟩]⟩

theorem forwarded_peeredTransport :
    ∃ out, Output.request 0 out ∈ (peeredAfterSetup peeredTransport.render).output ∧
      ∃ peer ∈ (peeredAfterSetup peeredTransport.render).relay.peers, ∃ control timing given,
        peer.Opened control timing ∧ out.headers.transport? = some (Transport.render given) ∧
        given.options = peeredTransport.options.map (Peer.own control.port timing.port) := by
  have hparse : Transport.parse peeredTransport.render = .ok peeredTransport := by decide +kernel
  have hopen : (peeredPeer.openChannels (peeredContext.peerBinder 0)).1.toOption.isSome = true := by
    decide +kernel
  have hrun : peeredAfterAnnounce.state = .announced ∧
      peeredAfterAnnounce.relay.peers = [peeredPeer] ∧
      (Negotiation.negotiate (ChannelSet.opener peeredContext.binder peeredContext.config.localPorts
        peeredAfterAnnounce.localEnd.ip) peeredAfterAnnounce.client.ip peeredTransport.render
        peeredAfterAnnounce.channels).1 = .ok ⟨[⟨"timing_port", "6000"⟩, ⟨"mode", "record"⟩,
          ⟨"control_port", "6001"⟩, ⟨"server_port", "6002"⟩]⟩ := by decide +kernel
  obtain ⟨hstate, hpeers, hneg⟩ := hrun
  obtain ⟨sent, new, hsent, houtput, hgiven, hforwarded⟩ :=
    @forwarded_transport peeredContext default (setupWith peeredTransport.render)
      peeredAfterAnnounce peeredTransport.render _ _ rfl hstate rfl (Prod.ext hneg rfl)
  obtain rfl : peeredTransport = sent := Except.ok.inj (hparse.symm.trans hsent)
  obtain ⟨opened, hopened⟩ : ∃ opened,
      (peeredPeer.openChannels (peeredContext.peerBinder 0)).1 = .ok opened := by
    cases h : (peeredPeer.openChannels (peeredContext.peerBinder 0)).1 with
    | error e => simp [h, Except.toOption] at hopen
    | ok opened => exact ⟨opened, rfl⟩
  obtain ⟨out, hout⟩ := hgiven peeredPeer (by simp [hpeers]) rfl rfl ⟨opened, hopened⟩
  obtain ⟨peer, hmem, control, timing, given, -, huses, hfields, hown⟩ := hforwarded 0 out hout
  refine ⟨out, ?_, peer, hmem, control, timing, given, huses, hfields.transport, hown.2 ?_⟩
  · rw [peeredAfterSetup, houtput]
    exact List.mem_append_right _ hout
  · intro n o ho hkey
    rcases n with _ | _ | _ | n <;> simp [peeredTransport] at ho <;> subst ho <;>
      exact absurd hkey (by decide)

/-- The peer has one control channel, and is told of the sender's second control port. -/
theorem sender_port_forwarded_of_repeated_option :
    Reachable peeredContext peeredAfterAnnounce ∧
      (∃ out, Output.request 0 out ∈
          (peeredAfterSetup "RTP/AVP/UDP;control_port=6001;control_port=6003").output ∧
        out.headers.transport? = some "RTP/AVP/UDP;control_port=7000;control_port=6003") ∧
      ∀ peer ∈ (peeredAfterSetup "RTP/AVP/UDP;control_port=6001;control_port=6003").relay.peers,
        ∀ c ∈ peer.channels.entries, c.port ≠ 6003 := by
  refine ⟨.outputTaken (.answerTaken (.met (.request (.start _ _) rfl rfl peeredContext.binder
    peeredContext.peerBinder _ _) _)), ?_⟩
  generalize htransport : "RTP/AVP/UDP;control_port=6001;control_port=6003" = transport
  have hrun : ((peeredAfterSetup transport).output.any fun o => match o with
        | .request 0 out =>
          out.headers.transport? = some "RTP/AVP/UDP;control_port=7000;control_port=6003"
        | _ => false) = true ∧
      ∀ peer ∈ (peeredAfterSetup transport).relay.peers, ∀ c ∈ peer.channels.entries,
        c.port ≠ 6003 := by
    subst htransport
    decide +kernel
  obtain ⟨o, ho, hout⟩ := List.any_eq_true.1 hrun.1
  split at hout
  · next out => exact ⟨⟨out, ho, by simpa using hout⟩, hrun.2⟩
  · cases hout

end Proxy
end Raop
