/-
# The local ports of the peers

The channels that face a peer are bound to ports of the peer's own. Its block
starts four ports above that of the peer in front of it and its roles follow the
spare port in order, but no port is above the highest one: a block that does not
end by then has its last ports fall together, with each other and with those of
every later block. So the ports of two positions are six different ones exactly
if the block of the later one has room (`ProxyConfig.nodup_peerPorts_iff`).

In a session the peers have the ports of their positions from the connection on
(`Proxy.assigns_run`), and no two have one position.

Key definitions: `ProxyConfig.Assigns`.
Key theorems: `ProxyConfig.toNat_ofRole_peerPorts`, `ProxyConfig.nodup_peerPorts_iff`,
`Proxy.assigns_take`, `Proxy.assigns_run`, `Proxy.ports_apart_iff`.
-/
import Raop.Proofs.Proxy.PeerRecord
import Raop.Proofs.Proxy.PeerWait
import Raop.Proofs.Proxy.TimingRoutes

namespace Raop

namespace RtpPorts

theorem toNat_clamp (n : Nat) : (clamp n).toNat = min n 65535 := by
  have h : min n 65535 < 65536 := by omega
  rw [clamp, UInt16.toNat_ofNat_of_lt' h]

/-- Ports from a first one on follow each other in the order of their roles, up to the highest port. -/
theorem toNat_ofRole_ofFirst {first : UInt16} (h : first ≠ 0) (role : Role) :
    ((ofFirst first).ofRole role).toNat = min (first.toNat + role.ordinal) 65535 := by
  have hfirst := first.toNat_lt
  rw [ofFirst, if_neg h]
  cases role with
  | audio => show first.toNat = min (first.toNat + 0) 65535; omega
  | control => exact toNat_clamp _
  | timing => exact toNat_clamp _

end RtpPorts

namespace ProxyConfig

variable {c : ProxyConfig} {peers peers' : List Peer}

/-- The ports for a peer follow the spare one of its block, up to the highest port. -/
theorem toNat_ofRole_peerPorts (h : c.peerPortBase ≠ 0) (index : Nat) (role : Role) :
    ((c.peerPorts index).ofRole role).toNat =
      min (c.peerPortBase.toNat + portBlock * index + 1 + role.ordinal) 65535 := by
  have hbase := c.peerPortBase.toNat_lt
  generalize hfirst : RtpPorts.clamp
    (min (c.peerPortBase.toNat + min (min index 65535 * portBlock) 65535) 65535 + 1) = first
  have hnat : first.toNat = min (c.peerPortBase.toNat + portBlock * index + 1) 65535 := by
    rw [← hfirst, RtpPorts.toNat_clamp]
    simp only [portBlock]
    omega
  have hne : first ≠ 0 := by
    rintro rfl
    simp only [UInt16.toNat_zero] at hnat
    omega
  simp only [peerPorts, if_neg h, hfirst]
  rw [RtpPorts.toNat_ofRole_ofFirst hne, hnat]
  omega

/-- **The ports for two positions are different ones** exactly if the later block ends by the highest
port. -/
theorem nodup_peerPorts_iff (h : c.peerPortBase ≠ 0) {i j : Nat} (hij : i ≠ j) :
    ((c.peerPorts i).toList ++ (c.peerPorts j).toList).Nodup ↔
      c.peerPortBase.toNat + portBlock * max i j + 3 ≤ 65535 := by
  have hnats (index : Nat) : (c.peerPorts index).toList.map UInt16.toNat =
      [min (c.peerPortBase.toNat + portBlock * index + 1) 65535,
        min (c.peerPortBase.toNat + portBlock * index + 2) 65535,
        min (c.peerPortBase.toNat + portBlock * index + 3) 65535] := by
    simp only [RtpPorts.toList, Role.all, List.map_cons, List.map_nil, toNat_ofRole_peerPorts h,
      Role.ordinal]
  rw [← List.nodup_map_iff fun _ _ => UInt16.toNat_inj.1, List.map_append, hnats, hnats]
  simp only [List.cons_append, List.nil_append, List.nodup_cons, List.mem_cons, List.not_mem_nil,
    or_false, not_or, List.nodup_nil, not_false_eq_true, and_true, portBlock]
  omega

/-- The peers have the ports of their positions. -/
def Assigns (c : ProxyConfig) (peers : List Peer) : Prop :=
  ∀ peer ∈ peers, peer.ports = c.peerPorts peer.index

theorem Assigns.nil (c : ProxyConfig) : c.Assigns [] := by simp [Assigns]

theorem Assigns.subset (h : c.Assigns peers) (hsub : peers' ⊆ peers) : c.Assigns peers' :=
  fun peer hpeer => h peer (hsub hpeer)

theorem Assigns.append (h : c.Assigns peers) (h' : c.Assigns peers') : c.Assigns (peers ++ peers') :=
  List.forall_mem_append.2 ⟨h, h'⟩

end ProxyConfig

namespace Proxy

variable {ctx : ProxyContext} {c : ProxyConfig} {now : Moment} {request : Request} {reply : Reply}
  {p q : Proxy}

/-! ### What is done to the peers -/

/-- What is done to peers leaves them the ports of their positions. -/
theorem assigns_map {f : Peer → Peer} {peers : List Peer} (h : c.Assigns peers)
    (hf : ∀ peer : Peer, peer.SamePlace (f peer)) : c.Assigns (peers.map f) := by
  intro peer hpeer
  obtain ⟨former, hformer, rfl⟩ := List.mem_map.1 hpeer
  rw [(hf former).ports, (hf former).index]
  exact h former hformer

theorem assigns_modify {f : Peer → Peer} {peers : List Peer} (h : c.Assigns peers)
    (hf : ∀ peer : Peer, peer.SamePlace (f peer)) (index : Nat) :
    c.Assigns (peers.map fun peer => if peer.index = index then f peer else peer) := by
  refine assigns_map h fun peer => ?_
  by_cases hindex : peer.index = index
  · rw [if_pos hindex]
    exact hf peer
  · rw [if_neg hindex]
    exact .refl peer

/-- A request is handed to the peers. -/
theorem HandedOver.assigns {hand : Peer → Peer × List Output} (hover : p.HandedOver hand q)
    (hhand : ∀ peer : Peer, peer.SamePlace (hand peer).1) (h : c.Assigns p.relay.peers) :
    c.Assigns q.relay.peers := by
  have husable : c.Assigns (p.relay.peers.filter (·.alive)) := h.subset (List.filter_subset_self _)
  rw [hover.peers]
  exact assigns_map husable hhand

/-! ### Requests -/

/-- Without a wait for connections nobody is listened to but the peers. -/
theorem listeners_eq (h : ∀ request pending found deadline,
    p.wait ≠ some (.connecting request pending found deadline)) : p.listeners = p.relay.peers := by
  unfold listeners
  split
  · next hwait => exact absurd hwait (h _ _ _ _)
  · rfl

theorem subset_listeners (p : Proxy) : p.relay.peers ⊆ p.listeners := by
  unfold listeners
  split
  · exact List.subset_append_left _ _
  · exact List.Subset.refl _

theorem assigns_complete (h : c.Assigns p.relay.peers) (request : Request) (reply : Reply) :
    c.Assigns (p.complete request reply).listeners := by
  rw [listeners_eq (by simp [complete])]
  exact h.subset (peers_complete request reply p).subset

theorem assigns_await (h : c.Assigns p.relay.peers) (ctx : ProxyContext) (now : Moment)
    (request : Request) (reply : Reply) : c.Assigns (p.await ctx now request reply).listeners := by
  rw [listeners_eq fun request' => wait_await_ne ctx now request request' reply p]
  exact h.subset (peers_await ctx now request reply p).subset

theorem assigns_replicate (h : c.Assigns p.relay.peers) (ctx : ProxyContext) (now : Moment)
    (request : Request) : c.Assigns (p.replicate ctx now request).listeners := by
  have hforwarded : c.Assigns (p.withRelay (p.relay.forward request)).relay.peers :=
    (handedOver_forward request p).assigns (fun peer => peer.samePlace_send request) h
  exact assigns_await hforwarded ctx now request {}

theorem assigns_announceTo {found : List Peer} (h : c.Assigns found) (ctx : ProxyContext) (now : Moment)
    (request : Request) (p : Proxy) : c.Assigns (p.announceTo ctx now request found).listeners :=
  assigns_replicate (p := { p with wait := none, relay := { p.relay with peers := found } }) h ctx now
    request

/-- Peers may be dropped. -/
theorem assigns_of_sublist (h : c.Assigns p.listeners) (hsub : q.relay.peers.Sublist p.relay.peers)
    (hwait : q.wait = p.wait) : c.Assigns q.listeners := by
  refine h.subset ?_
  unfold listeners
  rw [hwait]
  split
  · exact (hsub.append_right _).subset
  · exact hsub.subset

theorem assigns_setUpPeers (h : c.Assigns p.relay.peers) (ctx : ProxyContext) (request : Request)
    (channels : ChannelSet) : c.Assigns (p.setUpPeers ctx request channels).relay.peers := by
  refine (handedOver_setUpPeers ctx request channels p).assigns (fun peer => ?_) h
  have hplace := peer.samePlace_setup (ctx.peerBinder peer.index) request
  unfold Relay.handed
  split
  · next heq =>
    rw [heq] at hplace
    exact hplace
  · next heq =>
    rw [heq] at hplace
    exact ⟨hplace.index, hplace.ports⟩

theorem assigns_start (h : c.Assigns p.listeners) (ctx : ProxyContext) (now : Moment)
    (request : Request) : c.Assigns (p.start ctx now request).listeners := by
  have hpeers : c.Assigns p.relay.peers := h.subset p.subset_listeners
  have hbegins := begins_start ctx now request p
  generalize p.start ctx now request = q at hbegins ⊢
  cases hbegins with
  | refused e => exact h
  | undone e channels => exact h
  | told reply => exact h
  | connects deadline => exact .nil c
  | announces => exact assigns_announceTo (.nil c) ctx now request _
  | setsUp value t channels =>
    exact assigns_await (assigns_setUpPeers hpeers ctx request channels) ctx now request _
  | passesOn volume => exact assigns_replicate (p := { p with volume }) hpeers ctx now request

/-! ### What is met -/

theorem assigns_found {pending : List Nat} {found : List Peer} {deadline : Nat}
    (hwait : p.wait = some (.connecting request pending found deadline)) (h : c.Assigns p.listeners) :
    c.Assigns found := by
  refine h.subset ?_
  simp only [listeners, hwait]
  exact List.subset_append_right _ _

theorem assigns_connecting {pending : List Nat} {found : List Peer} {deadline : Nat}
    (hwait : p.wait = some (.connecting request pending found deadline))
    (hpeers : c.Assigns p.relay.peers) (hfound : c.Assigns found) : c.Assigns p.listeners := by
  simp only [listeners, hwait]
  exact hpeers.append hfound

theorem assigns_tick (h : c.Assigns p.listeners) (ctx : ProxyContext) (now : Moment) :
    c.Assigns (p.tick ctx now).listeners := by
  unfold tick
  split
  · next request _ found _ hwait =>
    split
    · exact h
    · exact assigns_announceTo (assigns_found hwait h) ctx now request p
  · next request reply _ _ _ _ =>
    split
    · exact h
    · exact assigns_complete (h.subset p.subset_listeners) request reply
  · exact h

theorem assigns_place {peer : Peer} {peers : List Peer} (h : c.Assigns peers)
    (hpeer : peer.ports = c.peerPorts peer.index) : c.Assigns (place peer peers) := by
  intro other hother
  rw [(Listens.place_perm peer peers).mem_iff, List.mem_cons] at hother
  rcases hother with rfl | hother
  · exact hpeer
  · exact h other hother

/-- A peer that is connected to has the ports of its position. -/
theorem assigns_decided (h : ctx.config.Assigns p.listeners) (now : Moment) (index : Nat)
    (ip : Option IpAddress) : ctx.config.Assigns (p.decided ctx now index ip).listeners := by
  unfold decided
  split
  · next request pending found deadline hwait =>
    split
    · -- whoever is found with this, the wait goes on or the stream is announced
      have hgoes : ∀ found', ctx.config.Assigns found' → ctx.config.Assigns (
          if (pending.erase index).isEmpty then p.announceTo ctx now request found'
          else { p with wait := some (.connecting request (pending.erase index) found' deadline) }
            : Proxy).listeners := by
        intro found' hfound'
        split
        · exact assigns_announceTo hfound' ctx now request p
        · exact assigns_connecting rfl (h.subset p.subset_listeners) hfound'
      refine hgoes _ ?_
      have hfound := assigns_found hwait h
      split
      · exact assigns_place hfound rfl
      · exact hfound
    · exact h
  · exact h

theorem assigns_onPeer {f : Peer → Peer} (h : c.Assigns p.listeners)
    (hf : ∀ peer : Peer, peer.SamePlace (f peer)) (index : Nat) :
    c.Assigns (p.onPeer index f).listeners := by
  have hpeers : c.Assigns (p.relay.modify index f).peers :=
    assigns_modify (h.subset p.subset_listeners) hf index
  unfold onPeer
  simp only
  split
  · next request pending found deadline hwait =>
    exact assigns_connecting (p := { p with wait := some (.connecting ..), relay := p.relay.modify index f })
      rfl hpeers (assigns_modify (assigns_found hwait h) hf index)
  · next request reply _ barrier _ hwait =>
    have hnone : ∀ q : Proxy, q.relay.peers = (p.relay.modify index f).peers →
        (∀ request pending found deadline, q.wait ≠ some (.connecting request pending found deadline)) →
        c.Assigns q.listeners := by
      intro q hq hw
      rw [listeners_eq hw, hq]
      exact hpeers
    split
    · generalize barrier.note _ _ = noted
      split
      · exact assigns_complete hpeers request reply
      · exact hnone _ rfl (by simp)
    · exact hnone _ rfl (by simp [hwait])
  · next hwait =>
    rw [listeners_eq (by simp [hwait])]
    exact hpeers

/-- **What an input does to the ports.** -/
theorem assigns_take (h : ctx.config.Assigns p.listeners) (i : Input) :
    ctx.config.Assigns (p.take ctx i).listeners := by
  cases i with
  | request binder peerBinder now request => exact assigns_start h _ now request
  | answerTaken => exact h
  | shutdown => exact assigns_of_sublist h (List.nil_sublist _) rfl
  | met o =>
    cases o with
    | tick now => exact assigns_tick h ctx now
    | connected now index ip => exact assigns_decided h now index (some ip)
    | refused now index => exact assigns_decided h now index none
    | peerData peerBinder index data =>
      exact assigns_onPeer h (fun peer => peer.samePlace_read (peerBinder index) data) index
    | peerLost index => exact assigns_onPeer (f := Peer.lose) h (fun peer => ⟨rfl, rfl⟩) index
    | peerBroken index =>
      exact assigns_onPeer (f := fun peer => { peer with broken := true }) h (fun peer => ⟨rfl, rfl⟩) index
    | datagram now role source data =>
      exact assigns_of_sublist h (p.peers_datagram now role source data)
        (keeps_datagram now role source data p).wait
    | peerDatagram now index role source data =>
      exact assigns_of_sublist h (p.peers_peerDatagram now index role source data ▸ .refl _)
        (keeps_peerDatagram now index role source data p).wait

/-- **Along a run every peer has the ports of its position.** -/
theorem assigns_run (ctx : ProxyContext) : ∀ (inputs : List Input) {p : Proxy},
    ctx.config.Assigns p.listeners → ctx.config.Assigns (p.run ctx inputs).listeners
  | [], _, h => h
  | i :: inputs, _, h => assigns_run ctx inputs (assigns_take h i)

/-- A peer of a session has the ports of its position. -/
theorem ports_of_mem_run {client localEnd : Endpoint} {inputs : List Input} {peer : Peer}
    (h : peer ∈ ((ofClient ctx client localEnd).run ctx inputs).relay.peers) :
    peer.ports = ctx.config.peerPorts peer.index := by
  have hstart : ctx.config.Assigns (ofClient ctx client localEnd).listeners := .nil ctx.config
  exact assigns_run ctx inputs hstart peer (subset_listeners _ h)

/-- No two peers of a session are at one position. -/
theorem nodup_index_run (ctx : ProxyContext) (client localEnd : Endpoint) (inputs : List Input) :
    (((ofClient ctx client localEnd).run ctx inputs).relay.peers.map (·.index)).Nodup := by
  have htold := Heard.told_after ctx client localEnd inputs
  rw [Heard.after, Heard.proxy_run] at htold
  exact htold.peers.nodup

/-- **The local ports of peers.** Those for two positions are six different ones exactly if the block of
the later position ends by the highest port. The same goes for two peers that are at different positions,
of one session or of two; and the peers of one session are. -/
theorem ports_apart_iff (h : ctx.config.peerPortBase ≠ 0) :
    (∀ i j, i ≠ j → (((ctx.config.peerPorts i).toList ++ (ctx.config.peerPorts j).toList).Nodup ↔
      ctx.config.peerPortBase.toNat + ProxyConfig.portBlock * max i j + 3 ≤ 65535)) ∧
    (∀ (client client' localEnd localEnd' : Endpoint) (inputs inputs' : List Input),
      ∀ peer ∈ ((ofClient ctx client localEnd).run ctx inputs).relay.peers,
      ∀ other ∈ ((ofClient ctx client' localEnd').run ctx inputs').relay.peers,
        peer.index ≠ other.index → ((peer.ports.toList ++ other.ports.toList).Nodup ↔
          ctx.config.peerPortBase.toNat + ProxyConfig.portBlock * max peer.index other.index + 3 ≤
            65535)) ∧
    ∀ (client localEnd : Endpoint) (inputs : List Input),
      (((ofClient ctx client localEnd).run ctx inputs).relay.peers.map (·.index)).Nodup := by
  refine ⟨fun i j hij => ProxyConfig.nodup_peerPorts_iff h hij, ?_, nodup_index_run ctx⟩
  intro client client' localEnd localEnd' inputs inputs' peer hpeer other hother hdiffer
  rw [ports_of_mem_run hpeer, ports_of_mem_run hother]
  exact ProxyConfig.nodup_peerPorts_iff h hdiffer

/-- With room for both blocks two peers have six ports. -/
theorem ports_apart_pairJoin : pairContext.config.peerPortBase ≠ 0 ∧
    ∃ peer other, (pairStart.run pairContext pairJoin).relay.peers = [peer, other] ∧
      (peer.ports.toList ++ other.ports.toList).Nodup := by
  have hbase : pairContext.config.peerPortBase ≠ 0 := by decide
  have hindexes : (pairStart.run pairContext pairJoin).relay.peers.map (·.index) = [0, 1] := by
    decide +kernel
  obtain ⟨peer, rest, hpeers, hfirst, hrest⟩ := List.map_eq_cons_iff.1 hindexes
  obtain ⟨other, rest, rfl, hsecond, hnil⟩ := List.map_eq_cons_iff.1 hrest
  obtain rfl := List.map_eq_nil_iff.1 hnil
  have hpeer : peer ∈ (pairStart.run pairContext pairJoin).relay.peers := by simp [hpeers]
  have hother : other ∈ (pairStart.run pairContext pairJoin).relay.peers := by simp [hpeers]
  have hapart := (ports_apart_iff hbase).2.1 default default default default pairJoin pairJoin peer hpeer
    other hother (by omega)
  refine ⟨hbase, peer, other, hpeers, hapart.2 ?_⟩
  rw [hfirst, hsecond]
  decide

/-- A base so high that the second block ends above the highest port. -/
def crowded : ProxyConfig := { peerPortBase := 65529 }

/-- Two ports of the second position are one. -/
theorem ports_meet_crowded : crowded.peerPortBase ≠ 0 ∧
    (crowded.peerPorts 1).toList = [65534, 65535, 65535] ∧
    ¬((crowded.peerPorts 0).toList ++ (crowded.peerPorts 1).toList).Nodup := by
  decide

end Proxy
end Raop
