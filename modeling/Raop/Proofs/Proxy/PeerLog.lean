/-
# The log of a run

Along a run each connection has its log; a connection that is made starts a new
one. In every session that comes about the cells of the usable peers are what
the logs come to (`Told`). An input writes no request, or it passes one on, and
the answers of the peers that it was written to are waited for (`Passes`).

Key definitions: `Proxy.hear`, `Proxy.Told`, `Proxy.PassesOn`, `Heard`.
Key theorems: `Proxy.passes_start`, `Proxy.passes_decided`, `Proxy.passes_onPeer`,
`Proxy.passes_take`, `Heard.told_run`.
-/
import Raop.Proofs.Proxy.Inputs
import Raop.Proofs.Proxy.PeerRequests

namespace Raop
namespace Proxy

/-- The peers whose connections are read, those that a request still waits for included. -/
def listeners (p : Proxy) : List Peer :=
  match p.wait with
  | some (.connecting _ _ found _) => p.relay.peers ++ found
  | _ => p.relay.peers

/-- A connection to the peer at a position is waited for. -/
def expects (p : Proxy) (index : Nat) : Bool :=
  match p.wait with
  | some (.connecting _ pending _ _) => pending.contains index
  | _ => false

/-- The logs after an input. -/
def hear (p : Proxy) (log : Nat → List CellChange) : Input → Nat → List CellChange
  | .met (.connected _ index _) => if p.expects index then Function.update log index [] else log
  | .met (.peerData _ index data) => heardBy p.listeners index (Peer.changes data) log
  | .met (.peerLost index) => heardBy p.listeners index (fun _ => [.closed]) log
  | _ => log

/-- The cells of the peers are what the logs come to. While connections are waited for there is no peer
but those connected to so far, none of which is waited for any more. -/
structure Told (log : Nat → List CellChange) (p : Proxy) : Prop where
  listens : Listens log p.listeners
  connecting : ∀ request pending found deadline,
    p.wait = some (.connecting request pending found deadline) →
    p.relay.peers = [] ∧ pending.Nodup ∧ ∀ index ∈ pending, index ∉ found.map (·.index)

/-- A request is passed on, and its answers are waited for. -/
def PassesOn (log : Nat → List CellChange) (p p' : Proxy) : Prop :=
  ∃ ctx now request reply q out, Passed log request p q out ∧ p' = q.await ctx now request reply

/-- No request is written, or one is passed on. -/
def Passes (log : Nat → List CellChange) (p p' : Proxy) : Prop :=
  Told log p' ∧ p.Quiet p' ∨ PassesOn log p p'

variable {ctx : ProxyContext} {now : Moment} {request : Request} {reply : Reply} {p q r : Proxy}
  {log : Nat → List CellChange}

/-! ### Requests -/

theorem Told.peers (h : Told log p) : Listens log p.relay.peers := by
  refine h.listens.sublist ?_
  unfold listeners
  split
  · exact List.sublist_append_left _ _
  · exact .refl _

/-- Without a wait for connections, the peers are those of the relay. -/
theorem Told.of_peers (h : Listens log p.relay.peers)
    (hwait : ∀ request pending found deadline, p.wait ≠ some (.connecting request pending found deadline)) :
    Told log p where
  listens := by
    unfold listeners
    split
    · next hw => exact absurd hw (hwait _ _ _ _)
    · exact h
  connecting _ _ _ _ hw := absurd hw (hwait _ _ _ _)

/-- While connections are waited for, the peers are those connected to. -/
theorem Told.of_found {pending : List Nat} {found : List Peer} {deadline : Nat} (h : Listens log found)
    (hpeers : p.relay.peers = []) (hwait : p.wait = some (.connecting request pending found deadline))
    (hnodup : pending.Nodup) (hnew : ∀ index ∈ pending, index ∉ found.map (·.index)) : Told log p where
  listens := by
    simp only [listeners, hwait, hpeers, List.nil_append]
    exact h
  connecting request' pending' found' deadline' hw := by
    obtain ⟨-, rfl, rfl, -⟩ := Wait.connecting.inj (Option.some.inj (hwait.symm.trans hw))
    exact ⟨hpeers, hnodup, hnew⟩

/-- Peers may be dropped. -/
theorem Told.sublist (h : Told log p) (hsub : q.relay.peers.Sublist p.relay.peers)
    (hwait : q.wait = p.wait) : Told log q where
  listens := by
    refine h.listens.sublist ?_
    unfold listeners
    rw [hwait]
    split
    · exact hsub.append_right _
    · exact hsub
  connecting request pending found deadline hw := by
    obtain ⟨hnil, hrest⟩ := h.connecting request pending found deadline (hwait.symm.trans hw)
    rw [hnil, List.sublist_nil] at hsub
    exact ⟨hsub, hrest⟩

theorem Told.reset (h : Told log p) : Told log p.reset := h.sublist (List.nil_sublist _) rfl

/-- Nothing of this changes. -/
theorem Told.passes (h : Told log p) (hpeers : q.relay.peers = p.relay.peers) (hwait : q.wait = p.wait)
    (houtput : q.output = p.output) : Passes log p q :=
  Or.inl ⟨h.sublist (hpeers ▸ .refl _) hwait, [], by simp [houtput], by simp [NoRequest]⟩

theorem told_complete (h : Listens log p.relay.peers) (request : Request) (reply : Reply) :
    Told log (p.complete request reply) := by
  refine .of_peers ?_ (by simp [complete])
  unfold complete
  cases hm : request.method with
  | teardown => exact .nil log
  | record =>
    by_cases hstate : p.state = .recording
    · simp only [hstate, if_true]
      exact h
    · simp only [hstate, if_false]
      exact h
  | _ => exact h

theorem told_await (h : Listens log p.relay.peers) (ctx : ProxyContext) (now : Moment)
    (request : Request) (reply : Reply) : Told log (p.await ctx now request reply) := by
  have hprune : Listens log p.relay.prune.1.peers := h.sublist List.filter_sublist
  unfold await
  split
  · exact told_complete h request reply
  · simp only
    split
    · exact told_complete (p := p.withRelay p.relay.prune) hprune request reply
    · exact .of_peers hprune (by simp)

theorem Passes.told (h : Passes log p q) : Told log q := by
  rcases h with ⟨htold, -⟩ | ⟨ctx, now, request, reply, r, out, hpassed, rfl⟩
  · exact htold
  · exact told_await hpassed.listens ctx now request reply

theorem passes_replicate (h : Listens log q.relay.peers) (hq : p.Quiet q) (ctx : ProxyContext)
    (now : Moment) (request : Request) : Passes log p (q.replicate ctx now request) := by
  obtain ⟨out, hout⟩ := passed_forward h request
  obtain ⟨out', hout'⟩ := hout.trans hq
  exact Or.inr ⟨ctx, now, request, {}, _, out', hout', rfl⟩

theorem passes_announceTo {found : List Peer} (h : Listens log found) (hq : p.Quiet q) (ctx : ProxyContext)
    (now : Moment) (request : Request) : Passes log p (q.announceTo ctx now request found) :=
  passes_replicate (q := { q with wait := none, relay := { q.relay with peers := found } }) h hq ctx now
    request

theorem passes_announce (h : Told log p) (ctx : ProxyContext) (now : Moment) (request : Request) :
    Passes log p (p.announce ctx now request) := by
  unfold announce
  split
  · exact h.passes rfl rfl rfl
  · split
    · exact h.passes rfl rfl rfl
    · simp only
      split
      · exact passes_announceTo (.nil log) (still_reset p).quiet ctx now request
      · next peers _ =>
        refine Or.inl ⟨.of_found (.nil log) rfl rfl List.nodup_range (by simp), (still_reset p).quiet.trans ?_⟩
        refine ⟨_, rfl, fun index r hmem => ?_⟩
        rw [List.mem_mapIdx] at hmem
        obtain ⟨_, _, hmem⟩ := hmem
        cases hmem

theorem passes_setup (h : Told log p) (ctx : ProxyContext) (now : Moment) (request : Request) :
    Passes log p (p.setup ctx now request) := by
  rcases setup_cases ctx now request p with
    ⟨e, hp⟩ | ⟨e, channels, hp⟩ | ⟨value, t, channels, -, -, -, hp⟩
  · rw [hp]
    exact h.passes rfl rfl rfl
  · rw [hp]
    exact h.passes rfl rfl rfl
  · rw [hp]
    obtain ⟨out, hout⟩ := passed_setUpPeers h.peers ctx request channels
    exact Or.inr ⟨ctx, now, request, setupReply t, _, out, hout, rfl⟩

theorem passes_replicateIn (h : Told log p) (ctx : ProxyContext) (now : Moment)
    (allowed : List SessionState) (request : Request) :
    Passes log p (p.replicateIn ctx now allowed request) := by
  unfold replicateIn
  split
  · exact h.passes rfl rfl rfl
  · exact passes_replicate h.peers (.refl p) ctx now request

theorem passes_setParameter (h : Told log p) (ctx : ProxyContext) (now : Moment) (request : Request) :
    Passes log p (p.setParameter ctx now request) := by
  unfold setParameter
  split
  · exact h.passes rfl rfl rfl
  · split
    · split
      · exact h.passes rfl rfl rfl
      · next parameters _ =>
        exact passes_replicate (q := { p with volume := (lastVolume parameters).or p.volume }) h.peers
          (.refl p) ctx now request
    · exact passes_replicate h.peers (.refl p) ctx now request

theorem passes_start (h : Told log p) (ctx : ProxyContext) (now : Moment) (request : Request) :
    Passes log p (p.start ctx now request) := by
  unfold start
  split
  · exact h.passes rfl rfl rfl
  · exact passes_announce h ctx now request
  · exact passes_setup h ctx now request
  · exact passes_replicateIn h ctx now _ request
  · exact passes_replicateIn h ctx now _ request
  · exact passes_replicateIn h ctx now _ request
  · exact passes_setParameter h ctx now request
  · exact h.passes rfl rfl rfl
  · exact passes_replicate h.peers (.refl p) ctx now request
  · exact h.passes rfl rfl rfl

/-! ### What is met -/

theorem passes_tick (h : Told log p) (ctx : ProxyContext) (now : Moment) :
    Passes log p (p.tick ctx now) := by
  unfold tick
  split
  · next request pending found deadline hw =>
    split
    · exact h.passes rfl rfl rfl
    · have hfound : Listens log found := by
        refine h.listens.sublist ?_
        simp only [listeners, hw]
        exact List.sublist_append_right _ _
      exact passes_announceTo hfound (.refl p) ctx now request
  · next request reply members barrier deadline _ =>
    split
    · exact h.passes rfl rfl rfl
    · exact Or.inl ⟨told_complete h.peers request reply, (still_complete request reply p).quiet⟩
  · exact h.passes rfl rfl rfl

theorem exists_wait_of_expects {index : Nat} (h : p.expects index = true) :
    ∃ request pending found deadline,
      p.wait = some (.connecting request pending found deadline) ∧ index ∈ pending := by
  unfold expects at h
  split at h
  · next hwait => exact ⟨_, _, _, _, hwait, by simpa using h⟩
  · cases h

theorem decided_of_not_expects {index : Nat} (h : ¬p.expects index = true) (ctx : ProxyContext)
    (now : Moment) (ip : Option IpAddress) : p.decided ctx now index ip = p := by
  unfold decided
  split
  · next hwait =>
    rw [if_neg]
    simpa [expects, hwait] using h
  · rfl

/-- A connection that is waited for is decided: its peer may be found with that, and when no connection
is left the stream is announced. -/
theorem decided_of_pending {index : Nat} {pending : List Nat} {found : List Peer} {deadline : Nat}
    (hwait : p.wait = some (.connecting request pending found deadline)) (hpending : index ∈ pending)
    (ctx : ProxyContext) (now : Moment) (ip : Option IpAddress) :
    ∃ found', (found' = found ∨ ip.isSome ∧ ∃ peer : Peer, peer.index = index ∧ peer.cell = {} ∧
        found' = place peer found) ∧
      p.decided ctx now index ip =
        if (pending.erase index).isEmpty then p.announceTo ctx now request found'
        else { p with wait := some (.connecting request (pending.erase index) found' deadline) } := by
  have hcontains : pending.contains index = true := by simpa using hpending
  cases ip with
  | none => exact ⟨found, Or.inl rfl, by simp only [decided, hwait, hcontains, if_true]⟩
  | some ip =>
    cases haddress : ctx.config.peers[index]? with
    | none => exact ⟨found, Or.inl rfl, by simp only [decided, hwait, hcontains, haddress, if_true]⟩
    | some address =>
      exact ⟨_, Or.inr ⟨rfl, { index, address, ip, ports := ctx.config.peerPorts index }, rfl, rfl, rfl⟩,
        by simp only [decided, hwait, hcontains, haddress, if_true]⟩

/-- A connection that was waited for is made or not: the ones there are then can all be listened to, and
the others are waited for still. -/
theorem decided_of_expects (h : Told log p) (hexpects : p.expects index = true) (ctx : ProxyContext)
    (now : Moment) (ip : Option IpAddress) :
    ∃ request pending found deadline, p.relay.peers = [] ∧ pending.Nodup ∧
      Listens (if ip.isSome then Function.update log index [] else log) found ∧
      (∀ other ∈ pending, other ∉ found.map (·.index)) ∧
      p.decided ctx now index ip =
        if pending.isEmpty then p.announceTo ctx now request found
        else { p with wait := some (.connecting request pending found deadline) } := by
  obtain ⟨request, pending, found, deadline, hw, hmem⟩ := exists_wait_of_expects hexpects
  obtain ⟨found', hfound', hdecided⟩ := decided_of_pending hw hmem ctx now ip
  obtain ⟨hpeers, hnodup, hnew⟩ := h.connecting _ _ _ _ hw
  have hfound : Listens log found := by
    refine h.listens.sublist ?_
    simp only [listeners, hw]
    exact List.sublist_append_right _ _
  have hrest : ∀ other ∈ pending.erase index, other ∉ found.map (·.index) := fun other ho =>
    hnew other (List.mem_of_mem_erase ho)
  refine ⟨request, pending.erase index, found', deadline, hpeers, hnodup.erase index, ?_, ?_, hdecided⟩
  · rcases hfound' with rfl | ⟨hip, peer, rfl, hcell, rfl⟩
    · split
      · exact hfound.forget (hnew index hmem)
      · exact hfound
    · rw [if_pos hip]
      exact hfound.place (hnew _ hmem) hcell
  · rcases hfound' with rfl | ⟨-, peer, rfl, -, rfl⟩
    · exact hrest
    · intro other ho
      have hne : other ≠ peer.index := fun heq => hnodup.not_mem_erase (heq ▸ ho)
      rw [((Listens.place_perm peer found).map _).mem_iff, List.map_cons, List.mem_cons, not_or]
      exact ⟨hne, hrest other ho⟩

theorem passes_decided (h : Told log p) (ctx : ProxyContext) (now : Moment) (index : Nat)
    (ip : Option IpAddress) :
    Passes (if ip.isSome ∧ p.expects index then Function.update log index [] else log) p
      (p.decided ctx now index ip) := by
  by_cases hexpects : p.expects index = true
  · obtain ⟨request, pending, found, deadline, hpeers, hnodup, hfound, hrest, hdecided⟩ :=
      decided_of_expects h hexpects ctx now ip
    simp only [hexpects, and_true]
    rw [hdecided]
    generalize (if ip.isSome then Function.update log index [] else log) = log' at hfound ⊢
    split
    · exact passes_announceTo hfound (.refl p) ctx now request
    · exact Or.inl ⟨.of_found hfound hpeers rfl hnodup hrest, .refl p⟩
  · rw [if_neg fun hand => hexpects hand.2, decided_of_not_expects hexpects]
    exact h.passes rfl rfl rfl

/-- What happens on a connection happens to the peer, and a wait may be over with that. -/
theorem passes_onPeer (h : Told log p) (f : Peer → Peer) (changes : Peer → List CellChange)
    (hindex : ∀ peer, (f peer).index = peer.index)
    (halive : ∀ peer, (f peer).alive = true → peer.alive = true)
    (hcell : ∀ peer, (f peer).cell = (changes peer).foldl Cell.after peer.cell) (index : Nat) :
    Passes (heardBy p.listeners index changes log) p (p.onPeer index f) := by
  have hlistens := h.listens.modify hindex halive hcell index
  unfold onPeer
  simp only
  split
  · next request pending found deadline hw =>
    obtain ⟨hpeers, hnodup, hnew⟩ := h.connecting _ _ _ _ hw
    simp only [listeners, hw, hpeers, List.nil_append] at hlistens ⊢
    refine Or.inl ⟨.of_found hlistens (by simp [Relay.modify, hpeers]) rfl hnodup ?_, .refl p⟩
    rw [map_index_modify hindex]
    exact hnew
  · next request reply members barrier deadline hw =>
    simp only [listeners, hw] at hlistens ⊢
    have hpeers : Listens (heardBy p.relay.peers index changes log) (p.relay.modify index f).peers :=
      hlistens
    split
    · next i peer _ _ =>
      generalize barrier.note i _ = noted
      split
      · refine Or.inl ⟨told_complete hpeers request reply,
          Quiet.trans ?_ (still_complete request reply _).quiet⟩
        exact .refl p
      · exact Or.inl ⟨.of_peers hpeers (by simp), .refl p⟩
    · exact Or.inl ⟨.of_peers hpeers (by simp), .refl p⟩
  · next hw =>
    simp only [listeners, hw] at hlistens ⊢
    exact Or.inl ⟨.of_peers hlistens (by simp), .refl p⟩

theorem passes_datagram (h : Told log p) (now : Moment) (role : Role) (source : Endpoint) (data : Bytes) :
    Passes log p (p.datagram now role source data) :=
  Or.inl ⟨h.sublist (p.peers_datagram now role source data) (keeps_datagram now role source data p).wait,
    (p.still_datagram now role source data).quiet⟩

theorem passes_peerDatagram (h : Told log p) (now : Moment) (index : Nat) (role : Role)
    (source : Endpoint) (data : Bytes) : Passes log p (p.peerDatagram now index role source data) :=
  Or.inl ⟨h.sublist (p.peers_peerDatagram now index role source data ▸ .refl _)
    (keeps_peerDatagram now index role source data p).wait, (p.still_peerDatagram now index role source data).quiet⟩

/-- **What an input does to the peers' requests and logs.** -/
theorem passes_take (h : Told log p) (ctx : ProxyContext) (i : Input) :
    Passes (p.hear log i) p (p.take ctx i) := by
  cases i with
  | request binder peerBinder now request => exact passes_start h _ now request
  | answerTaken => exact h.passes rfl rfl rfl
  | shutdown => exact Or.inl ⟨h.reset, (still_reset p).quiet⟩
  | met o =>
    cases o with
    | tick now => exact passes_tick h ctx now
    | connected now index ip =>
      have hpasses := passes_decided h ctx now index (some ip)
      simp only [Option.isSome_some, true_and] at hpasses
      exact hpasses
    | refused now index =>
      have hpasses := passes_decided h ctx now index none
      simp only [Option.isSome_none, Bool.false_eq_true, false_and, if_false] at hpasses
      exact hpasses
    | peerData peerBinder index data =>
      exact passes_onPeer h _ _ (fun peer => (peer.samePlace_read _ data).index)
        (fun peer => Peer.alive_of_read) (Peer.cell_read _ data) index
    | peerLost index =>
      exact passes_onPeer h Peer.lose (fun _ => [.closed]) (fun _ => rfl)
        (fun _ hdead => absurd hdead (by simp [Peer.lose])) (fun _ => rfl) index
    | peerBroken index =>
      have hpasses := passes_onPeer h (fun peer => { peer with broken := true })
        (fun _ => []) (fun _ => rfl) (fun _ halive => halive) (fun _ => rfl) index
      rwa [heardBy_nil] at hpasses
    | datagram now role source data => exact passes_datagram h now role source data
    | peerDatagram now index role source data => exact passes_peerDatagram h now index role source data

end Proxy

/-- A session, and the log of the connection at each position. -/
structure Heard where
  proxy : Proxy
  log : Nat → List CellChange := fun _ => []

namespace Heard

/-- The session and the logs after an input. -/
def take (ctx : ProxyContext) (w : Heard) (i : Proxy.Input) : Heard :=
  ⟨w.proxy.take ctx i, w.proxy.hear w.log i⟩

/-- The session and the logs after inputs, one after the other. -/
def run (ctx : ProxyContext) (w : Heard) (inputs : List Proxy.Input) : Heard := inputs.foldl (take ctx) w

theorem proxy_run (ctx : ProxyContext) : ∀ (inputs : List Proxy.Input) (w : Heard),
    (w.run ctx inputs).proxy = w.proxy.run ctx inputs
  | [], _ => rfl
  | i :: inputs, w => proxy_run ctx inputs (w.take ctx i)

/-- What the cells of the peers say is so along a run. -/
theorem told_run (ctx : ProxyContext) : ∀ (inputs : List Proxy.Input) {w : Heard}, w.proxy.Told w.log →
    (w.run ctx inputs).proxy.Told (w.run ctx inputs).log
  | [], _, h => h
  | i :: inputs, _, h => told_run ctx inputs (Proxy.passes_take h ctx i).told

end Heard
end Raop
