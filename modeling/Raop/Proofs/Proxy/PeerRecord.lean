/-
# What each peer has been written

A run is told as its exchanges: each request with its answer, and what was put
out with it. What was written on a connection is read off the output (`onWire`).
In every session that comes about the usable peers have all been written the
same: the requests that were accepted and passed on since the last ANNOUNCE,
that included, each once and in order (`Runs.written_to_peers`). A request that
is refused, or that the session answers by itself, is written to nobody.

The induction is over the turns of a run, and within a turn over what is met.
While connections are waited for nothing was written on any of them.

Key definitions: `Request.Carries`, `onWire`, `Exchange`, `sinceAnnounce`, `Proxy.Runs`,
`Proxy.Recorded`.
Key theorems: `Proxy.HandedOver.onWire_eq`, `Proxy.recorded_start`, `Proxy.Recorded.meet`,
`Proxy.Runs.written_to_peers`.
-/
import Raop.Proofs.Proxy.Turns

namespace Raop

/-- What a peer is written for a request: the request, or for SETUP the request with a Transport of the
peer's own. -/
def Request.Carries (request out : Request) : Prop :=
  out = request ∨ request.method = .setup ∧ ∃ value, out = request.withHeader "Transport" value

/-- What was written on the connection to the peer at each position, once more was put out. A connection
begins with the attempt to connect. -/
def onWire (w : Nat → List Request) (out : List Output) : Nat → List Request :=
  out.foldl (fun w o => match o with
    | .connect index _ => Function.update w index []
    | .request index r => Function.update w index (w index ++ [r])
    | _ => w) w

theorem onWire_append (w : Nat → List Request) (out out' : List Output) :
    onWire w (out ++ out') = onWire (onWire w out) out' := List.foldl_append

theorem onWire_of_silent : ∀ {out : List Output}, Silent out → ∀ w, onWire w out = w
  | [], _, _ => rfl
  | o :: out, h, w => by
    have hrest : onWire w out = w := onWire_of_silent
      ⟨fun index r hmem => h.1 index r (List.mem_cons_of_mem _ hmem),
        fun index a hmem => h.2 index a (List.mem_cons_of_mem _ hmem)⟩ w
    cases o with
    | connect index a => exact absurd List.mem_cons_self (h.2 index a)
    | request index r => exact absurd List.mem_cons_self (h.1 index r)
    | _ => exact hrest

/-- Nothing is written on a connection after an attempt to connect, as long as no request is. -/
theorem onWire_eq_nil {index : Nat} : ∀ {out : List Output} {w : Nat → List Request}, NoRequest out →
    (w index = [] ∨ ∃ a, Output.connect index a ∈ out) → onWire w out index = []
  | [], w, _, h => by simpa [onWire] using h
  | o :: out, w, hnone, h => by
    have hnone' : NoRequest out := fun i r hmem => hnone i r (List.mem_cons_of_mem _ hmem)
    cases o with
    | request i r => exact absurd List.mem_cons_self (hnone i r)
    | connect i b =>
      refine onWire_eq_nil (w := Function.update w i []) hnone' ?_
      by_cases hi : index = i
      · exact Or.inl (by rw [hi, Function.update_self])
      · rw [Function.update_of_ne hi]
        simpa [hi] using h
    | _ =>
      change onWire w out index = []
      exact onWire_eq_nil hnone' (by simpa using h)

/-- A request with its answer, if it has one yet, and what was put out with it. -/
structure Exchange where
  request : Request
  answer : Option (Except Error Reply)
  output : List Output

namespace Exchange

/-- The request is not refused. -/
def isAccepted (x : Exchange) : Bool :=
  match x.answer with
  | some (.error _) => false
  | _ => true

/-- The request is accepted, and of a method that is passed on. -/
def isPassedOn (x : Exchange) : Bool := x.isAccepted && x.request.method.isPassedOn

end Exchange

/-- The requests passed on after one more: an ANNOUNCE begins anew. -/
def Request.extend (request : Request) (since : List Request) : List Request :=
  if request.method = .announce then [request] else since ++ [request]

/-- The requests that were accepted and passed on since the last ANNOUNCE that was, that included. -/
def sinceAnnounce (xs : List Exchange) : List Request :=
  xs.foldl (fun since x => if x.isPassedOn then x.request.extend since else since) []

/-- What was written on the connection to the peer at each position. -/
def written (xs : List Exchange) : Nat → List Request :=
  onWire (fun _ => []) (xs.flatMap (·.output))

theorem sinceAnnounce_append (xs : List Exchange) (x : Exchange) :
    sinceAnnounce (xs ++ [x]) =
      if x.isPassedOn then x.request.extend (sinceAnnounce xs) else sinceAnnounce xs := by
  simp [sinceAnnounce]

theorem written_append (xs : List Exchange) (x : Exchange) :
    written (xs ++ [x]) = onWire (written xs) x.output := by
  rw [written, List.flatMap_append, onWire_append]
  simp [written]

namespace Proxy

/-- The exchange of a turn. -/
def exchange (ctx : ProxyContext) (p : Proxy) (t : Turn) : Exchange :=
  ⟨t.request, (p.turn ctx t).answer, (p.turn ctx t).output⟩

/-- The runs of a session, with their exchanges. A turn begins when nothing is waited for; the last one
may wait still. What is met before the first turn or after the end goes into no exchange: nothing comes
of it (`meetAll_of_empty`). -/
inductive Runs (ctx : ProxyContext) : List Exchange → Proxy → Prop where
  | start (client localEnd : Endpoint) (met : List Occurrence) :
      Runs ctx [] ((ofClient ctx client localEnd).meetAll ctx met)
  | turn {xs : List Exchange} {p : Proxy} (h : Runs ctx xs p) (hwait : p.wait = none) (t : Turn) :
      Runs ctx (xs ++ [p.exchange ctx t]) (p.turn ctx t)
  | shutdown {xs : List Exchange} {p : Proxy} (h : Runs ctx xs p) (hwait : p.wait = none)
      (met : List Occurrence) : Runs ctx xs (p.reset.meetAll ctx met)

variable {ctx : ProxyContext} {now : Moment} {request : Request} {reply : Reply} {p q : Proxy}
  {carries allowed : Request → Prop} {hand : Peer → Peer × List Output} {w : Nat → List Request}
  {since : List Request}

/-! ### Accepted and refused -/

/-- An error that is there at once is the answer of the turn. -/
theorem isAccepted_of_error {t : Turn} {e : Error} (hwait : p.wait = none)
    (h : (p.ready.start (t.context ctx) t.now t.request).answer = some (.error e)) :
    (p.exchange ctx t).isAccepted = false := by
  have hanswer : (p.turn ctx t).answer = some (.error e) :=
    (error_meetAll_iff (p := p.ready) hwait rfl ctx t.met).2 h
  simp only [Exchange.isAccepted, exchange, hanswer]

/-- A request that is not refused at once is accepted. -/
theorem isAccepted_of_noError {t : Turn}
    (h : (p.ready.start (t.context ctx) t.now t.request).NoError) :
    (p.exchange ctx t).isAccepted = true := by
  unfold Exchange.isAccepted
  split
  · next e he => exact absurd he (h.meetAll ctx t.met e)
  · rfl

/-! ### A request on the wire -/

/-- What is done to some peers is nothing to the connections of others. -/
theorem onWire_of_not_mem (hhand : Hands carries hand) {index : Nat} : ∀ {peers : List Peer}
    (w : Nat → List Request), index ∉ peers.map (·.index) →
    onWire w (peers.flatMap fun peer => (hand peer).2) index = w index
  | [], _, _ => rfl
  | peer :: peers, w, h => by
    rw [List.map_cons, List.mem_cons, not_or] at h
    rw [List.flatMap_cons, onWire_append, onWire_of_not_mem hhand _ h.2]
    rcases hhand peer with ⟨out, hout, -, -⟩ | ⟨-, -, hsilent⟩
    · rw [hout]
      exact Function.update_of_ne h.1 _ _
    · rw [onWire_of_silent hsilent]

/-- A peer that is usable afterwards was written one request. -/
theorem onWire_of_mem (hhand : Hands carries hand) {peer : Peer} : ∀ {peers : List Peer}
    (w : Nat → List Request), (peers.map (·.index)).Nodup → peer ∈ peers → (hand peer).1.alive = true →
    ∃ out, carries out ∧
      onWire w (peers.flatMap fun peer => (hand peer).2) peer.index = w peer.index ++ [out]
  | q :: peers, w, hnodup, hmem, halive => by
    rw [List.map_cons, List.nodup_cons] at hnodup
    rw [List.flatMap_cons, onWire_append]
    rcases List.mem_cons.1 hmem with rfl | hmem
    · rcases hhand peer with ⟨out, hout, -, hcarries⟩ | ⟨-, hdead, -⟩
      · refine ⟨out, hcarries, ?_⟩
        rw [onWire_of_not_mem hhand _ hnodup.1, hout]
        exact Function.update_self ..
      · rw [hdead] at halive
        cases halive
    · obtain ⟨out, hcarries, hout⟩ := onWire_of_mem hhand (onWire w (hand q).2) hnodup.2 hmem halive
      refine ⟨out, hcarries, ?_⟩
      -- the peer in front is at another position
      have hne : peer.index ∉ [q].map (·.index) := by
        simp only [List.map_cons, List.map_nil, List.mem_singleton]
        exact fun heq => hnodup.1 (heq ▸ List.mem_map_of_mem hmem)
      have hfront := onWire_of_not_mem hhand w hne
      rw [List.flatMap_cons, List.flatMap_nil, List.append_nil] at hfront
      rw [hout, hfront]

/-- **A request that is handed over is written once to each peer that is usable afterwards.** -/
theorem HandedOver.onWire_eq (hover : p.HandedOver hand q) (hhand : Hands carries hand)
    (hnodup : (p.relay.peers.map (·.index)).Nodup) {peer : Peer} (hpeer : peer ∈ q.relay.peers)
    (halive : peer.alive = true) (w : Nat → List Request) :
    ∃ former ∈ p.relay.peers, former.alive = true ∧ former.index = peer.index ∧
      ∃ out, carries out ∧ onWire w q.output peer.index = onWire w p.output peer.index ++ [out] := by
  rw [hover.peers] at hpeer
  obtain ⟨former, hformer, rfl⟩ := List.mem_map.1 hpeer
  have hindex : (hand former).1.index = former.index := by
    rcases hhand former with ⟨_, -, hsame, -⟩ | ⟨hindex, -, -⟩
    · exact hsame.index
    · exact hindex
  have hnodup' : ((p.relay.peers.filter (·.alive)).map (·.index)).Nodup :=
    hnodup.sublist (List.filter_sublist.map _)
  obtain ⟨out, hcarries, hout⟩ :=
    onWire_of_mem hhand (onWire (onWire w p.output) p.relay.prune.2) hnodup' hformer halive
  refine ⟨former, (List.mem_filter.1 hformer).1, (List.mem_filter.1 hformer).2, hindex.symm, out,
    hcarries, ?_⟩
  rw [hindex, hover.output, onWire_append, onWire_append, hout, onWire_of_silent p.relay.traffic_prune.silent]

theorem HandedOver.carries_of_mem (hover : p.HandedOver hand q) (hhand : Hands carries hand)
    {index : Nat} {out : Request} (h : Output.request index out ∈ q.output) :
    Output.request index out ∈ p.output ∨ carries out := by
  rw [hover.output, List.mem_append, List.mem_append] at h
  rcases h with h | h | h
  · exact Or.inl h
  · exact absurd h (p.relay.traffic_prune.silent.1 index out)
  · obtain ⟨peer, -, hmem⟩ := List.mem_flatMap.1 h
    rcases hhand peer with ⟨out', hout', -, hcarries⟩ | ⟨-, -, hsilent⟩
    · rw [hout', List.mem_singleton, Output.request.injEq] at hmem
      exact Or.inr (hmem.2 ▸ hcarries)
    · exact absurd hmem (hsilent.1 index out)

/-! ### A turn -/

/-- What is so during a turn that began with `w` on the wire: only what is allowed was written, the
usable peers have been written the requests since the last ANNOUNCE, and while connections are waited
for nothing was written on them. -/
structure Recorded (allowed : Request → Prop) (since : List Request) (w : Nat → List Request)
    (p : Proxy) : Prop where
  told : ∃ log, p.Told log
  only : ∀ index out, Output.request index out ∈ p.output → allowed out
  peers : ∀ peer ∈ p.relay.peers, peer.alive = true →
    List.Forall₂ Request.Carries since (onWire w p.output peer.index)
  connecting : ∀ request pending found deadline,
    p.wait = some (.connecting request pending found deadline) →
    since = [request] ∧ (∀ out, request.Carries out → allowed out) ∧
      ∀ index, (index ∈ pending ∨ ∃ peer ∈ found, peer.index = index) → onWire w p.output index = []

theorem peers_complete (request : Request) (reply : Reply) (p : Proxy) :
    (p.complete request reply).relay.peers.Sublist p.relay.peers := by
  by_cases hm : request.method = .teardown
  · have hnil : (p.complete request reply).relay.peers = [] := by
      unfold complete
      rw [hm]
      rfl
    rw [hnil]
    exact List.nil_sublist _
  · rw [(holds_complete hm reply p).1]

theorem peers_await (ctx : ProxyContext) (now : Moment) (request : Request) (reply : Reply) (p : Proxy) :
    (p.await ctx now request reply).relay.peers.Sublist p.relay.peers := by
  unfold await
  split
  · exact peers_complete request reply p
  · simp only
    split
    · exact (peers_complete ..).trans List.filter_sublist
    · exact List.filter_sublist

/-- A request that is handed over goes on the record. -/
theorem recorded_await (hover : p.HandedOver hand q) (hhand : Hands carries hand)
    (hcarries : ∀ out, carries out → request.Carries out)
    (hallowed : ∀ out, request.Carries out → allowed out)
    (hnodup : (p.relay.peers.map (·.index)).Nodup)
    (honly : ∀ index out, Output.request index out ∈ p.output → allowed out)
    (hpeers : ∀ peer ∈ p.relay.peers, peer.alive = true →
      List.Forall₂ Request.Carries since (onWire w p.output peer.index))
    (htold : ∃ log, (q.await ctx now request reply).Told log) :
    Recorded allowed (since ++ [request]) w (q.await ctx now request reply) := by
  obtain ⟨out, hout, hsilent⟩ := still_await ctx now request reply q
  refine ⟨htold, fun index r hmem => ?_, fun peer hpeer halive => ?_, fun request' pending found d hw => ?_⟩
  · rw [hout, List.mem_append] at hmem
    rcases hmem with hmem | hmem
    · rcases hover.carries_of_mem hhand hmem with hmem | hc
      · exact honly index r hmem
      · exact hallowed r (hcarries r hc)
    · exact absurd hmem (hsilent.1 index r)
  · have hpeer' := (peers_await ctx now request reply q).subset hpeer
    obtain ⟨former, hformer, ha, hindex, r, hr, hwire⟩ := hover.onWire_eq hhand hnodup hpeer' halive w
    rw [hout, onWire_append, onWire_of_silent hsilent, hwire, ← hindex]
    exact List.rel_append (hpeers former hformer ha) (.cons (hcarries r hr) .nil)
  · exact absurd hw (wait_await_ne ctx now request request' reply q pending found d)

theorem recorded_replicate (hcarries : ∀ out, request.Carries out → allowed out)
    (hnodup : (p.relay.peers.map (·.index)).Nodup)
    (honly : ∀ index out, Output.request index out ∈ p.output → allowed out)
    (hpeers : ∀ peer ∈ p.relay.peers, peer.alive = true →
      List.Forall₂ Request.Carries since (onWire w p.output peer.index))
    (htold : ∃ log, (p.replicate ctx now request).Told log) :
    Recorded allowed (since ++ [request]) w (p.replicate ctx now request) :=
  recorded_await (handedOver_forward request p) (hands_forwarding request) (fun _ heq => Or.inl heq)
    hcarries hnodup honly hpeers htold

/-- A stream is announced to peers on whose connections nothing was written. -/
theorem recorded_announceTo {found : List Peer} (hcarries : ∀ out, request.Carries out → allowed out)
    (hnodup : (found.map (·.index)).Nodup)
    (honly : ∀ index out, Output.request index out ∈ p.output → allowed out)
    (hfound : ∀ peer ∈ found, onWire w p.output peer.index = [])
    (htold : ∃ log, (p.announceTo ctx now request found).Told log) :
    Recorded allowed [request] w (p.announceTo ctx now request found) :=
  recorded_replicate (p := { p with wait := none, relay := { p.relay with peers := found } }) hcarries
    hnodup honly (fun peer hpeer _ => by rw [hfound peer hpeer]; exact .nil) htold

theorem noRequest_connects (peers : List PeerAddress) :
    NoRequest (peers.mapIdx fun i a => Output.connect i a) := by
  intro index out hmem
  obtain ⟨_, _, hmem⟩ := List.mem_mapIdx.1 hmem
  cases hmem

variable (ctx now request) in
/-- **What a request that begins puts on the record**: nothing if it is refused or the session answers by
itself, else the request. -/
theorem recorded_start (htold : ∃ log, p.Told log) (hwait : p.wait = none) (hanswer : p.answer = none)
    (houtput : p.output = [])
    (hpeers : ∀ peer ∈ p.relay.peers, peer.alive = true →
      List.Forall₂ Request.Carries since (w peer.index)) :
    Recorded (fun _ => False) since w (p.start ctx now request) ∧
        ((∃ e, (p.start ctx now request).answer = some (.error e)) ∨
          request.method.isPassedOn = false) ∨
      Recorded request.Carries (request.extend since) w (p.start ctx now request) ∧
        (p.start ctx now request).NoError ∧ request.method.isPassedOn = true := by
  obtain ⟨log, htold⟩ := htold
  have hnoError {q : Proxy} (hq : q.answer = none) : q.NoError := by simp [NoError, hq]
  have hwire : ∀ peer ∈ p.relay.peers, peer.alive = true →
      List.Forall₂ Request.Carries since (onWire w p.output peer.index) := by
    rw [houtput]
    exact hpeers
  have honly {allowed : Request → Prop} : ∀ index out, Output.request index out ∈ p.output → allowed out := by
    simp [houtput]
  have htold' : ∃ log, (p.start ctx now request).Told log := ⟨log, (passes_start htold ctx now request).told⟩
  have hreset : NoRequest p.reset.output := by
    obtain ⟨out, hout, hsilent⟩ := still_reset p
    rw [hout, houtput]
    exact hsilent.1
  have hbegins := begins_start ctx now request p
  generalize p.start ctx now request = q at htold' hbegins ⊢
  cases hbegins with
  | refused e =>
    refine Or.inl ⟨⟨htold', honly, hwire, fun _ _ _ _ hw => ?_⟩, Or.inl ⟨e, rfl⟩⟩
    exact absurd (hwait.symm.trans hw) (by simp)
  | undone e channels =>
    refine Or.inl ⟨⟨htold', honly, hwire, fun _ _ _ _ hw => ?_⟩, Or.inl ⟨e, rfl⟩⟩
    exact absurd (hwait.symm.trans hw) (by simp)
  | told reply hm =>
    refine Or.inl ⟨⟨htold', honly, hwire, fun _ _ _ _ hw => ?_⟩, Or.inr hm⟩
    exact absurd (hwait.symm.trans hw) (by simp)
  | connects deadline hm =>
    have hnone := noRequest_connects ctx.config.peers
    have hextend : request.extend since = [request] := if_pos hm
    rw [hextend]
    refine Or.inr ⟨⟨htold', fun index out hmem => ?_, fun peer hpeer => ?_, fun _ _ _ _ hw => ?_⟩,
      hnoError hanswer, by rw [hm]; rfl⟩
    · exact absurd hmem ((hreset.append hnone) index out)
    · cases hpeer
    · obtain ⟨rfl, rfl, rfl, -⟩ := Wait.connecting.inj (Option.some.inj hw)
      refine ⟨rfl, fun _ hout => hout, fun index hindex => ?_⟩
      have hlt : index < ctx.config.peers.length := by simpa using hindex
      refine onWire_eq_nil (hreset.append hnone) (Or.inr ⟨ctx.config.peers[index], ?_⟩)
      exact List.mem_append_right _ (List.mem_mapIdx.2 ⟨index, hlt, rfl⟩)
  | announces hm =>
    have hextend : request.extend since = [request] := if_pos hm
    rw [hextend]
    refine Or.inr ⟨?_, (hnoError (q := p.reset) hanswer).announceTo ctx now request [], by rw [hm]; rfl⟩
    exact recorded_announceTo (p := p.reset) (fun _ hout => hout) List.nodup_nil
      (fun index out hmem => absurd hmem (hreset index out)) (by simp) htold'
  | setsUp value t channels hm =>
    have hextend : request.extend since = since ++ [request] := if_neg (by simp [hm])
    rw [hextend]
    refine Or.inr ⟨?_, (hnoError (q := p.setUpPeers ctx request channels) hanswer).await ctx now request _,
      by rw [hm]; rfl⟩
    exact recorded_await (handedOver_setUpPeers ctx request channels p) (hands_handed ctx.peerBinder request)
      (fun _ hvalue => Or.inr ⟨hm, hvalue⟩) (fun _ hout => hout) htold.peers.nodup honly hwire htold'
  | passesOn volume hm hstream =>
    have hextend : request.extend since = since ++ [request] := if_neg hstream.1
    rw [hextend]
    refine Or.inr ⟨?_, (hnoError (q := { p with volume }) hanswer).replicate ctx now request, hm⟩
    exact recorded_replicate (p := { p with volume }) (fun _ hout => hout) htold.peers.nodup honly hwire htold'

/-- What writes no request leaves the record as it is. -/
theorem Recorded.of_still (h : Recorded allowed since w p) (hstill : p.Still q)
    (htold : ∃ log, q.Told log)
    (husable : ∀ peer ∈ q.relay.peers, peer.alive = true →
      ∃ former ∈ p.relay.peers, former.alive = true ∧ former.index = peer.index)
    (hwait : ∀ request pending found deadline,
      q.wait = some (.connecting request pending found deadline) →
      ∃ pending' found' deadline', p.wait = some (.connecting request pending' found' deadline') ∧
        ∀ index, (index ∈ pending ∨ ∃ peer ∈ found, peer.index = index) →
          index ∈ pending' ∨ ∃ peer ∈ found', peer.index = index) :
    Recorded allowed since w q := by
  obtain ⟨out, hout, hsilent⟩ := hstill
  have hwire : onWire w q.output = onWire w p.output := by
    rw [hout, onWire_append, onWire_of_silent hsilent]
  refine ⟨htold, fun index r hmem => ?_, fun peer hpeer halive => ?_,
    fun request pending found deadline hw => ?_⟩
  · rw [hout, List.mem_append] at hmem
    exact hmem.elim (h.only index r) fun hmem => absurd hmem (hsilent.1 index r)
  · obtain ⟨former, hformer, ha, hindex⟩ := husable peer hpeer halive
    rw [hwire, ← hindex]
    exact h.peers former hformer ha
  · obtain ⟨pending', found', deadline', hw', hindices⟩ := hwait request pending found deadline hw
    obtain ⟨hsince, hallowed, hnil⟩ := h.connecting request pending' found' deadline' hw'
    exact ⟨hsince, hallowed, fun index hindex => hwire ▸ hnil index (hindices index hindex)⟩

/-- **Whatever is met, the record is kept.** -/
theorem Recorded.meet (h : Recorded allowed since w p) (ctx : ProxyContext) (o : Occurrence) :
    Recorded allowed since w (p.meet ctx o) := by
  obtain ⟨log, htold⟩ := h.told
  have htold' : ∃ log, (p.meet ctx o).Told log := ⟨_, (passes_take htold ctx (.met o)).told⟩
  have hmeets := meets_meet ctx p o
  generalize p.meet ctx o = q at htold' hmeets ⊢
  cases hmeets with
  | aside _ hsteady hwait =>
    refine h.of_still hsteady.still htold' hsteady.usable fun request pending found deadline hw => ?_
    exact ⟨pending, found, deadline, hwait ▸ hw, fun _ hindex => hindex⟩
  | connecting _ request pending pending' found found' deadline hsteady hwait hwait' hpending hfound =>
    refine h.of_still hsteady.still htold' hsteady.usable fun _ _ _ _ hw => ?_
    obtain ⟨rfl, rfl, rfl, rfl⟩ := Wait.connecting.inj (Option.some.inj (hwait'.symm.trans hw))
    refine ⟨pending, found, deadline, hwait, fun index hindex => ?_⟩
    rcases hindex with hindex | ⟨peer, hpeer, rfl⟩
    · exact Or.inl (hpending hindex)
    · exact hfound peer hpeer
  | connected now request pending found found' deadline hwait hfound hnodup =>
    obtain ⟨rfl, hallowed, hnil⟩ := h.connecting _ _ _ _ hwait
    obtain ⟨-, -, hnew⟩ := htold.connecting _ _ _ _ hwait
    have hfoundNodup : (found.map (·.index)).Nodup := by
      have hlistens := htold.listens.nodup
      simp only [listeners, hwait, List.map_append] at hlistens
      exact hlistens.sublist (List.sublist_append_right _ _)
    exact recorded_announceTo hallowed (hnodup hnew hfoundNodup) h.only
      (fun peer hpeer => hnil _ (hfound peer hpeer)) htold'
  | answering _ _ _ _ _ _ _ hsteady _ hwait' =>
    exact h.of_still hsteady.still htold' hsteady.usable fun _ _ _ _ hw =>
      absurd (hwait'.symm.trans hw) (by simp)
  | answered r request reply _ _ _ hsteady hwait =>
    refine h.of_still (hsteady.still.trans (still_complete request reply r)) htold'
      (fun peer hpeer => hsteady.usable peer ((peers_complete request reply r).subset hpeer))
      fun _ _ _ _ hw => absurd hw (by simp)

theorem Recorded.meetAll (ctx : ProxyContext) : ∀ (met : List Occurrence) {p : Proxy},
    Recorded allowed since w p → Recorded allowed since w (p.meetAll ctx met)
  | [], _, h => h
  | o :: met, _, h => Recorded.meetAll ctx met (h.meet ctx o)

/-! ### Runs -/

/-- What a run has put on the record. -/
structure OnRecord (xs : List Exchange) (p : Proxy) : Prop where
  told : ∃ log, p.Told log
  peers : ∀ peer ∈ p.relay.peers, peer.alive = true →
    List.Forall₂ Request.Carries (sinceAnnounce xs) (written xs peer.index)
  only : ∀ x ∈ xs, ∀ index out, Output.request index out ∈ x.output →
    x.isPassedOn = true ∧ x.request.Carries out

/-- A turn goes on the record as its exchange says. -/
theorem OnRecord.turn {xs : List Exchange} (h : OnRecord xs p) (hwait : p.wait = none) (ctx : ProxyContext)
    (t : Turn) : OnRecord (xs ++ [p.exchange ctx t]) (p.turn ctx t) := by
  obtain ⟨log, htold⟩ := h.told
  -- what the record of the turn says of it
  have hadd {allowed : Request → Prop} {since : List Request}
      (hturn : Recorded allowed since (written xs) (p.turn ctx t))
      (hallowed : ∀ out, allowed out →
        (p.exchange ctx t).isPassedOn = true ∧ t.request.Carries out)
      (hsince : sinceAnnounce (xs ++ [p.exchange ctx t]) = since) :
      OnRecord (xs ++ [p.exchange ctx t]) (p.turn ctx t) := by
    refine ⟨hturn.told, fun peer hpeer halive => ?_, fun y hy index out hout => ?_⟩
    · rw [hsince, written_append]
      exact hturn.peers peer hpeer halive
    · rcases List.mem_append.1 hy with hy | hy
      · exact h.only y hy index out hout
      · obtain rfl := List.mem_singleton.1 hy
        exact hallowed out (hturn.only index out hout)
  rcases recorded_start (t.context ctx) t.now t.request (p := p.ready)
      ⟨log, htold.sublist (.refl _) rfl⟩ hwait rfl rfl h.peers with
    ⟨hstart, hdeclined⟩ | ⟨hstart, hnoError, hm⟩
  · have hnot : (p.exchange ctx t).isPassedOn = false := by
      rcases hdeclined with ⟨e, he⟩ | hm
      · rw [Exchange.isPassedOn, isAccepted_of_error hwait he, Bool.false_and]
      · simp [exchange, Exchange.isPassedOn, hm]
    exact hadd (hstart.meetAll ctx t.met) (fun _ hout => hout.elim)
      (by rw [sinceAnnounce_append, hnot, if_neg (by simp)])
  · have hpassed : (p.exchange ctx t).isPassedOn = true := by
      rw [Exchange.isPassedOn, isAccepted_of_noError hnoError, Bool.true_and]
      exact hm
    exact hadd (hstart.meetAll ctx t.met) (fun _ hout => ⟨hpassed, hout⟩)
      (by rw [sinceAnnounce_append, if_pos hpassed]; rfl)

theorem Runs.onRecord {xs : List Exchange} (h : Runs ctx xs p) : OnRecord xs p := by
  induction h with
  | start client localEnd met =>
    rw [meetAll_of_empty rfl rfl rfl]
    exact ⟨⟨fun _ => [], .of_peers (.nil _) (by simp [ofClient])⟩, by simp [ofClient], by simp⟩
  | turn _ hwait t ih => exact ih.turn hwait _ t
  | shutdown _ hwait met ih =>
    rw [meetAll_of_empty (p := Proxy.reset _) hwait rfl rfl]
    obtain ⟨log, htold⟩ := ih.told
    refine ⟨⟨log, htold.reset⟩, fun peer hpeer => ?_, ih.only⟩
    cases (hpeer : peer ∈ [])

/-- **What each peer has been written.** On the connection to every usable peer stand the requests that
were accepted and are passed on since the last ANNOUNCE that was accepted, that one included: each once,
in order, and as it came, but for the Transport of a SETUP. No request that was answered with an error,
and none that the session answers by itself, is written to any peer. -/
theorem Runs.written_to_peers {xs : List Exchange} (h : Runs ctx xs p) :
    (∀ peer ∈ p.relay.peers, peer.alive = true →
      List.Forall₂ Request.Carries (sinceAnnounce xs) (written xs peer.index)) ∧
    ∀ x ∈ xs, ∀ index out, Output.request index out ∈ x.output →
      x.isAccepted = true ∧ x.request.method.isPassedOn = true ∧ x.request.Carries out := by
  refine ⟨h.onRecord.peers, fun x hx index out hout => ?_⟩
  obtain ⟨hpassed, hcarries⟩ := h.onRecord.only x hx index out hout
  obtain ⟨haccepted, hm⟩ := Bool.and_eq_true_iff.1 hpassed
  exact ⟨haccepted, hm, hcarries⟩

/-- A turn in which every channel opens. -/
def peeredTurn (request : Request) (met : List Occurrence) : Turn :=
  ⟨peeredContext.binder, peeredContext.peerBinder, default, request, met⟩

/-- A stream is announced, and the peer is there. -/
def peeredAnnounce : Turn := peeredTurn PlayerSession.announceLossless [.connected default 0 default]

def peeredSetup : Turn := peeredTurn PlayerSession.setupWithControl []

/-- The session when its peer has heard of a stream. -/
def peeredAnnounced : Proxy := (ofClient peeredContext default default).turn peeredContext peeredAnnounce

/-- The exchanges of a run with a second SETUP, which is refused. -/
def peeredExchanges : List Exchange :=
  [(ofClient peeredContext default default).exchange peeredContext peeredAnnounce,
    peeredAnnounced.exchange peeredContext peeredSetup,
    (peeredAnnounced.turn peeredContext peeredSetup).exchange peeredContext peeredSetup]

/-- The refused SETUP is not written to the peer. -/
theorem written_to_peers_peeredExchanges :
    ∃ p, Runs peeredContext peeredExchanges p ∧
      peeredExchanges.map (·.isAccepted) = [true, true, false] ∧
      (sinceAnnounce peeredExchanges).map (·.method) = [.announce, .setup] ∧
      ∃ peer ∈ p.relay.peers, peer.alive = true ∧
        List.Forall₂ Request.Carries (sinceAnnounce peeredExchanges)
          (written peeredExchanges peer.index) := by
  have hrun : peeredAnnounced.wait.isNone = true ∧
      (peeredAnnounced.turn peeredContext peeredSetup).wait.isNone = true ∧
      peeredExchanges.map (·.isAccepted) = [true, true, false] ∧
      (sinceAnnounce peeredExchanges).map (·.method) = [.announce, .setup] ∧
      ((peeredAnnounced.turn peeredContext peeredSetup).turn peeredContext
        peeredSetup).relay.peers.map (·.alive) = [true] := by decide +kernel
  obtain ⟨hannounced, hsetUp, haccepted, hsince, halive⟩ := hrun
  have hruns : Runs peeredContext peeredExchanges
      ((peeredAnnounced.turn peeredContext peeredSetup).turn peeredContext peeredSetup) :=
    .turn (.turn (.turn (.start default default []) rfl peeredAnnounce)
      (Option.isNone_iff_eq_none.1 hannounced) peeredSetup) (Option.isNone_iff_eq_none.1 hsetUp)
      peeredSetup
  have hmem : true ∈ ((peeredAnnounced.turn peeredContext peeredSetup).turn peeredContext
      peeredSetup).relay.peers.map (·.alive) := by simp [halive]
  obtain ⟨peer, hpeer, ha⟩ := List.mem_map.1 hmem
  exact ⟨_, hruns, haccepted, hsince, peer, hpeer, ha, hruns.written_to_peers.1 peer hpeer ha⟩

end Proxy
end Raop
