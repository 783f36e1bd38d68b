/-
# What a wait for the peers has seen when it is over

A request is written to the peers that are usable, and their answers are waited
for. When the wait is over with every peer done, each of them has answered with
the sequence number of the request or has lost its connection; unless the
number is zero, and the peer had answered nothing when the wait began: the
number in a new cell is zero, too (`Answered`, `answered_of_reached`).

Key definitions: `Answered`, `Barrier.Tracks`, `Proxy.Waits`, `Proxy.EndsReached`, `Proxy.Reached`.
Key theorems: `Barrier.Tracks.note_self`, `Proxy.Waits.onPeer`, `Proxy.Waits.meet`,
`Proxy.waits_await`, `Heard.answered_of_reached`.
-/
import Raop.Proofs.Proxy.PeerLog

namespace Raop

/-- What is known of a peer that counts as done: with the sequence number it has answered, or its
connection is lost, or the number is zero and it had answered nothing before. -/
def Answered (before log : List CellChange) (n : UInt32) : Prop :=
  .answered n ∈ log ∨ .closed ∈ log ∨ n = 0 ∧ ∀ m, .answered m ∉ before

theorem Answered.mono {before log more : List CellChange} {n : UInt32} (h : Answered before log n) :
    Answered before (log ++ more) n :=
  h.imp (List.mem_append_left _) (Or.imp_left (List.mem_append_left _))

/-- The cell of a connection is done only if this is so. -/
theorem Cell.answered_of_met {before log : List CellChange} {n : UInt32} (hsub : before ⊆ log)
    (h : Barrier.met n (Cell.of log) = true) : Answered before log n := by
  simp only [Barrier.met, Bool.or_eq_true, Bool.not_eq_true', decide_eq_true_eq] at h
  rcases h with hclosed | hseen
  · exact Or.inr (Or.inl (closed_of_not_isOpen hclosed))
  · rcases answered_of_seen hseen with h | h | ⟨h0, hnone⟩
    · exact Or.inl h
    · exact Or.inr (Or.inl h)
    · exact Or.inr (Or.inr ⟨h0, fun m hm => hnone m (hsub hm)⟩)

namespace Barrier

variable {b : Barrier} {before log more : List CellChange} {i j : Nat}

@[simp] theorem cseq_note (b : Barrier) (i : Nat) (change : CellChange) : (b.note i change).cseq = b.cseq :=
  rfl

/-- The barrier has an entry for a peer whose connection has this log, and takes it for done only if
it is. -/
def Tracks (b : Barrier) (i : Nat) (before log : List CellChange) : Prop :=
  ∃ cell done, b.cells[i]? = some (cell, done) ∧
    (done = true ∨ met b.cseq cell = true → Answered before log b.cseq)

theorem Tracks.mono (h : b.Tracks i before log) (more : List CellChange) :
    b.Tracks i before (log ++ more) := by
  obtain ⟨cell, done, hcell, hdone⟩ := h
  exact ⟨cell, done, hcell, fun hd => (hdone hd).mono⟩

/-- What is noted of other peers is nothing to it. -/
theorem Tracks.note_of_ne (h : b.Tracks i before log) (hne : j ≠ i) (change : CellChange) :
    (b.note j change).Tracks i before log := by
  obtain ⟨cell, done, hcell, hdone⟩ := h
  exact ⟨cell, done, (List.getElem?_modify_ne _ _ hne).trans hcell, hdone⟩

/-- What is noted of the peer is what its log comes to. -/
theorem Tracks.note_self (h : b.Tracks i before log) (hsub : before ⊆ log) {cell : Cell}
    (hcell : cell = Cell.of log) :
    (b.note i (if cell.isOpen then .answered cell.seen else .closed)).Tracks i before log := by
  obtain ⟨known, done, hknown, hdone⟩ := h
  refine ⟨known.after (if cell.isOpen then .answered cell.seen else .closed),
    done || met b.cseq (known.after (if cell.isOpen then .answered cell.seen else .closed)), ?_, ?_⟩
  · exact (List.getElem?_modify_eq _ _ _).trans (congrArg _ hknown)
  · have hmet : met b.cseq (known.after (if cell.isOpen then .answered cell.seen else .closed)) = true →
        Answered before log b.cseq := by
      intro hmet
      by_cases hopen : cell.isOpen = true
      · rw [if_pos hopen] at hmet
        by_cases hknown : known.isOpen = true
        · refine Cell.answered_of_met hsub ?_
          rw [← hcell]
          simpa [Cell.after, hknown, met, hopen] using hmet
        · exact hdone (Or.inr (by simpa [Cell.after, hknown] using hmet))
      · refine Cell.answered_of_met hsub ?_
        rw [← hcell]
        simp [met, hopen]
    rintro (hd | hd)
    · rw [Bool.or_eq_true] at hd
      exact hd.elim (fun hd => hdone (Or.inl hd)) hmet
    · exact hmet hd

/-- When every peer is done, this one is. -/
theorem Tracks.of_reached (h : b.Tracks i before log) (hreached : b.reached = true) :
    Answered before log b.cseq := by
  obtain ⟨cell, done, hcell, hdone⟩ := h
  exact hdone (Or.inl (List.all_eq_true.1 hreached _ (List.mem_of_getElem? hcell)))

/-- When no peer is pending, this one is done. -/
theorem Tracks.of_pending (h : b.Tracks i before log) (hpending : b.pending = 0) :
    Answered before log b.cseq := by
  obtain ⟨cell, done, hcell, hdone⟩ := h
  refine hdone (Or.inr ?_)
  have hnone := List.filter_eq_nil_iff.1 (List.length_eq_zero_iff.1 hpending) _
    (List.mem_of_getElem? hcell)
  simpa using hnone

/-- A barrier as it starts has an entry for each peer. -/
theorem tracks_start {logs : Nat → List CellChange} {peers : List Peer} {peer : Peer}
    (h : Listens logs peers) (hmem : peer ∈ peers) (halive : peer.alive = true) (n : UInt32) :
    ∃ i, (peers.map (·.index)).idxOf? peer.index = some i ∧
      (start n (peers.map (·.cell))).Tracks i (logs peer.index) (logs peer.index) := by
  obtain ⟨i, hi⟩ := Option.isSome_iff_exists.1
    (List.isSome_idxOf?.2 (List.mem_map_of_mem (f := (·.index)) hmem))
  refine ⟨i, hi, peer.cell, met n peer.cell, ?_, fun hmet => ?_⟩
  · obtain ⟨hlt, hindex, -⟩ := List.idxOf?_eq_some_iff.1 hi
    rw [List.length_map] at hlt
    rw [List.getElem_map] at hindex
    have hpeer : peers[i] = peer :=
      List.inj_on_of_nodup_map h.nodup (List.getElem_mem hlt) hmem hindex
    simp [start, List.getElem?_eq_getElem hlt, hpeer]
  · refine Cell.answered_of_met (List.Subset.refl _) ?_
    rw [← h.cell_eq peer hmem halive]
    exact hmet.elim id id

end Barrier

namespace Proxy

variable {ctx : ProxyContext} {now : Moment} {p q : Proxy} {logs : Nat → List CellChange}
  {before : List CellChange} {index : Nat} {n : UInt32} {o : Occurrence}

/-- A wait for answers with this number goes on, and tracks the peer at a position. -/
structure Waits (before : List CellChange) (n : UInt32) (index : Nat) (logs : Nat → List CellChange)
    (p : Proxy) : Prop where
  subset : before ⊆ logs index
  nodup : (p.relay.peers.map (·.index)).Nodup
  cell_eq : ∀ peer ∈ p.relay.peers, peer.index = index → peer.cell = Cell.of (logs index)
  tracks : ∃ request reply members barrier deadline i,
    p.wait = some (.answering request reply members barrier deadline) ∧
      members.idxOf? index = some i ∧ barrier.cseq = n ∧ barrier.Tracks i before (logs index)

/-- What happens on a connection happens to the cell of the peer at a position, usable or not. -/
theorem cell_eq_modify {peers : List Peer} {f : Peer → Peer} {changes : Peer → List CellChange}
    (hindex : ∀ peer, (f peer).index = peer.index)
    (hcell : ∀ peer, (f peer).cell = (changes peer).foldl Cell.after peer.cell)
    (hnodup : (peers.map (·.index)).Nodup)
    (hcells : ∀ peer ∈ peers, peer.index = index → peer.cell = Cell.of (logs index)) (other : Nat) :
    ∀ peer ∈ peers.map fun peer => if peer.index = other then f peer else peer, peer.index = index →
      peer.cell = Cell.of (heardBy peers other changes logs index) := by
  intro peer hpeer hat
  obtain ⟨q, hq, rfl⟩ := List.mem_map.1 hpeer
  by_cases hother : q.index = other
  · subst hother
    simp only [if_true, hindex] at hat ⊢
    subst hat
    rw [hcell, heardBy_self (find?_of_nodup hnodup hq fun r => beq_iff_eq), Cell.of_append, hcells q hq rfl]
  · simp only [if_neg hother] at hat ⊢
    subst hat
    rw [heardBy_of_ne hother, hcells q hq rfl]

/-- What happens on a connection is noted. If the wait is over with that, the peer is done. -/
theorem Waits.onPeer (h : Waits before n index logs p) (f : Peer → Peer)
    (changes : Peer → List CellChange) (hindex : ∀ peer, (f peer).index = peer.index)
    (hcell : ∀ peer, (f peer).cell = (changes peer).foldl Cell.after peer.cell) (other : Nat) :
    Waits before n index (heardBy p.relay.peers other changes logs) (p.onPeer other f) ∨
      (p.onPeer other f).wait = none ∧
        Answered before (heardBy p.relay.peers other changes logs index) n := by
  obtain ⟨hsub, hnodup, hcells, request, reply, members, barrier, deadline, i, hwait, hi, rfl, htracks⟩ := h
  obtain ⟨more, hmore⟩ := heardBy_grows p.relay.peers other changes logs index
  have hsub' : before ⊆ heardBy p.relay.peers other changes logs index := by
    rw [hmore]
    exact fun change hchange => List.mem_append_left _ (hsub hchange)
  have hnodup' : ((p.relay.modify other f).peers.map (·.index)).Nodup := by
    rw [show (p.relay.modify other f).peers.map (·.index) = p.relay.peers.map (·.index) from
      map_index_modify hindex other p.relay.peers]
    exact hnodup
  have hcells' : ∀ peer ∈ (p.relay.modify other f).peers, peer.index = index →
      peer.cell = Cell.of (heardBy p.relay.peers other changes logs index) :=
    cell_eq_modify hindex hcell hnodup hcells other
  have htracks' : barrier.Tracks i before (heardBy p.relay.peers other changes logs index) := by
    rw [hmore]
    exact htracks.mono more
  generalize heardBy p.relay.peers other changes logs = logs' at hsub' hcells' htracks' ⊢
  unfold Proxy.onPeer
  simp only [hwait]
  split
  · next j peer hj hpeer =>
    have hnoted : (barrier.note j (if peer.cell.isOpen then .answered peer.cell.seen else .closed)).Tracks
        i before (logs' index) := by
      by_cases hij : j = i
      · subst hij
        obtain ⟨hlt, hindex', -⟩ := List.idxOf?_eq_some_iff.1 hi
        obtain ⟨hlt', hother, -⟩ := List.idxOf?_eq_some_iff.1 hj
        have hat : peer.index = index := (Relay.index_of_peer? hpeer).trans (hother.symm.trans hindex')
        exact htracks'.note_self hsub' (hcells' peer (List.mem_of_find?_eq_some hpeer) hat)
      · exact htracks'.note_of_ne hij _
    generalize (if peer.cell.isOpen then CellChange.answered peer.cell.seen else .closed) = change
      at hnoted ⊢
    split
    · next hreached => exact Or.inr ⟨rfl, hnoted.of_reached hreached⟩
    · exact Or.inl ⟨hsub', hnodup', hcells', request, reply, members, _, deadline, i, rfl, hi, rfl, hnoted⟩
  · exact Or.inl ⟨hsub', hnodup', hcells', request, reply, members, barrier, deadline, i, rfl, hi, rfl,
      htracks'⟩

/-- Peers may be dropped, and the rest may change. -/
theorem Waits.sublist (h : Waits before n index logs p)
    (hsub : q.relay.peers.Sublist p.relay.peers) (hwait : q.wait = p.wait) :
    Waits before n index logs q where
  subset := h.subset
  nodup := h.nodup.sublist (hsub.map _)
  cell_eq peer hpeer := h.cell_eq peer (hsub.subset hpeer)
  tracks := by
    rw [hwait]
    exact h.tracks

/-- The number of peers that are pending, while answers are waited for. -/
def pending? (p : Proxy) : Option Nat :=
  match p.wait with
  | some (.answering _ _ _ barrier _) => some barrier.pending
  | _ => none

/-- A wait for answers is over with an occurrence because every peer is done: when time is up, because
no peer is pending. -/
def EndsReached (ctx : ProxyContext) (p : Proxy) (o : Occurrence) : Prop :=
  p.pending?.isSome = true ∧ (p.meet ctx o).wait = none ∧ ∀ now, o = .tick now → p.pending? = some 0

/-- What is met with does not end the wait, or it ends it; then the peer is done if every peer is. -/
theorem Waits.meet (h : Waits before n index logs p) (ctx : ProxyContext) (o : Occurrence) :
    Waits before n index (p.hear logs (.met o)) (p.meet ctx o) ∨
      (p.meet ctx o).wait = none ∧
        (p.EndsReached ctx o → Answered before (p.hear logs (.met o) index) n) := by
  obtain ⟨request, reply, members, barrier, deadline, i, hwait, hi, hcseq, htracks⟩ := h.tracks
  have hlisteners : p.listeners = p.relay.peers := by simp only [listeners, hwait]
  have hexpects (other : Nat) : p.expects other = false := by simp only [expects, hwait]
  cases o with
  | tick now =>
    change Waits before n index logs (p.tick ctx now) ∨ (p.tick ctx now).wait = none ∧
      (_ → Answered before (logs index) n)
    unfold tick
    simp only [hwait]
    split
    · exact Or.inl (h.sublist (.refl _) rfl)
    · refine Or.inr ⟨rfl, fun hends => ?_⟩
      have hpending : some barrier.pending = some 0 := by
        have hzero := hends.2.2 now rfl
        simpa only [pending?, hwait] using hzero
      rw [← hcseq]
      exact htracks.of_pending (Option.some.inj hpending)
  | connected now other ip =>
    have hself : p.connected ctx now other ip = p := by simp only [connected, decided, hwait]
    refine Or.inl ?_
    simp only [hear, hexpects, Bool.false_eq_true, if_false, Proxy.meet, hself]
    exact h
  | refused now other =>
    have hself : p.refused ctx now other = p := by simp only [refused, decided, hwait]
    refine Or.inl ?_
    simp only [hear, Proxy.meet, hself]
    exact h
  | peerData peerBinder other data =>
    simp only [hear, hlisteners]
    have hindex : ∀ peer : Peer, (peer.read (peerBinder other) data).index = peer.index :=
      fun peer => (peer.samePlace_read _ data).index
    exact (h.onPeer _ _ hindex (Peer.cell_read _ data) other).imp_right
      fun hover => ⟨hover.1, fun _ => hover.2⟩
  | peerLost other =>
    simp only [hear, hlisteners]
    exact (h.onPeer Peer.lose (fun _ => [.closed]) (fun _ => rfl) (fun _ => rfl) other).imp_right
      fun hover => ⟨hover.1, fun _ => hover.2⟩
  | peerBroken other =>
    have honPeer := h.onPeer (fun peer => { peer with broken := true }) (fun _ => [])
      (fun _ => rfl) (fun _ => rfl) other
    rw [heardBy_nil] at honPeer
    exact honPeer.imp_right fun hover => ⟨hover.1, fun _ => hover.2⟩
  | datagram now role source data =>
    exact Or.inl (h.sublist (p.peers_datagram now role source data)
      (keeps_datagram now role source data p).wait)
  | peerDatagram now other role source data =>
    exact Or.inl (h.sublist (p.peers_peerDatagram now other role source data ▸ .refl _)
      (keeps_peerDatagram now other role source data p).wait)

/-- A wait for answers begins with every usable peer tracked, or is over at once with every peer done. -/
theorem waits_await {peer : Peer} {request : Request} (h : Listens logs p.relay.peers)
    (hmem : peer ∈ p.relay.peers) (halive : peer.alive = true) (hcseq : request.headers.cseq? = some n)
    (ctx : ProxyContext) (now : Moment) (reply : Reply) :
    Waits (logs peer.index) n peer.index logs (p.await ctx now request reply) ∨
      (p.await ctx now request reply).wait = none ∧
        Answered (logs peer.index) (logs peer.index) n := by
  have hpruned : Listens logs p.relay.prune.1.peers := h.sublist List.filter_sublist
  have hmem' : peer ∈ p.relay.prune.1.peers := List.mem_filter.2 ⟨hmem, halive⟩
  obtain ⟨i, hi, htracks⟩ := Barrier.tracks_start hpruned hmem' halive n
  unfold await
  simp only [hcseq]
  split
  · next hreached => exact Or.inr ⟨rfl, htracks.of_reached hreached⟩
  · refine Or.inl ⟨List.Subset.refl _, hpruned.nodup, fun q hq hat => ?_, request, reply, _, _, _, i, rfl,
      hi, rfl, htracks⟩
    have hq' : q ∈ p.relay.prune.1.peers := hq
    rw [hpruned.cell_eq q hq' (List.mem_filter.1 hq').2, hat]

/-- The wait for answers that an input began is over because every peer is done: at once, or with the
last of the occurrences. -/
def Reached (ctx : ProxyContext) (p : Proxy) (met : List Occurrence) : Prop :=
  met = [] ∧ p.wait = none ∨
    ∃ earlier o, met = earlier ++ [o] ∧ (p.meetAll ctx earlier).EndsReached ctx o

end Proxy

namespace Heard

open Proxy

variable {ctx : ProxyContext} {before : List CellChange} {index : Nat} {n : UInt32}

theorem proxy_run_met (ctx : ProxyContext) (w : Heard) (met : List Occurrence) :
    (w.run ctx (met.map .met)).proxy = w.proxy.meetAll ctx met := by
  rw [proxy_run, Proxy.run, List.foldl_map]
  rfl

/-- A wait goes on, or it is over for good. -/
theorem waits_run (ctx : ProxyContext) : ∀ (met : List Occurrence) {w : Heard},
    (w.proxy.Waits before n index w.log ∨ w.proxy.wait = none) →
    ((w.run ctx (met.map .met)).proxy.Waits before n index (w.run ctx (met.map .met)).log ∨
      (w.run ctx (met.map .met)).proxy.wait = none)
  | [], _, h => h
  | o :: met, w, h => by
    refine waits_run ctx met (w := w.take ctx (.met o)) ?_
    rcases h with h | h
    · exact (h.meet ctx o).imp_right And.left
    · exact Or.inr ((keeps_meet ctx h o).wait.trans h)

/-- The session of a client with the logs of its connections, after inputs. -/
def after (ctx : ProxyContext) (client localEnd : Endpoint) (inputs : List Input) : Heard :=
  run ctx ⟨ofClient ctx client localEnd, fun _ => []⟩ inputs

theorem told_after (ctx : ProxyContext) (client localEnd : Endpoint) (inputs : List Input) :
    (after ctx client localEnd inputs).proxy.Told (after ctx client localEnd inputs).log :=
  told_run ctx inputs (.of_peers (.nil _) (by simp [ofClient]))

theorem after_append (ctx : ProxyContext) (client localEnd : Endpoint) (inputs later : List Input) :
    after ctx client localEnd (inputs ++ later) = (after ctx client localEnd inputs).run ctx later :=
  List.foldl_append

/-- What is written with an input. -/
def writtenWith (ctx : ProxyContext) (client localEnd : Endpoint) (inputs : List Input) (i : Input) :
    List Output :=
  (after ctx client localEnd (inputs ++ [i])).proxy.output.drop
    (after ctx client localEnd inputs).proxy.output.length

/-- An input with which a request is written passes it on. -/
theorem passed_of_written {client localEnd : Endpoint} {inputs : List Input} {i : Input} {r : Request}
    (h : Output.request index r ∈ writtenWith ctx client localEnd inputs i) :
    ∃ ctx' now request reply q out,
      (after ctx client localEnd inputs).proxy.Passed (after ctx client localEnd (inputs ++ [i])).log
        request q out ∧
      (after ctx client localEnd (inputs ++ [i])).proxy = q.await ctx' now request reply ∧
      ∀ index r, Output.request index r ∈ writtenWith ctx client localEnd inputs i ↔
        Output.request index r ∈ out := by
  have hnew : after ctx client localEnd (inputs ++ [i]) =
      (after ctx client localEnd inputs).take ctx i := after_append ..
  have hpasses := passes_take (told_after ctx client localEnd inputs) ctx i
  unfold writtenWith at h ⊢
  rw [hnew] at h ⊢
  generalize after ctx client localEnd inputs = w at h hpasses ⊢
  rcases hpasses with ⟨-, out, hout, hnone⟩ | ⟨ctx', now, request, reply, q, out, hpassed, htake⟩
  · have hdrop : (w.proxy.take ctx i).output.drop w.proxy.output.length = out := by
      rw [hout, List.drop_left]
    exact absurd (hdrop ▸ h) (hnone index r)
  · obtain ⟨dropped, hdropped, hnone⟩ := (still_await ctx' now request reply q).quiet
    refine ⟨ctx', now, request, reply, q, out, hpassed, htake, fun index r => ?_⟩
    have hdrop : (w.proxy.take ctx i).output.drop w.proxy.output.length = out ++ dropped := by
      rw [htake, hdropped, hpassed.output_eq, List.append_assoc, List.drop_left]
    change _ ∈ (w.proxy.take ctx i).output.drop w.proxy.output.length ↔ _
    rw [hdrop, List.mem_append]
    exact or_iff_left (hnone index r)

/-- **The peers that are waited for are those that the request was written to.** -/
theorem members_iff_written {client localEnd : Endpoint} {inputs : List Input} {i : Input} {r : Request}
    {request : Request} {reply : Reply} {members : List Nat} {barrier : Barrier} {deadline : Nat}
    (hwritten : Output.request index r ∈ writtenWith ctx client localEnd inputs i)
    (hwait : (after ctx client localEnd (inputs ++ [i])).proxy.wait =
      some (.answering request reply members barrier deadline)) (other : Nat) :
    other ∈ members ↔ ∃ r, Output.request other r ∈ writtenWith ctx client localEnd inputs i := by
  obtain ⟨ctx', now, request', reply', q, out, hpassed, hafter, hout⟩ := passed_of_written hwritten
  simp only [hout, hpassed.written_iff]
  have hmembers : members = (q.relay.peers.filter (·.alive)).map (·.index) := by
    rw [hafter] at hwait
    unfold await at hwait
    split at hwait
    · cases hwait
    · simp only at hwait
      split at hwait
      · cases hwait
      · exact (Wait.answering.inj (Option.some.inj hwait)).2.2.1.symm
  simp [hmembers, and_assoc]

/-- **What a wait has seen that is over with every peer done.** A request with a sequence number was
written to a peer with an input, as it is to every peer that is usable when the wait begins (`Passed`),
and the wait for its answers is over with what was met since. Then the peer has answered with this
number on its connection, or has lost it; or the number is zero, and the peer had answered nothing when
the wait began. -/
theorem answered_of_reached (ctx : ProxyContext) (client localEnd : Endpoint) (inputs : List Input)
    (i : Input) (met : List Occurrence) {index : Nat} {r : Request} {n : UInt32}
    (hwritten : Output.request index r ∈ writtenWith ctx client localEnd inputs i)
    (hcseq : r.headers.cseq? = some n)
    (hreached : (after ctx client localEnd (inputs ++ [i])).proxy.Reached ctx met) :
    .answered n ∈ (after ctx client localEnd (inputs ++ [i] ++ met.map .met)).log index ∨
      .closed ∈ (after ctx client localEnd (inputs ++ [i] ++ met.map .met)).log index ∨
      n = 0 ∧ ∀ m, .answered m ∉ (after ctx client localEnd (inputs ++ [i])).log index := by
  obtain ⟨ctx', now, request, reply, q, out, hpassed, hafter, hout⟩ := passed_of_written hwritten
  have hmem : Output.request index r ∈ out := (hout index r).1 hwritten
  obtain ⟨peer, hpeer, halive, rfl⟩ := (hpassed.written_iff index).1 ⟨r, hmem⟩
  have hcseq' : request.headers.cseq? = some n := (hpassed.cseq_eq _ r hmem).symm.trans hcseq
  have hbegin := waits_await hpassed.listens hpeer halive hcseq' ctx' now reply
  rw [← hafter] at hbegin
  rw [after_append ctx client localEnd (inputs ++ [i])]
  generalize after ctx client localEnd (inputs ++ [i]) = w at hreached hbegin ⊢
  rcases hreached with ⟨rfl, hnone⟩ | ⟨earlier, o, rfl, hends⟩
  · -- the wait was over at once
    rcases hbegin with hwaits | ⟨-, hanswered⟩
    · obtain ⟨_, _, _, _, _, _, hwait, -⟩ := hwaits.tracks
      rw [hnone] at hwait
      cases hwait
    · exact hanswered
  · -- the wait was over with the last occurrence, so it went on until then
    have hlast : w.run ctx ((earlier ++ [o]).map .met) = (w.run ctx (earlier.map .met)).take ctx (.met o) := by
      rw [List.map_append]
      exact List.foldl_append
    rw [hlast]
    rw [← proxy_run_met] at hends
    rcases waits_run ctx earlier (hbegin.imp_right And.left) with hwaits | hnone
    · rcases hwaits.meet ctx o with hgoes | ⟨-, hanswered⟩
      · obtain ⟨_, _, _, _, _, _, hwait, -⟩ := hgoes.tracks
        rw [hends.2.1] at hwait
        cases hwait
      · exact hanswered hends
    · have hpending := hends.1
      simp [pending?, hnone] at hpending

/-- An announcement with a sequence number. -/
def numbered (n : UInt32) : Input :=
  .request peeredContext.binder peeredContext.peerBinder default
    (PlayerSession.announceLossless.withCseq n)

/-- The connection that it waits for. -/
def joined : Input := .met (.connected default 0 default)

/-- The announcement is written to the peer once it is connected. -/
theorem exists_written {n : UInt32} (h : ((writtenWith peeredContext default default [numbered n] joined).any
      fun o => match o with
        | .request 0 r => r.headers.cseq? == some n
        | _ => false) = true) :
    ∃ r, Output.request 0 r ∈ writtenWith peeredContext default default [numbered n] joined ∧
      r.headers.cseq? = some n := by
  obtain ⟨o, ho, hcseq⟩ := List.any_eq_true.1 h
  split at hcseq
  · next r => exact ⟨r, ho, by simpa using hcseq⟩
  · cases hcseq

/-- The peer's answer ends the wait. -/
theorem answered_of_reached_seven :
    .answered 7 ∈ (after peeredContext default default ([numbered 7, joined] ++
        [.peerData peeredContext.peerBinder 0
          (Text.encode "RTSP/1.0 200 OK\r\nCSeq: 7\r\n\r\n")].map .met)).log 0 ∨
      .closed ∈ (after peeredContext default default ([numbered 7, joined] ++
        [.peerData peeredContext.peerBinder 0
          (Text.encode "RTSP/1.0 200 OK\r\nCSeq: 7\r\n\r\n")].map .met)).log 0 := by
  generalize hanswer : Occurrence.peerData peeredContext.peerBinder 0
    (Text.encode "RTSP/1.0 200 OK\r\nCSeq: 7\r\n\r\n") = answer
  obtain ⟨r, hwritten, hcseq⟩ := exists_written (n := 7) (by decide +kernel)
  have hreached : (after peeredContext default default ([numbered 7] ++ [joined])).proxy.Reached
      peeredContext [answer] := by
    have hrun : ((after peeredContext default default [numbered 7, joined]).proxy.meet peeredContext
        answer).wait.isNone = true := by
      subst hanswer
      decide +kernel
    exact Or.inr ⟨[], answer, rfl, by decide +kernel, Option.isNone_iff_eq_none.1 hrun,
      fun now htick => by rw [← hanswer] at htick; cases htick⟩
  rcases answered_of_reached peeredContext default default [numbered 7] joined [answer] hwritten hcseq
    hreached with h | h | ⟨h, -⟩
  · exact Or.inl h
  · exact Or.inr h
  · exact absurd h (by decide)

/-- The wait for the answers to a request numbered zero is over at once, with nothing answered. -/
theorem unanswered_of_reached_zero :
    (∃ r, Output.request 0 r ∈ writtenWith peeredContext default default [numbered 0] joined ∧
        r.headers.cseq? = some 0) ∧
      (after peeredContext default default [numbered 0, joined]).proxy.Reached peeredContext [] ∧
      (after peeredContext default default [numbered 0, joined]).log 0 = [] := by
  refine ⟨exists_written (by decide +kernel), Or.inl ⟨rfl, ?_⟩, by decide +kernel⟩
  exact Option.isNone_iff_eq_none.1 (by decide +kernel)

end Heard
end Raop
