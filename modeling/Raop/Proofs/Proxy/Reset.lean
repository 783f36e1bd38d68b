/-
# Datagrams that arrive during a reset

A reset closes the peers, forgets what was remembered of the stream, and closes
the channels to the sender one after the other. A channel takes datagrams until
it is closed, so they may arrive between any two of these steps. Without
arrivals this is the reset in one step (`proxy_run_proceeds`).

The peers and their timing requests are gone for good with the first two steps.
But a channel to the sender that is open still when the history was emptied can
fill it again: what the reset leaves in the history is what was kept since
(`leaves_of_over`), and that can be served to a peer of the next stream.

Key definitions: `Resetting`, `Resetting.step`, `Resetting.late`, `Resetting.Leaves`.
Key theorems: `History.unserved_iff`, `History.packets_recorded_eq_nil_iff`,
`Resetting.proxy_run_proceeds`, `Resetting.inv_step`, `Resetting.leaves_of_over`.
-/
import Raop.Proofs.Proxy.PeerRequests
import Raop.Proofs.Proxy.TimingRoutes

namespace Raop

/-! ### The history -/

namespace History

variable {h : History} {datagram : Bytes}

@[simp] theorem packets_clear (h : History) : h.clear.packets = [] := rfl

@[simp] theorem capacity_clear (h : History) : h.clear.capacity = h.capacity := rfl

theorem store_ne_nil (sequence : UInt16) (datagram : Bytes) (packets : List (UInt16 × Bytes)) :
    store sequence datagram packets ≠ [] := by
  unfold store
  split
  · simp
  · split <;> simp

theorem evict_ne_nil {capacity : Nat} {packets : List (UInt16 × Bytes)} (hc : capacity ≠ 0)
    (h : packets ≠ []) : evict capacity packets ≠ [] := by
  have hlength := List.length_pos_of_ne_nil h
  refine List.ne_nil_of_length_pos ?_
  rw [evict, List.length_drop]
  omega

/-- A history has no packet after a datagram if it had none and cannot keep this one. -/
theorem packets_record_eq_nil_iff : (h.record datagram).packets = [] ↔
    h.packets = [] ∧ (h.capacity = 0 ∨ AudioPacket.peekSequence? datagram = none) := by
  unfold record
  by_cases hc : h.capacity = 0
  · simp [hc]
  · rw [if_neg hc]
    cases AudioPacket.peekSequence? datagram with
    | none => simp
    | some sequence => simp [hc, evict_ne_nil hc (store_ne_nil sequence datagram h.packets)]

theorem clear_recorded : ∀ (datagrams : List Bytes) (h : History),
    (datagrams.foldl record h).clear = h.clear
  | [], _ => rfl
  | datagram :: datagrams, h => by
    rw [List.foldl_cons, clear_recorded datagrams]
    simp [clear]

theorem packets_recorded_eq_nil_iff : ∀ (datagrams : List Bytes) {h : History},
    (datagrams.foldl record h).packets = [] ↔ h.packets = [] ∧
      (h.capacity = 0 ∨ ∀ datagram ∈ datagrams, AudioPacket.peekSequence? datagram = none)
  | [], h => by simp
  | datagram :: datagrams, h => by
    rw [List.foldl_cons, packets_recorded_eq_nil_iff datagrams, packets_record_eq_nil_iff,
      capacity_record, List.forall_mem_cons]
    tauto

/-- Nothing can be served from a history just if it has no packet. -/
theorem unserved_iff (h : History) :
    (∀ request : RetransmitRequest, request.count ≠ 0 → h.retransmissions? request = none) ↔
      h.packets = [] := by
  constructor
  · intro hnone
    cases hp : h.packets with
    | nil => rfl
    | cons p ps =>
      have hserved := hnone ⟨0, p.1, 1⟩ (by simp)
      simp [retransmissions?, RetransmitRequest.sequences, RetransmitRequest.run, get?, hp] at hserved
  · intro hp request hcount
    have hget (sequence : UInt16) : h.get? sequence = none := by simp [get?, hp]
    obtain ⟨n, hn⟩ : ∃ n, request.count.toNat = n + 1 :=
      Nat.exists_eq_succ_of_ne_zero fun hzero => hcount (UInt16.toNat_inj.1 hzero)
    simp [retransmissions?, RetransmitRequest.sequences, RetransmitRequest.run, hn,
      List.range_succ_eq_map, hget]

end History

/-- The packet that is kept of a datagram of the sender. -/
def Relay.kept? (role : Role) (data : Bytes) : Option Bytes :=
  match role with
  | .audio => some data
  | .control =>
    match PayloadType.of data, RetransmitResponse.audioPacket data with
    | .ok .retransmitResponse, .ok packet => some packet
    | _, _ => none
  | .timing => none

namespace Relay

variable {now : Moment} {c : Channel} {source : Endpoint} {data : Bytes} {channels : ChannelSet}

/-- What a datagram of the sender does to what is remembered. -/
theorem remembered_fromSender (r : Relay) (now : Moment) (c : Channel) (source : Endpoint) (data : Bytes) :
    (r.fromSender now c source data).1.history = (kept? c.role data).toList.foldl History.record r.history ∧
      (r.fromSender now c source data).1.control = r.control ∧
      (r.fromSender now c source data).1.timing = r.timing ∧
      (r.keys.entries = [] → (r.fromSender now c source data).1.keys.entries = []) := by
  unfold fromSender
  cases hrole : c.role with
  | audio => exact ⟨rfl, rfl, rfl, id⟩
  | control =>
    simp only [fromSenderControl, kept?]
    -- only a retransmit response that a packet can be read of is kept
    cases PayloadType.of data with
    | error reason => exact ⟨rfl, rfl, rfl, id⟩
    | ok type =>
      cases RetransmitResponse.audioPacket data with
      | error reason => cases type <;> exact ⟨rfl, rfl, rfl, id⟩
      | ok packet => cases type <;> exact ⟨rfl, rfl, rfl, id⟩
  | timing =>
    simp only [fromSenderTiming, kept?]
    split
    · unfold routeTiming
      split
      · exact ⟨rfl, rfl, rfl, id⟩
      · refine ⟨rfl, rfl, rfl, fun hnil => ?_⟩
        simp [TimingKeys.entries_resolve, hnil]
    · split
      · exact ⟨rfl, rfl, rfl, id⟩
      · split <;> exact ⟨rfl, rfl, rfl, id⟩
    · exact ⟨rfl, rfl, rfl, id⟩

theorem history_fromPeer (r : Relay) (now : Moment) (channels : ChannelSet) (p : Peer) (c : Channel)
    (data : Bytes) : (r.fromPeer now channels p c data).1.history = r.history := by
  unfold fromPeer
  split
  · rfl
  · unfold fromPeerControl
    simp only
    split <;> rfl
  · unfold fromPeerTiming
    simp only
    split <;> rfl

end Relay

namespace Proxy

variable {p : Proxy}

/-- The packet that is kept when a datagram of the sender arrives: none without a channel that takes it. -/
def keeping? (p : Proxy) (role : Role) (source : Endpoint) (data : Bytes) : Option Bytes :=
  (p.taking? role source).bind fun _ => Relay.kept? role (Channel.taken data)

/-- What a datagram of the sender does to what is remembered. -/
theorem remembered_datagram (p : Proxy) (now : Moment) (role : Role) (source : Endpoint) (data : Bytes) :
    (p.datagram now role source data).relay.history =
        (p.keeping? role source data).toList.foldl History.record p.relay.history ∧
      (p.datagram now role source data).relay.control = p.relay.control ∧
      (p.datagram now role source data).relay.timing = p.relay.timing ∧
      (p.relay.keys.entries = [] → (p.datagram now role source data).relay.keys.entries = []) := by
  rw [datagram_eq, keeping?]
  cases htaking : p.taking? role source with
  | none => exact ⟨rfl, rfl, rfl, id⟩
  | some c =>
    obtain ⟨hhistory, hcontrol, htiming, hkeys⟩ :=
      p.relay.remembered_fromSender now c source (Channel.taken data)
    rw [role_of_taking? htaking] at hhistory
    exact ⟨hhistory, hcontrol, htiming, hkeys⟩

/-- A datagram of a peer leaves the history as it is, and does nothing without peers. -/
theorem history_peerDatagram (p : Proxy) (now : Moment) (index : Nat) (role : Role) (source : Endpoint)
    (data : Bytes) : (p.peerDatagram now index role source data).relay.history = p.relay.history := by
  rw [peerDatagram_eq]
  split
  · rfl
  · exact Relay.history_fromPeer ..

theorem peerDatagram_of_peers_eq_nil (h : p.relay.peers = []) (now : Moment) (index : Nat) (role : Role)
    (source : Endpoint) (data : Bytes) : p.peerDatagram now index role source data = p := by
  simp [peerDatagram, Relay.peer?, h]

end Proxy

/-! ### The steps of a reset -/

/-- The set once the first channels are closed. -/
def ChannelSet.closeFirst (s : ChannelSet) (n : Nat) : ChannelSet :=
  { s with
    entries := s.entries.drop n
    released := (s.entries.take n).map Channel.shutdown ++ s.released }

theorem ChannelSet.closeFirst_length (s : ChannelSet) : s.closeFirst s.entries.length = s.closeAll := by
  simp [closeFirst, closeAll]

/-- How far a reset is. -/
inductive ResetStage where
  | begun
  | peersClosed
  /-- Nothing is remembered any more, and so many channels to the sender are closed. -/
  | forgotten (closed : Nat)
  | ended
  deriving DecidableEq, Repr

/-- A session that is being reset, with the channels that were open when that began. -/
structure Resetting where
  proxy : Proxy
  opened : ChannelSet
  stage : ResetStage := .begun

/-- What happens during a reset: it proceeds by a step, or a datagram arrives. -/
inductive ResetEvent where
  | proceeds
  | arrives (now : Moment) (role : Role) (source : Endpoint) (data : Bytes)
  | peerArrives (now : Moment) (index : Nat) (role : Role) (source : Endpoint) (data : Bytes)

namespace Resetting

/-- A reset as it begins. -/
def begin (p : Proxy) : Resetting := { proxy := p, opened := p.channels }

/-- The next step of a reset. -/
def proceed (r : Resetting) : Resetting :=
  match r.stage with
  | .begun => { r with proxy := r.proxy.closePeers, stage := .peersClosed }
  | .peersClosed => { r with proxy := r.proxy.clearRelay, stage := .forgotten 0 }
  | .forgotten n =>
    if n < r.opened.entries.length then
      { r with
        proxy := { r.proxy with channels := r.opened.closeFirst (n + 1) }, stage := .forgotten (n + 1) }
    else { r with proxy := { r.proxy with volume := none, state := .idle }, stage := .ended }
  | .ended => r

/-- The reset after an event. -/
def step (r : Resetting) : ResetEvent → Resetting
  | .proceeds => r.proceed
  | .arrives now role source data => { r with proxy := r.proxy.datagram now role source data }
  | .peerArrives now index role source data =>
    { r with proxy := r.proxy.peerDatagram now index role source data }

/-- The reset after events, one after the other. -/
def run (r : Resetting) (events : List ResetEvent) : Resetting := events.foldl step r

/-- The packets that are kept with an event although the history was emptied before. -/
def lateWith (r : Resetting) : ResetEvent → List Bytes
  | .arrives _ role source data =>
    match r.stage with
    | .begun | .peersClosed => []
    | .forgotten _ | .ended => (r.proxy.keeping? role source data).toList
  | _ => []

/-- The packets that are kept with events although the history was emptied before. -/
def late : Resetting → List ResetEvent → List Bytes
  | _, [] => []
  | r, e :: events => r.lateWith e ++ (r.step e).late events

/-! ### Without arrivals -/

/-- The reset of a session of which nothing is remembered, when so many channels are closed. -/
def closing (p : Proxy) (n : Nat) : Resetting where
  proxy := { p with channels := p.channels.closeFirst n }
  opened := p.channels
  stage := .forgotten n

theorem proxy_run_closing (p : Proxy) : ∀ k n, n + k = p.channels.entries.length →
    ((closing p n).run (List.replicate (k + 1) .proceeds)).proxy =
      { p.closeChannels with volume := none, state := .idle }
  | 0, n, hn => by
    obtain rfl : n = p.channels.entries.length := by omega
    simp [closing, run, step, proceed, ChannelSet.closeFirst_length, Proxy.closeChannels]
  | k + 1, n, hn => by
    have hlt : n < p.channels.entries.length := by omega
    have hstep : (closing p n).step .proceeds = closing p (n + 1) := by
      simp [closing, step, proceed, hlt]
    rw [List.replicate_succ, run, List.foldl_cons, hstep]
    exact proxy_run_closing p k (n + 1) (by omega)

/-- A reset during which nothing arrives is the reset in one step. -/
theorem proxy_run_proceeds (p : Proxy) :
    ((begin p).run (List.replicate (p.channels.entries.length + 3) .proceeds)).proxy = p.reset := by
  rw [List.replicate_succ, List.replicate_succ]
  exact proxy_run_closing p.closePeers.clearRelay p.channels.entries.length 0 (Nat.zero_add _)

/-! ### With arrivals -/

/-- The channels to the sender that are open still. -/
def left (opened : List Channel) : ResetStage → List Channel
  | .begun | .peersClosed => opened
  | .forgotten n => opened.drop n
  | .ended => []

/-- The stream is forgotten but for these packets, which were kept later. -/
structure Forgot (late : List Bytes) (before after : Relay) : Prop where
  history : after.history = late.foldl History.record before.history.clear
  keys : after.keys.entries = []
  control : after.control = none
  timing : after.timing = none

/-- What is so at every point of a reset. -/
structure Inv (p : Proxy) (late : List Bytes) (r : Resetting) : Prop where
  opened : r.opened = p.channels
  channels : r.proxy.channels.entries = left p.channels.entries r.stage
  peers : r.stage ≠ .begun → r.proxy.relay.peers = []
  remembered : match r.stage with
    | .begun | .peersClosed => late = [] ∧ r.proxy.relay.history.clear = p.relay.history.clear
    | .forgotten _ | .ended => Forgot late p.relay r.proxy.relay

variable {p : Proxy} {late : List Bytes} {r : Resetting}

theorem inv_begin (p : Proxy) : Inv p [] (begin p) :=
  ⟨rfl, rfl, fun h => absurd rfl h, rfl, rfl⟩

theorem inv_proceed (h : Inv p late r) : Inv p late r.proceed := by
  obtain ⟨hopened, hchannels, hpeers, hremembered⟩ := h
  unfold proceed
  cases hstage : r.stage with
  | begun =>
    simp only [hstage, left] at hchannels hremembered ⊢
    exact ⟨hopened, hchannels, fun _ => rfl, hremembered⟩
  | peersClosed =>
    simp only [hstage, left] at hchannels hremembered ⊢
    obtain ⟨rfl, hhistory⟩ := hremembered
    exact ⟨hopened, hchannels, fun _ => hpeers (by simp [hstage]), hhistory, rfl, rfl, rfl⟩
  | forgotten n =>
    simp only [hstage, left] at hchannels hremembered ⊢
    have hnil := hpeers (by simp [hstage])
    split
    · refine ⟨hopened, ?_, fun _ => hnil, hremembered⟩
      rw [hopened]
      rfl
    · next hall =>
      rw [hopened] at hall
      rw [List.drop_eq_nil_of_le (Nat.le_of_not_lt hall)] at hchannels
      exact ⟨hopened, hchannels, fun _ => hnil, hremembered⟩
  | ended => exact ⟨hopened, hchannels, hpeers, hremembered⟩

theorem inv_arrives (h : Inv p late r) (now : Moment) (role : Role) (source : Endpoint) (data : Bytes) :
    Inv p (late ++ r.lateWith (.arrives now role source data)) (r.step (.arrives now role source data)) := by
  obtain ⟨hopened, hchannels, hpeers, hremembered⟩ := h
  obtain ⟨hhistory, hcontrol, htiming, hkeys⟩ := r.proxy.remembered_datagram now role source data
  refine ⟨hopened, ?_, fun hstage => ?_, ?_⟩
  · change (r.proxy.datagram now role source data).channels.entries = _
    rw [(Proxy.keeps_datagram now role source data r.proxy).channels, hchannels]
    rfl
  · have hsub := r.proxy.peers_datagram now role source data
    rw [hpeers hstage] at hsub
    exact List.sublist_nil.1 hsub
  · have hforgot : Forgot late p.relay r.proxy.relay →
        Forgot (late ++ (r.proxy.keeping? role source data).toList) p.relay
          (r.proxy.datagram now role source data).relay := by
      intro h
      refine ⟨?_, hkeys h.keys, hcontrol.trans h.control, htiming.trans h.timing⟩
      rw [hhistory, h.history, List.foldl_append]
    have hkept : (r.proxy.datagram now role source data).relay.history.clear =
        r.proxy.relay.history.clear := by
      rw [hhistory, History.clear_recorded]
    simp only [step, lateWith]
    cases hstage : r.stage with
    | begun | peersClosed =>
      simp only [hstage] at hremembered ⊢
      exact ⟨by rw [hremembered.1]; rfl, hkept.trans hremembered.2⟩
    | forgotten _ | ended =>
      simp only [hstage] at hremembered ⊢
      exact hforgot hremembered

theorem inv_peerArrives (h : Inv p late r) (now : Moment) (index : Nat) (role : Role) (source : Endpoint)
    (data : Bytes) : Inv p late (r.step (.peerArrives now index role source data)) := by
  by_cases hstage : r.stage = .begun
  · obtain ⟨hopened, hchannels, hpeers, hremembered⟩ := h
    simp only [hstage] at hremembered
    refine ⟨hopened, ?_, fun hnot => absurd hstage hnot, ?_⟩
    · change (r.proxy.peerDatagram now index role source data).channels.entries = _
      rw [(Proxy.keeps_peerDatagram now index role source data r.proxy).channels, hchannels]
      rfl
    · simp only [step, hstage, Proxy.history_peerDatagram]
      exact hremembered
  · have hself : r.step (.peerArrives now index role source data) = r := by
      simp only [step, Proxy.peerDatagram_of_peers_eq_nil (h.peers hstage)]
    rwa [hself]

/-- One event adds what is kept late with it. -/
theorem inv_step (h : Inv p late r) (e : ResetEvent) : Inv p (late ++ r.lateWith e) (r.step e) := by
  cases e with
  | proceeds =>
    simp only [lateWith, List.append_nil]
    exact inv_proceed h
  | arrives now role source data => exact inv_arrives h now role source data
  | peerArrives now index role source data =>
    simp only [lateWith, List.append_nil]
    exact inv_peerArrives h now index role source data

theorem inv_run : ∀ (events : List ResetEvent) {late : List Bytes} {r : Resetting}, Inv p late r →
    Inv p (late ++ r.late events) (r.run events)
  | [], late, r, h => by
    rw [Resetting.late, List.append_nil]
    exact h
  | e :: events, late, r, h => by
    rw [Resetting.late, ← List.append_assoc]
    exact inv_run events (inv_step h e)

/-- How many steps a reset has before it. -/
def remaining (r : Resetting) : Nat :=
  match r.stage with
  | .begun => r.opened.entries.length + 3
  | .peersClosed => r.opened.entries.length + 2
  | .forgotten n => r.opened.entries.length - n + 1
  | .ended => 0

/-- The steps among events. -/
def steps : List ResetEvent → Nat
  | [] => 0
  | .proceeds :: events => steps events + 1
  | _ :: events => steps events

theorem remaining_proceed (r : Resetting) : r.proceed.remaining = r.remaining - 1 := by
  unfold proceed
  cases hstage : r.stage with
  | begun => simp [remaining, hstage]
  | peersClosed => simp [remaining, hstage]
  | forgotten n =>
    simp only
    split
    · simp only [remaining, hstage]
      omega
    · simp only [remaining, hstage]
      omega
  | ended => simp [remaining, hstage]

theorem remaining_run : ∀ (events : List ResetEvent) (r : Resetting),
    (r.run events).remaining = r.remaining - steps events
  | [], r => rfl
  | e :: events, r => by
    change ((r.step e).run events).remaining = _
    rw [remaining_run events]
    cases e with
    | proceeds =>
      change r.proceed.remaining - _ = r.remaining - (steps events + 1)
      rw [remaining_proceed]
      omega
    | _ => rfl

/-- A reset is over after so many steps, whatever arrives. -/
theorem over_of_steps (p : Proxy) (events : List ResetEvent)
    (h : p.channels.entries.length + 3 ≤ steps events) : ((begin p).run events).stage = .ended := by
  have hzero : ((begin p).run events).remaining = 0 := by
    rw [remaining_run]
    exact Nat.sub_eq_zero_of_le h
  unfold remaining at hzero
  split at hzero
  · omega
  · omega
  · omega
  · next hover => exact hover

/-- What a reset leaves: no peer, no channel to the sender, no timing request, and in the history only
what was kept late. -/
structure Leaves (late : List Bytes) (p q : Proxy) : Prop extends Forgot late p.relay q.relay where
  peers : q.relay.peers = []
  channels : q.channels.entries = []

/-- **What a reset leaves, whatever arrives during it.** The timing requests are forgotten and no channel
to the sender is set. The history has no packet, and none can be served of it, just if none was kept
after it was emptied. -/
theorem leaves_of_over (p : Proxy) (events : List ResetEvent)
    (h : ((begin p).run events).stage = .ended) :
    Leaves ((begin p).late events) p ((begin p).run events).proxy ∧
      (((begin p).run events).proxy.relay.history.packets = [] ↔ p.relay.history.capacity = 0 ∨
        ∀ packet ∈ (begin p).late events, AudioPacket.peekSequence? packet = none) ∧
      ((∀ request : RetransmitRequest, request.count ≠ 0 →
          ((begin p).run events).proxy.relay.history.retransmissions? request = none) ↔
        ((begin p).run events).proxy.relay.history.packets = []) := by
  obtain ⟨-, hchannels, hpeers, hremembered⟩ := inv_run events (inv_begin p)
  rw [List.nil_append] at hremembered
  simp only [h, left] at hchannels hremembered
  refine ⟨⟨hremembered, hpeers (by simp [h]), hchannels⟩, ?_, History.unserved_iff _⟩
  rw [hremembered.history, History.packets_recorded_eq_nil_iff]
  simp

/-- A session whose stream is set up. -/
def streaming : Proxy := Proxy.pairStart.run Proxy.pairContext Proxy.pairJoin

/-- The audio packet with the sequence number 7. -/
def packetSeven : Bytes := [0x80, 0x60, 0, 7, 0, 0, 0, 1, 0, 0, 0, 2, 9]

/-- The packet arrives when the history is empty again and the channels are open still. -/
def arrivesLate : List ResetEvent :=
  [.proceeds, .proceeds, .arrives default .audio default packetSeven, .proceeds, .proceeds, .proceeds,
    .proceeds]

theorem leaves_of_over_arrivesLate :
    Leaves [packetSeven] streaming ((begin streaming).run arrivesLate).proxy ∧
      ¬∀ request : RetransmitRequest, request.count ≠ 0 →
        ((begin streaming).run arrivesLate).proxy.relay.history.retransmissions? request = none := by
  have hrun : ((begin streaming).run arrivesLate).stage = .ended ∧
      (begin streaming).late arrivesLate = [packetSeven] ∧
      streaming.relay.history.capacity ≠ 0 := by decide +kernel
  obtain ⟨hover, hlate, hcapacity⟩ := hrun
  obtain ⟨hleaves, hempty, hserved⟩ := leaves_of_over streaming arrivesLate hover
  rw [hlate] at hleaves hempty
  refine ⟨hleaves, fun hnone => ?_⟩
  rcases hempty.1 (hserved.1 hnone) with h | h
  · exact hcapacity h
  · have hsequence : AudioPacket.peekSequence? packetSeven ≠ none := by decide
    exact hsequence (h packetSeven (List.mem_singleton_self _))

/-- A packet of the stream that ended can be served when the reset is over. -/
theorem served_after_reset :
    ((begin streaming).run arrivesLate).stage = .ended ∧
      ((begin streaming).run arrivesLate).proxy.relay.history.packets = [(7, packetSeven)] ∧
      ((begin streaming).run arrivesLate).proxy.relay.history.retransmissions? ⟨0, 7, 1⟩ =
        some [RetransmitResponse.encode 7 packetSeven] := by
  decide +kernel

end Resetting
end Raop
