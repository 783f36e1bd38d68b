/-
# What is in the history of a run

A session keeps datagrams of its sender, from the audio channel as they are and
from the control channel the packets that responses carry (`Proxy.kept?`), and
empties its history with a reset. Nothing else changes the history
(`Proxy.history_take`). So what the history has under a sequence number is the
datagram that was kept last under that number, whatever the capacity and however
often a number comes again (`History.Recent`).

Key definitions: `History.lastRecorded`, `History.Recent`, `Proxy.kept?`, `Proxy.kept`.
Key theorems: `History.Recent.record`, `History.retransmissions?_eq_some_iff`,
`Proxy.history_take`, `Proxy.recent_run`.
-/
import Raop.Proofs.Datagram.Audio
import Raop.Proofs.Lists
import Raop.Proofs.Proxy.Turns

namespace Raop

namespace History

variable {h : History} {datagrams : List Bytes} {datagram : Bytes} {sequence : UInt16}

/-- The datagram that was recorded last under a sequence number. -/
def lastRecorded (datagrams : List Bytes) (sequence : UInt16) : Option Bytes :=
  datagrams.reverse.find? fun datagram => AudioPacket.peekSequence? datagram = some sequence

theorem lastRecorded_append_of_ne (h : AudioPacket.peekSequence? datagram ≠ some sequence) :
    lastRecorded (datagrams ++ [datagram]) sequence = lastRecorded datagrams sequence := by
  simp [lastRecorded, h]

theorem lastRecorded_append_self (h : AudioPacket.peekSequence? datagram = some sequence) :
    lastRecorded (datagrams ++ [datagram]) sequence = some datagram := by
  simp [lastRecorded, h]

theorem mem_of_lastRecorded (h : lastRecorded datagrams sequence = some datagram) :
    datagram ∈ datagrams ∧ AudioPacket.peekSequence? datagram = some sequence := by
  refine ⟨List.mem_reverse.1 (List.mem_of_find?_eq_some h), ?_⟩
  simpa using List.find?_some h

/-! ### Storing -/

theorem map_fst_store (sequence : UInt16) (datagram : Bytes) : ∀ packets : List (UInt16 × Bytes),
    (store sequence datagram packets).map (·.1) =
      if sequence ∈ packets.map (·.1) then packets.map (·.1) else packets.map (·.1) ++ [sequence]
  | [] => rfl
  | p :: ps => by
    by_cases heq : p.1 = sequence
    · simp [store, heq]
    · have hne : sequence ≠ p.1 := Ne.symm heq
      rw [store, if_neg heq, List.map_cons, map_fst_store sequence datagram ps]
      simp only [List.map_cons, List.mem_cons, hne, false_or]
      split <;> rfl

theorem nodup_store {packets : List (UInt16 × Bytes)} (h : (packets.map (·.1)).Nodup)
    (sequence : UInt16) (datagram : Bytes) :
    ((store sequence datagram packets).map (·.1)).Nodup := by
  rw [map_fst_store]
  split
  · exact h
  · next hnew => exact h.append (List.nodup_singleton _) (by simpa using hnew)

/-- What is there after a datagram was stored: that one, and the others as they were. -/
theorem mem_store_cases : ∀ {packets : List (UInt16 × Bytes)}, (packets.map (·.1)).Nodup →
    ∀ e ∈ store sequence datagram packets, e = (sequence, datagram) ∨ e ∈ packets ∧ e.1 ≠ sequence
  | [], _, e, he => Or.inl (List.mem_singleton.1 he)
  | p :: ps, h, e, he => by
    obtain ⟨hnew, hnodup⟩ := List.nodup_cons.1 h
    unfold store at he
    split at he
    · next heq =>
      rcases List.mem_cons.1 he with rfl | he
      · exact Or.inl rfl
      · refine Or.inr ⟨List.mem_cons_of_mem p he, fun hsequence => hnew ?_⟩
        exact List.mem_map.2 ⟨e, he, hsequence.trans heq.symm⟩
    · next hne =>
      rcases List.mem_cons.1 he with rfl | he
      · exact Or.inr ⟨List.mem_cons_self, hne⟩
      · refine (mem_store_cases hnodup e he).imp_right fun hold => ?_
        exact ⟨List.mem_cons_of_mem p hold.1, hold.2⟩

/-! ### What is recent -/

/-- The history has numbers that are distinct, and under each of them what was recorded last. -/
structure Recent (datagrams : List Bytes) (h : History) : Prop where
  nodup : (h.packets.map (·.1)).Nodup
  last : ∀ e ∈ h.packets, lastRecorded datagrams e.1 = some e.2
  /-- A history without capacity stays empty. -/
  empty : h.capacity = 0 → h.packets = []

namespace Recent

theorem of_packets_eq_nil (hnil : h.packets = []) : Recent datagrams h where
  nodup := by simp [hnil]
  last := by simp [hnil]
  empty _ := hnil

theorem record (hr : Recent datagrams h) (datagram : Bytes) :
    Recent (datagrams ++ [datagram]) (h.record datagram) := by
  unfold History.record
  split
  · next hc => exact of_packets_eq_nil (hr.empty hc)
  · next hc =>
    split
    · next hnone =>
      refine ⟨hr.nodup, fun e he => ?_, hr.empty⟩
      rw [lastRecorded_append_of_ne (by simp [hnone])]
      exact hr.last e he
    · next sequence hsequence =>
      -- what is evicted is gone, and the rest is as it was stored
      have hkept : (evict h.capacity (store sequence datagram h.packets)).Sublist
          (store sequence datagram h.packets) := List.drop_sublist _ _
      refine ⟨(nodup_store hr.nodup sequence datagram).sublist (hkept.map _), fun e he => ?_,
        fun hzero => absurd hzero hc⟩
      rcases mem_store_cases hr.nodup e (hkept.subset he) with rfl | ⟨hold, hne⟩
      · exact lastRecorded_append_self hsequence
      · rw [lastRecorded_append_of_ne fun heq => hne (Option.some.inj (heq.symm.trans hsequence))]
        exact hr.last e hold

theorem recorded (hr : Recent datagrams h) : ∀ {kept : List Bytes},
    Recent (datagrams ++ kept) (kept.foldl History.record h) := by
  intro kept
  induction kept generalizing datagrams h with
  | nil => rwa [List.append_nil]
  | cons datagram kept ih =>
    have hstep := ih (hr.record datagram)
    rwa [List.append_assoc, List.singleton_append] at hstep

theorem get? (hr : Recent datagrams h) {packet : Bytes} (hget : h.get? sequence = some packet) :
    lastRecorded datagrams sequence = some packet := by
  obtain ⟨e, he, rfl⟩ := Option.map_eq_some_iff.1 hget
  have hsequence : e.1 = sequence := by simpa using List.find?_some he
  rw [← hsequence]
  exact hr.last e (List.mem_of_find?_eq_some he)

end Recent

/-! ### Retransmissions -/

/-- A request is served just if each packet is there that it asks for, with one response for each. -/
theorem retransmissions?_eq_some_iff {request : RetransmitRequest} {responses : List Bytes} :
    h.retransmissions? request = some responses ↔
      responses.length = request.count.toNat ∧ ∀ i (hi : i < responses.length), ∃ packet,
        h.get? (request.start + .ofNat i) = some packet ∧
          responses[i] = RetransmitResponse.encode (request.start + .ofNat i) packet := by
  rw [retransmissions?, mapM_eq_some_iff, List.ext_getElem_iff]
  simp only [RetransmitRequest.sequences, RetransmitRequest.run, List.length_map, List.length_range,
    List.getElem_map, List.getElem_range, Option.map_eq_some_iff]
  constructor
  · rintro ⟨hlength, hresponse⟩
    refine ⟨hlength.symm, fun i hi => ?_⟩
    obtain ⟨packet, hpacket, heq⟩ := hresponse i (hlength ▸ hi) hi
    exact ⟨packet, hpacket, heq.symm⟩
  · rintro ⟨hlength, hresponse⟩
    refine ⟨hlength.symm, fun i _ hi => ?_⟩
    obtain ⟨packet, hpacket, heq⟩ := hresponse i hi
    exact ⟨packet, hpacket, heq.symm⟩

theorem retransmissions?_eq_none_iff {request : RetransmitRequest} :
    h.retransmissions? request = none ↔
      ∃ i < request.count.toNat, h.get? (request.start + .ofNat i) = none := by
  simp [retransmissions?, mapM_eq_none_iff, RetransmitRequest.sequences, RetransmitRequest.run]

end History

namespace Proxy

variable {ctx : ProxyContext} {now : Moment} {request : Request} {reply : Reply} {p q r : Proxy}
  {datagrams : List Bytes}

/-! ### What an input does to the history -/

/-- The history is the same, or it was emptied. -/
def Forgets (p q : Proxy) : Prop :=
  q.relay.history = p.relay.history ∨ q.relay.history = p.relay.history.clear

theorem Forgets.refl (p : Proxy) : p.Forgets p := Or.inl rfl

theorem Forgets.trans (h : p.Forgets q) (h' : q.Forgets r) : p.Forgets r := by
  rcases h with h | h <;> rcases h' with h' | h' <;> rw [Forgets, h', h]
  · exact Or.inl rfl
  · exact Or.inr rfl
  · exact Or.inr rfl
  · exact Or.inr rfl

theorem forgets_reset (p : Proxy) : p.Forgets p.reset := Or.inr rfl

theorem forgets_complete (request : Request) (reply : Reply) (p : Proxy) :
    p.Forgets (p.complete request reply) := by
  by_cases hm : request.method = .teardown
  · unfold complete
    rw [hm]
    exact forgets_reset p
  · exact Or.inl (congrArg Relay.history (holds_complete hm reply p).1)

theorem forgets_await (ctx : ProxyContext) (now : Moment) (request : Request) (reply : Reply)
    (p : Proxy) : p.Forgets (p.await ctx now request reply) := by
  have hprune : p.Forgets (p.withRelay p.relay.prune) := Or.inl rfl
  unfold await
  split
  · exact forgets_complete request reply p
  · simp only
    split
    · exact hprune.trans (forgets_complete request reply _)
    · exact hprune

theorem forgets_replicate (ctx : ProxyContext) (now : Moment) (request : Request) (p : Proxy) :
    p.Forgets (p.replicate ctx now request) :=
  Forgets.trans (q := p.withRelay (p.relay.forward request)) (Or.inl rfl) (forgets_await ..)

theorem forgets_announceTo (ctx : ProxyContext) (now : Moment) (request : Request) (found : List Peer)
    (p : Proxy) : p.Forgets (p.announceTo ctx now request found) :=
  Forgets.trans (q := { p with wait := none, relay := { p.relay with peers := found } }) (Or.inl rfl)
    (forgets_replicate ..)

theorem forgets_start (ctx : ProxyContext) (now : Moment) (request : Request) (p : Proxy) :
    p.Forgets (p.start ctx now request) := by
  have hbegins := begins_start ctx now request p
  generalize p.start ctx now request = q at hbegins ⊢
  cases hbegins with
  | refused e => exact .refl p
  | undone e channels => exact .refl p
  | told reply => exact .refl p
  | connects deadline => exact forgets_reset p
  | announces => exact (forgets_reset p).trans (forgets_announceTo ..)
  | setsUp value t channels =>
    exact Forgets.trans (q := p.setUpPeers ctx request channels) (Or.inl rfl) (forgets_await ..)
  | passesOn volume => exact Forgets.trans (q := { p with volume }) (Or.inl rfl) (forgets_replicate ..)

theorem forgets_tick (ctx : ProxyContext) (now : Moment) (p : Proxy) : p.Forgets (p.tick ctx now) := by
  unfold tick
  split
  · split
    · exact .refl p
    · exact forgets_announceTo ..
  · split
    · exact .refl p
    · exact forgets_complete ..
  · exact .refl p

theorem forgets_decided (ctx : ProxyContext) (now : Moment) (index : Nat) (ip : Option IpAddress)
    (p : Proxy) : p.Forgets (p.decided ctx now index ip) := by
  unfold decided
  split
  · split
    · simp only
      split
      · exact forgets_announceTo ..
      · exact .refl p
    · exact .refl p
  · exact .refl p

theorem forgets_onPeer (index : Nat) (f : Peer → Peer) (p : Proxy) : p.Forgets (p.onPeer index f) := by
  have hmodify : p.Forgets { p with relay := p.relay.modify index f } := Or.inl rfl
  unfold onPeer
  simp only
  split
  · exact hmodify
  · next request reply _ barrier _ _ =>
    split
    · generalize barrier.note _ _ = noted
      split
      · exact hmodify.trans (forgets_complete request reply _)
      · exact hmodify
    · exact hmodify
  · exact hmodify

/-- The packet that is kept with an input. -/
def kept? (p : Proxy) : Input → Option Bytes
  | .met (.datagram _ role source data) => p.keeping? role source data
  | _ => none

/-- **What an input does to the history.** The packet that is kept with it is recorded; without one, the
history is kept or emptied. -/
theorem history_take (ctx : ProxyContext) (p : Proxy) (i : Input) :
    (p.take ctx i).relay.history = (p.kept? i).toList.foldl History.record p.relay.history ∨
      p.kept? i = none ∧ (p.take ctx i).relay.history = p.relay.history.clear := by
  have hforgets {q : Proxy} (h : p.Forgets q) :
      q.relay.history = [].foldl History.record p.relay.history ∨
        (none : Option Bytes) = none ∧ q.relay.history = p.relay.history.clear :=
    h.imp_right fun hclear => ⟨rfl, hclear⟩
  cases i with
  | request binder peerBinder now request => exact hforgets (forgets_start ..)
  | answerTaken => exact Or.inl rfl
  | shutdown => exact hforgets (forgets_reset p)
  | met o =>
    cases o with
    | tick now => exact hforgets (forgets_tick ctx now p)
    | connected now index ip => exact hforgets (forgets_decided ctx now index (some ip) p)
    | refused now index => exact hforgets (forgets_decided ctx now index none p)
    | peerData peerBinder index data => exact hforgets (forgets_onPeer index _ p)
    | peerLost index => exact hforgets (forgets_onPeer index _ p)
    | peerBroken index => exact hforgets (forgets_onPeer index _ p)
    | datagram now role source data => exact Or.inl (p.remembered_datagram now role source data).1
    | peerDatagram now index role source data =>
      exact Or.inl (p.history_peerDatagram now index role source data)

/-! ### Runs -/

/-- The packets that are kept along a run, in order. -/
def kept (ctx : ProxyContext) : Proxy → List Input → List Bytes
  | _, [] => []
  | p, i :: inputs => (p.kept? i).toList ++ kept ctx (p.take ctx i) inputs

theorem recent_take (h : p.relay.history.Recent datagrams) (ctx : ProxyContext) (i : Input) :
    (p.take ctx i).relay.history.Recent (datagrams ++ (p.kept? i).toList) := by
  rcases history_take ctx p i with hhistory | ⟨hnone, hhistory⟩
  · rw [hhistory]
    exact h.recorded
  · rw [hhistory]
    exact .of_packets_eq_nil rfl

theorem recent_run_of (ctx : ProxyContext) : ∀ (inputs : List Input) {p : Proxy} {datagrams : List Bytes},
    p.relay.history.Recent datagrams →
      (p.run ctx inputs).relay.history.Recent (datagrams ++ p.kept ctx inputs)
  | [], p, datagrams, h => by rwa [kept, List.append_nil]
  | i :: inputs, p, datagrams, h => by
    have hrun := recent_run_of ctx inputs (recent_take h ctx i)
    rwa [List.append_assoc] at hrun

/-- **What is in the history of a run** is what was kept last under its sequence number. -/
theorem recent_run (ctx : ProxyContext) (client localEnd : Endpoint) (inputs : List Input) :
    ((ofClient ctx client localEnd).run ctx inputs).relay.history.Recent
      ((ofClient ctx client localEnd).kept ctx inputs) :=
  recent_run_of ctx inputs (.of_packets_eq_nil rfl : History.Recent [] _)

end Proxy
end Raop
