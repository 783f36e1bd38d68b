/-
# What a peer gets that asks again

A datagram on a peer's control channel is answered from the history or goes to
the sender, one of the two. It is answered if it is a retransmit request and the
history has a packet under every number that it asks for; then the peer gets a
response for each number, in order, around the packet that was kept last under
that number.

A packet is kept by its length and its sequence number alone, without a look at
its payload type. So what a response carries has the number that was asked for,
but it is an audio packet just if the packet that was kept is one
(`Proxy.response_decodes_iff`), and a datagram of another type is served as well
(`Proxy.response_of_another_type`).

Key definitions: `Channel.SendsTo`, `RetransmitResponse.Carries`.
Key theorems: `Proxy.length_le_of_mem_kept`, `Proxy.take_of_served`, `Proxy.carries_of_served`,
`Proxy.peerControl_answered_or_relayed`, `Proxy.response_decodes_iff`.
-/
import Raop.Proofs.Proxy.History

namespace Raop

/-! ### Sending -/

/-- What is sent on the channel goes to this endpoint. -/
structure Channel.SendsTo (c : Channel) (target : Endpoint) : Prop where
  isOpen : c.isOpen = true
  remote : c.remote = some target

theorem Channel.SendsTo.send {c : Channel} {target : Endpoint} (h : c.SendsTo target) {data : Bytes}
    (hlength : data.length ≤ sendLimit) : c.send data = .ok target := by
  unfold Channel.send
  rw [h.isOpen, h.remote]
  exact if_neg hlength.not_gt

namespace Relay

theorem toPeer_of_sendsTo {c : Channel} {target : Endpoint} (h : c.SendsTo target) (p : Peer)
    {data : Bytes} (hlength : data.length ≤ Channel.sendLimit) :
    toPeer p c data = [.peerDatagram p.index c.role target data] := by
  rw [toPeer, h.send hlength]

theorem toSender_of_sendsTo {channels : ChannelSet} {id : Option Nat} {u : Channel} {sender : Endpoint}
    (hfound : id.bind channels.find? = some u) (h : u.SendsTo sender) {data : Bytes}
    (hlength : data.length ≤ Channel.sendLimit) :
    toSender channels id data = [.datagram u.role sender data] := by
  rw [toSender, hfound]
  simp only [h.send hlength]

end Relay

/-! ### Responses -/

/-- A response carries a packet under a sequence number. -/
structure RetransmitResponse.Carries (response : Bytes) (sequence : UInt16) (packet : Bytes) : Prop where
  type : PayloadType.of response = .ok .retransmitResponse
  sequence : response.field 2 2 = sequence.toNat
  packet : response.drop 4 = packet

theorem RetransmitResponse.carries_encode (sequence : UInt16) (packet : Bytes) :
    Carries (encode sequence packet) sequence packet where
  type := rfl
  sequence := by
    have hlt := sequence.toNat_lt
    simp only [encode, Bytes.be16, Bytes.field, Bytes.toNatBE, List.cons_append, List.nil_append,
      List.drop_succ_cons, List.drop_zero, List.take_succ_cons, List.take_zero, List.foldl_cons,
      List.foldl_nil, UInt8.toNat_ofNat']
    omega
  packet := rfl

namespace Proxy

/-! ### The length of what is kept -/

theorem length_taken_le (data : Bytes) : (Channel.taken data).length ≤ Channel.receiveLimit := by
  rw [Channel.taken, List.length_take]
  exact Nat.min_le_left _ _

theorem length_le_of_kept? {role : Role} {data packet : Bytes} (h : Relay.kept? role data = some packet) :
    packet.length ≤ data.length := by
  unfold Relay.kept? at h
  split at h
  · rw [Option.some.inj h]
  · split at h
    · next inner _ hinner =>
      obtain rfl := Option.some.inj h
      rw [(RetransmitResponse.audioPacket_eq_ok_iff.1 hinner).2, List.length_drop]
      exact Nat.sub_le _ _
    · cases h
  · cases h

theorem length_le_of_mem_kept (ctx : ProxyContext) {packet : Bytes} :
    ∀ (inputs : List Input) {p : Proxy}, packet ∈ p.kept ctx inputs →
      packet.length ≤ Channel.receiveLimit
  | [], _, h => by cases h
  | i :: inputs, p, h => by
    rcases List.mem_append.1 h with h | h
    · unfold kept? at h
      split at h
      · obtain ⟨c, -, hkept⟩ := Option.bind_eq_some_iff.1 (Option.mem_toList.1 h)
        exact (length_le_of_kept? hkept).trans (length_taken_le _)
      · cases h
    · exact length_le_of_mem_kept ctx inputs h

/-! ### Control datagrams of a peer -/

variable {ctx : ProxyContext} {client localEnd : Endpoint} {inputs : List Input} {p : Proxy}
  {index : Nat} {source target sender : Endpoint} {peer : Peer} {c u : Channel} {now : Moment}
  {data : Bytes} {request : RetransmitRequest} {responses : List Bytes}

/-- A control datagram of a peer changes nothing, and what is put out goes to that peer or to the sender. -/
theorem take_peerControl (ctx : ProxyContext) (now : Moment) (data : Bytes)
    (htaking : p.peerTaking? index .control source = some (peer, c)) :
    p.take ctx (.met (.peerDatagram now index .control source data)) =
      p.put (p.relay.fromPeerControl p.channels peer c (Channel.taken data)).2 := by
  have hrole := (role_of_peerTaking? htaking).2
  have hrelay : (p.relay.fromPeerControl p.channels peer c (Channel.taken data)).1 = p.relay := by
    unfold Relay.fromPeerControl
    simp only
    split <;> rfl
  simp only [take, meet, peerDatagram_eq, htaking, Relay.fromPeer, hrole, withRelay, hrelay]

theorem fromPeerControl_of_served (r : Relay) (channels : ChannelSet) (peer : Peer) (c : Channel)
    (hdecode : RetransmitRequest.decode data = .ok request)
    (hserved : r.history.retransmissions? request = some responses) :
    (r.fromPeerControl channels peer c data).2 = responses.flatMap (Relay.toPeer peer c) := by
  simp only [Relay.fromPeerControl, hdecode, hserved]

theorem fromPeerControl_of_unserved (r : Relay) (channels : ChannelSet) (peer : Peer) (c : Channel)
    (h : ∀ request, RetransmitRequest.decode data = .ok request →
      r.history.retransmissions? request = none) :
    (r.fromPeerControl channels peer c data).2 = Relay.toSender channels r.control data := by
  unfold Relay.fromPeerControl
  cases hdecode : RetransmitRequest.decode data with
  | error e => rfl
  | ok request => simp only [h request hdecode]

/-- Responses that are short enough to be sent go to the peer. -/
theorem take_of_served (htaking : p.peerTaking? index .control source = some (peer, c))
    (htarget : c.SendsTo target) (hdecode : RetransmitRequest.decode (Channel.taken data) = .ok request)
    (hserved : p.relay.history.retransmissions? request = some responses)
    (hshort : ∀ response ∈ responses, response.length ≤ Channel.sendLimit) :
    p.take ctx (.met (.peerDatagram now index .control source data)) =
      p.put (responses.map (.peerDatagram index .control target)) := by
  obtain ⟨hindex, hrole⟩ := role_of_peerTaking? htaking
  have hsent : ∀ response ∈ responses, Relay.toPeer peer c response =
      [.peerDatagram index .control target response] := by
    intro response hmem
    rw [Relay.toPeer_of_sendsTo htarget peer (hshort response hmem), hindex, hrole]
  rw [take_peerControl ctx now data htaking, fromPeerControl_of_served _ _ _ _ hdecode hserved,
    List.flatMap_congr hsent, List.map_eq_flatMap]

/-- The responses of a run carry what was kept last, and are short enough to be sent. -/
theorem carries_of_served (hrun : (ofClient ctx client localEnd).run ctx inputs = p)
    (hserved : p.relay.history.retransmissions? request = some responses) (i : Nat)
    (hi : i < responses.length) : ∃ packet,
      History.lastRecorded ((ofClient ctx client localEnd).kept ctx inputs) (request.start + .ofNat i) =
        some packet ∧
      RetransmitResponse.Carries responses[i] (request.start + .ofNat i) packet ∧
      responses[i].length ≤ Channel.sendLimit := by
  have hrecent := recent_run ctx client localEnd inputs
  rw [hrun] at hrecent
  obtain ⟨packet, hget, hresponse⟩ := (History.retransmissions?_eq_some_iff.1 hserved).2 i hi
  have hlast := hrecent.get? hget
  have hlength := length_le_of_mem_kept ctx inputs (History.mem_of_lastRecorded hlast).1
  rw [hresponse]
  refine ⟨packet, hlast, RetransmitResponse.carries_encode _ packet, ?_⟩
  simp only [RetransmitResponse.encode, List.length_append, List.length_cons, List.length_nil,
    Bytes.length_be16, Channel.sendLimit, Channel.receiveLimit] at hlength ⊢
  omega

/-- **A control datagram of a peer is answered or relayed.** If it is a retransmit request and the history
has a packet under each number that is asked for, the peer gets a response for each of them around the packet
that was kept last, and nothing else is put out; otherwise the sender gets the datagram, and the peer
nothing. -/
theorem peerControl_answered_or_relayed (hrun : (ofClient ctx client localEnd).run ctx inputs = p)
    (htaking : p.peerTaking? index .control source = some (peer, c)) (htarget : c.SendsTo target)
    (hcontrol : p.relay.control.bind p.channels.find? = some u) (hsender : u.SendsTo sender)
    (now : Moment) (data : Bytes) :
    (∀ request, RetransmitRequest.decode (Channel.taken data) = .ok request →
      (∀ i < request.count.toNat, (p.relay.history.get? (request.start + .ofNat i)).isSome = true) →
      ∃ responses : List Bytes, responses.length = request.count.toNat ∧
        (∀ i (hi : i < responses.length), ∃ packet,
          History.lastRecorded ((ofClient ctx client localEnd).kept ctx inputs)
            (request.start + .ofNat i) = some packet ∧
          RetransmitResponse.Carries responses[i] (request.start + .ofNat i) packet) ∧
        p.take ctx (.met (.peerDatagram now index .control source data)) =
          p.put (responses.map (.peerDatagram index .control target))) ∧
    ((∀ request, RetransmitRequest.decode (Channel.taken data) = .ok request →
      ∃ i < request.count.toNat, p.relay.history.get? (request.start + .ofNat i) = none) →
      p.take ctx (.met (.peerDatagram now index .control source data)) =
        p.put [.datagram u.role sender (Channel.taken data)]) := by
  refine ⟨fun request hdecode hheld => ?_, fun hmissing => ?_⟩
  · obtain ⟨responses, hserved⟩ : ∃ responses,
        p.relay.history.retransmissions? request = some responses := by
      refine Option.ne_none_iff_exists'.1 fun hnone => ?_
      obtain ⟨i, hi, hget⟩ := History.retransmissions?_eq_none_iff.1 hnone
      simpa [hget] using hheld i hi
    have hcarries := carries_of_served hrun hserved
    refine ⟨responses, (History.retransmissions?_eq_some_iff.1 hserved).1, fun i hi => ?_, ?_⟩
    · obtain ⟨packet, hlast, hpacket, -⟩ := hcarries i hi
      exact ⟨packet, hlast, hpacket⟩
    · refine take_of_served htaking htarget hdecode hserved fun response hmem => ?_
      obtain ⟨i, hi, rfl⟩ := List.mem_iff_getElem.1 hmem
      obtain ⟨-, -, -, hlength⟩ := hcarries i hi
      exact hlength
  · have hunserved : ∀ request, RetransmitRequest.decode (Channel.taken data) = .ok request →
        p.relay.history.retransmissions? request = none :=
      fun request hdecode => History.retransmissions?_eq_none_iff.2 (hmissing request hdecode)
    have hlength : (Channel.taken data).length ≤ Channel.sendLimit :=
      (length_taken_le data).trans (by decide)
    rw [take_peerControl ctx now data htaking, fromPeerControl_of_unserved _ _ _ _ hunserved,
      Relay.toSender_of_sendsTo hcontrol hsender hlength]

/-- The channel of a peer on which a datagram is taken, read off a run. -/
theorem exists_peerTaking (h : (p.peerTaking? index .control source).any
    (fun found => found.2.isOpen && found.2.remote == some target) = true) :
    ∃ peer c, p.peerTaking? index .control source = some (peer, c) ∧ c.SendsTo target := by
  obtain ⟨⟨peer, c⟩, htaking, hc⟩ := (Option.any_eq_true _ _).1 h
  simp only [Bool.and_eq_true, beq_iff_eq] at hc
  exact ⟨peer, c, htaking, hc.1, hc.2⟩

/-- A packet of the sender arrives with the last sequence number, and two with the number after that. -/
def pairPackets : List Input :=
  pairJoin ++ [
    .met (.datagram default .audio default [0x80, 0x60, 0xFF, 0xFF, 0, 0, 0, 0, 0, 0, 0, 0, 1]),
    .met (.datagram default .audio default [0x80, 0x60, 0, 0, 0, 0, 0, 0, 0, 0, 0, 0, 2]),
    .met (.datagram default .audio default [0x80, 0x60, 0, 0, 0, 0, 0, 0, 0, 0, 0, 0, 3])]

/-- A peer asks for packets from a sequence number on. -/
def pairAsks (start count : UInt16) : Input :=
  .met (.peerDatagram default 0 .control ⟨default, 9001⟩ (RetransmitRequest.encode ⟨1, start, count⟩))

/-- Two packets are there, and the third is not. -/
theorem answered_or_relayed_pairPackets :
    (∃ first second,
      RetransmitResponse.Carries first 0xFFFF [0x80, 0x60, 0xFF, 0xFF, 0, 0, 0, 0, 0, 0, 0, 0, 1] ∧
      RetransmitResponse.Carries second 0 [0x80, 0x60, 0, 0, 0, 0, 0, 0, 0, 0, 0, 0, 3] ∧
      (pairStart.run pairContext pairPackets).take pairContext (pairAsks 0xFFFF 2) =
        (pairStart.run pairContext pairPackets).put [.peerDatagram 0 .control ⟨default, 9001⟩ first,
          .peerDatagram 0 .control ⟨default, 9001⟩ second]) ∧
      (pairStart.run pairContext pairPackets).take pairContext (pairAsks 0xFFFF 3) =
        (pairStart.run pairContext pairPackets).put
          [.datagram .control ⟨default, 6001⟩ (RetransmitRequest.encode ⟨1, 0xFFFF, 3⟩)] := by
  obtain ⟨hpeer, hsender, hheld, hmissing, hkept⟩ :
      ((pairStart.run pairContext pairPackets).peerTaking? 0 .control ⟨default, 9001⟩).any
          (fun found => found.2.isOpen && found.2.remote == some ⟨default, 9001⟩) = true ∧
        ((pairStart.run pairContext pairPackets).relay.control.bind
          (pairStart.run pairContext pairPackets).channels.find?).any
            (fun u => u.isOpen && u.remote == some ⟨default, 6001⟩ && u.role == .control) = true ∧
        (∀ i < 2, ((pairStart.run pairContext pairPackets).relay.history.get?
          (0xFFFF + .ofNat i)).isSome = true) ∧
        (pairStart.run pairContext pairPackets).relay.history.get? 1 = none ∧
        pairStart.kept pairContext pairPackets =
          [[0x80, 0x60, 0xFF, 0xFF, 0, 0, 0, 0, 0, 0, 0, 0, 1],
            [0x80, 0x60, 0, 0, 0, 0, 0, 0, 0, 0, 0, 0, 2],
            [0x80, 0x60, 0, 0, 0, 0, 0, 0, 0, 0, 0, 0, 3]] := by
    decide +kernel
  obtain ⟨peer, c, htaking, htarget⟩ := exists_peerTaking hpeer
  obtain ⟨u, hcontrol, hu⟩ := (Option.any_eq_true _ _).1 hsender
  simp only [Bool.and_eq_true, beq_iff_eq] at hu
  have hrun : (ofClient pairContext default default).run pairContext pairPackets =
      pairStart.run pairContext pairPackets := rfl
  have hcases (count : UInt16) := peerControl_answered_or_relayed hrun htaking htarget hcontrol
    ⟨hu.1.1, hu.1.2⟩ default (RetransmitRequest.encode ⟨1, 0xFFFF, count⟩)
  refine ⟨?_, ?_⟩
  · obtain ⟨responses, hlength, hcarries, hput⟩ := (hcases 2).1 ⟨1, 0xFFFF, 2⟩ rfl hheld
    obtain ⟨first, second, rfl⟩ := List.length_eq_two.1 hlength
    obtain ⟨packet, hlast, hfirst⟩ := hcarries 0 Nat.zero_lt_two
    obtain ⟨packet', hlast', hsecond⟩ := hcarries 1 Nat.one_lt_two
    change History.lastRecorded (pairStart.kept pairContext pairPackets) _ = _ at hlast hlast'
    rw [hkept] at hlast hlast'
    obtain rfl := Option.some.inj hlast
    obtain rfl := Option.some.inj hlast'
    exact ⟨first, second, hfirst, hsecond, hput⟩
  · rw [← hu.2]
    refine (hcases 3).2 fun request hdecode => ?_
    obtain rfl := Except.ok.inj hdecode
    exact ⟨2, by decide, hmissing⟩

/-! ### What responses carry -/

theorem put_inj {out out' : List Output} (h : p.put out = p.put out') : out = out' :=
  List.append_cancel_left (congrArg Proxy.output h)

/-- A packet that was kept under a sequence number has a whole header with that number; it is an audio
packet just if it has a payload type of sound. -/
theorem decodes_iff_of_lastRecorded {datagrams : List Bytes} {sequence : UInt16} {packet : Bytes}
    (h : History.lastRecorded datagrams sequence = some packet) :
    (∃ audio, AudioPacket.decode packet = .ok audio ∧ audio.sequence = sequence) ↔
      packet.field 1 1 % 128 = 0x60 ∨ packet.field 1 1 % 128 = 0x61 := by
  have hpeek := (History.mem_of_lastRecorded h).2
  rw [AudioPacket.peekSequence?_eq] at hpeek
  split at hpeek
  · next hlength =>
    constructor
    · rintro ⟨audio, hdecode, -⟩
      exact (AudioPacket.decode_eq_ok_iff.1 hdecode).2.1
    · intro htype
      exact ⟨_, AudioPacket.decode_eq_ok_iff.2 ⟨hlength, htype, rfl⟩, Option.some.inj hpeek⟩
  · cases hpeek

/-- **What is sent to a peer that asks again.** Each response has a sequence number that was asked for and
carries the packet that was kept last under it; this is an audio packet with that number just if it has a
payload type of sound. -/
theorem response_decodes_iff (hrun : (ofClient ctx client localEnd).run ctx inputs = p)
    {out : List Output}
    (hput : p.take ctx (.met (.peerDatagram now index .control source data)) = p.put out)
    {other : Nat} {role : Role} {response : Bytes}
    (hsent : Output.peerDatagram other role target response ∈ out) :
    ∃ request i packet, RetransmitRequest.decode (Channel.taken data) = .ok request ∧
      i < request.count.toNat ∧
      History.lastRecorded ((ofClient ctx client localEnd).kept ctx inputs)
        (request.start + .ofNat i) = some packet ∧
      RetransmitResponse.Carries response (request.start + .ofNat i) packet ∧
      ((∃ audio, AudioPacket.decode packet = .ok audio ∧ audio.sequence = request.start + .ofNat i) ↔
        packet.field 1 1 % 128 = 0x60 ∨ packet.field 1 1 % 128 = 0x61) := by
  cases htaking : p.peerTaking? index .control source with
  | none =>
    have hsame : p.put out = p.put [] := by
      rw [← hput]
      simp [take, meet, peerDatagram_eq, htaking, put]
    rw [put_inj hsame] at hsent
    cases hsent
  | some found =>
    obtain ⟨peer, c⟩ := found
    rw [take_peerControl ctx now data htaking] at hput
    rw [← put_inj hput] at hsent
    by_cases hserved : ∃ request responses,
        RetransmitRequest.decode (Channel.taken data) = .ok request ∧
          p.relay.history.retransmissions? request = some responses
    · obtain ⟨request, responses, hdecode, hserved⟩ := hserved
      rw [fromPeerControl_of_served _ _ _ _ hdecode hserved, List.mem_flatMap] at hsent
      obtain ⟨response', hmem, hsent⟩ := hsent
      obtain ⟨i, hi, rfl⟩ := List.mem_iff_getElem.1 hmem
      obtain ⟨packet, hlast, hcarries, -⟩ := carries_of_served hrun hserved i hi
      have hresponse : response = responses[i] := by
        unfold Relay.toPeer at hsent
        split at hsent
        · simp only [List.mem_singleton, Output.peerDatagram.injEq] at hsent
          exact hsent.2.2.2
        · cases hsent
      rw [(History.retransmissions?_eq_some_iff.1 hserved).1] at hi
      exact ⟨request, i, packet, hdecode, hi, hlast, hresponse ▸ hcarries,
        decodes_iff_of_lastRecorded hlast⟩
    · have hunserved : ∀ request, RetransmitRequest.decode (Channel.taken data) = .ok request →
          p.relay.history.retransmissions? request = none := by
        intro request hdecode
        refine Option.eq_none_iff_forall_ne_some.2 fun responses hsome => hserved ?_
        exact ⟨request, responses, hdecode, hsome⟩
      rw [fromPeerControl_of_unserved _ _ _ _ hunserved] at hsent
      exact absurd hsent (Relay.peerDatagram_not_mem_toSender _ _ _)

/-- What is sent to a peer that asks for the packet with the last sequence number. -/
theorem response_decodes_pairPackets :
    ∃ out response audio, (pairStart.run pairContext pairPackets).take pairContext (pairAsks 0xFFFF 1) =
        (pairStart.run pairContext pairPackets).put out ∧
      .peerDatagram 0 .control ⟨default, 9001⟩ response ∈ out ∧
      AudioPacket.decode (response.drop 4) = .ok audio ∧ audio.sequence = 0xFFFF := by
  obtain ⟨hpeer, hserved⟩ :
      ((pairStart.run pairContext pairPackets).peerTaking? 0 .control ⟨default, 9001⟩).any
          (fun found => found.2.isOpen && found.2.remote == some ⟨default, 9001⟩) = true ∧
        (pairStart.run pairContext pairPackets).relay.history.retransmissions? ⟨1, 0xFFFF, 1⟩ =
          some [RetransmitResponse.encode 0xFFFF
            [0x80, 0x60, 0xFF, 0xFF, 0, 0, 0, 0, 0, 0, 0, 0, 1]] := by
    decide +kernel
  obtain ⟨peer, c, htaking, htarget⟩ := exists_peerTaking hpeer
  have hrun : (ofClient pairContext default default).run pairContext pairPackets =
      pairStart.run pairContext pairPackets := rfl
  have hput : (pairStart.run pairContext pairPackets).take pairContext (pairAsks 0xFFFF 1) = _ :=
    take_of_served htaking htarget rfl hserved (by decide)
  obtain ⟨request, i, packet, hdecode, hi, -, hcarries, hiff⟩ :=
    response_decodes_iff hrun hput (List.mem_singleton_self _)
  obtain rfl := Except.ok.inj hdecode
  obtain rfl : i = 0 := Nat.lt_one_iff.1 hi
  obtain rfl := hcarries.packet
  obtain ⟨audio, haudio, hsequence⟩ := hiff.2 (by decide)
  exact ⟨_, _, audio, hput, List.mem_singleton_self _, haudio, hsequence⟩

/-- A datagram arrives on the sender's audio channel that is long enough for an audio packet but has the
payload type of a sync packet. -/
def strayPackets : List Input :=
  pairJoin ++ [.met (.datagram default .audio default [0x80, 0x54, 0, 7, 0, 0, 0, 0, 0, 0, 0, 0])]

/-- A peer that asks for its sequence number is sent a response around it, which is no audio packet. -/
theorem response_of_another_type :
    ∃ out response, (pairStart.run pairContext strayPackets).take pairContext (pairAsks 7 1) =
        (pairStart.run pairContext strayPackets).put out ∧
      .peerDatagram 0 .control ⟨default, 9001⟩ response ∈ out ∧
      ∀ audio, AudioPacket.decode (response.drop 4) ≠ .ok audio := by
  obtain ⟨hpeer, hserved⟩ :
      ((pairStart.run pairContext strayPackets).peerTaking? 0 .control ⟨default, 9001⟩).any
          (fun found => found.2.isOpen && found.2.remote == some ⟨default, 9001⟩) = true ∧
        (pairStart.run pairContext strayPackets).relay.history.retransmissions? ⟨1, 7, 1⟩ =
          some [RetransmitResponse.encode 7 [0x80, 0x54, 0, 7, 0, 0, 0, 0, 0, 0, 0, 0]] := by
    decide +kernel
  obtain ⟨peer, c, htaking, htarget⟩ := exists_peerTaking hpeer
  have hput : (pairStart.run pairContext strayPackets).take pairContext (pairAsks 7 1) = _ :=
    take_of_served htaking htarget rfl hserved (by decide)
  refine ⟨_, _, hput, List.mem_singleton_self _, fun audio hdecode => ?_⟩
  cases hdecode

end Proxy
end Raop
