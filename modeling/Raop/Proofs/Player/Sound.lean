/-
# The sound of a run of datagrams

What a pipeline gives to a sink is told datagram by datagram. An audio packet
has a whole header and one of the payload types of sound; its sound is its
timestamp and the samples of its payload, decrypted from the initial vector,
if these are whole samples (`Playback.packetSound?`). A retransmitted packet has
the sound of the packet that it carries, and no other datagram has any
(`Playback.sound?`). So nothing that a pipeline remembers from one datagram to
the next, such as the numbers it has seen or what it asked for, has a part in
the sound.

Key definitions: `Playback.samples?`, `Playback.packetSound?`, `Playback.Arrival`,
`Playback.sound?`, `Playback.takeAll`, `Playback.Plays`.
Key theorems: `Playback.Plays.take`, `Playback.Plays.takeAll`, `Playback.packets_of_started`.
-/
import Raop.Proofs.Datagram.Audio
import Raop.Proofs.Player.SinkSteps

namespace Raop

namespace Playback

/-- The samples of a payload: each two octets write a signed number of sixteen bits, and none is left
over. -/
def samples? (payload : Bytes) : Option (List Int16) :=
  if payload.length % 2 = 0 then
    some ((List.range (payload.length / 2)).map fun i => Int16.ofNat (payload.field (2 * i) 2))
  else none

/-- The sound of an audio packet, encrypted or not. -/
def packetSound? (keys : Option Decryptor) (packet : Bytes) : Option (UInt32 × List Int16) :=
  if 12 ≤ packet.length ∧ (packet.field 1 1 % 128 = 0x60 ∨ packet.field 1 1 % 128 = 0x61) then
    let payload := packet.drop 12
    (samples? (keys.elim payload (·.decrypt payload))).map fun samples =>
      (UInt32.ofNat (packet.field 4 4), samples)
  else none

/-- A datagram that is handed to a pipeline, on one of its channels. -/
inductive Arrival where
  | audio (datagram : Bytes)
  | control (datagram : Bytes)

/-- The sound of a datagram. -/
def sound? (keys : Option Decryptor) : Arrival → Option (UInt32 × List Int16)
  | .audio datagram => packetSound? keys datagram
  | .control datagram =>
    if datagram.field 1 1 % 128 = 0x56 then packetSound? keys (datagram.drop 4) else none

/-- A datagram is taken. -/
def take (b : Playback) : Arrival → Playback
  | .audio datagram => b.onAudio datagram
  | .control datagram => b.onControl datagram

/-- Datagrams are taken, one after the other. -/
def takeAll (b : Playback) (arrivals : List Arrival) : Playback := arrivals.foldl take b

variable {b started : Playback} {keys : Option Decryptor}

/-! ### Samples -/

theorem samples_eq : ∀ payload : Bytes,
    Decoder.samples payload =
      (List.range (payload.length / 2)).map fun i => Int16.ofNat (payload.field (2 * i) 2)
  | [] | [_] => by simp [Decoder.samples]
  | hi :: lo :: rest => by
    have hlength : (hi :: lo :: rest).length / 2 = rest.length / 2 + 1 := by
      simp only [List.length_cons]
      omega
    have hfirst : Decoder.sample hi lo = Int16.ofNat (Bytes.field 0 2 (hi :: lo :: rest)) := by
      simp only [Decoder.sample, Bytes.field, Bytes.toNatBE, List.drop_zero, List.take_succ_cons,
        List.take_zero, List.foldl_cons, List.foldl_nil, Nat.zero_mul, Nat.zero_add]
      rfl
    rw [Decoder.samples, samples_eq rest, hlength, List.range_succ_eq_map, List.map_cons, List.map_map, hfirst]
    rfl

theorem toOption_decode (decoder : Decoder) (payload : Bytes) :
    (decoder.decode payload).toOption = samples? payload := by
  unfold Decoder.decode samples?
  rw [← samples_eq, ite_not]
  split <;> rfl

/-! ### The sound of a packet -/

/-- The sound of a packet that was read. -/
def soundOf (keys : Option Decryptor) (packet : AudioPacket) : Option (UInt32 × List Int16) :=
  (samples? (keys.elim packet.payload (·.decrypt packet.payload))).map fun samples =>
    (packet.timestamp, samples)

theorem packetSound?_eq (keys : Option Decryptor) (datagram : Bytes) :
    packetSound? keys datagram = (AudioPacket.decode datagram).toOption.bind (soundOf keys) := by
  unfold packetSound?
  split
  · next h =>
    rw [AudioPacket.decode_eq_ok_iff.2 ⟨h.1, h.2, rfl⟩]
    rfl
  · next h =>
    cases hdecode : AudioPacket.decode datagram with
    | error e => rfl
    | ok packet =>
      obtain ⟨hlength, htype, -⟩ := AudioPacket.decode_eq_ok_iff.1 hdecode
      exact absurd ⟨hlength, htype⟩ h

theorem toOption_samples (p : Pipeline) (packet : AudioPacket) :
    (p.samples packet).toOption =
      samples? (p.decryptor.elim packet.payload (·.decrypt packet.payload)) := by
  rw [← toOption_decode p.decoder]
  unfold Pipeline.samples
  cases p.decryptor with
  | none =>
    simp only [Option.elim]
    cases p.decoder.decode packet.payload <;> rfl
  | some d =>
    simp only [Option.elim]
    cases p.decoder.decode (d.decrypt packet.payload) <;> rfl

/-! ### A pipeline that plays -/

/-- A pipeline with its keys plays to a sink that is started and keeps what it is given. -/
structure Plays (keys : Option Decryptor) (b : Playback) : Prop where
  decryptor : b.pipeline.decryptor = keys
  keeps : b.sink.keeps = true
  started : b.sink.format.isSome = true
  takes : b.sink.enqueueFault = none

theorem decryptor_request (b : Playback) (gap : Gap) :
    (b.request gap).pipeline.decryptor = b.pipeline.decryptor := by
  unfold request
  split <;> rfl

/-- A packet of the audio channel is given to the same sink, by a pipeline with the same keys. -/
theorem audio_of_decode {datagram : Bytes} {packet : AudioPacket}
    (h : AudioPacket.decode datagram = .ok packet) (b : Playback) :
    ∃ b' : Playback, b'.sink = b.sink ∧ b'.pipeline.decryptor = b.pipeline.decryptor ∧
      b.audio datagram = b'.deliver packet := by
  unfold audio
  rw [h]
  simp only
  split
  · refine ⟨_, ?_, ?_, rfl⟩
    · rw [sink_request]
    · rw [decryptor_request]
  · refine ⟨_, ?_, ?_, rfl⟩ <;> rfl

namespace Plays

theorem of_sink (h : b.Plays keys) {b' : Playback} (hsink : b'.sink = b.sink)
    (hkeys : b'.pipeline.decryptor = b.pipeline.decryptor) : b'.Plays keys where
  decryptor := hkeys.trans h.decryptor
  keeps := hsink ▸ h.keeps
  started := hsink ▸ h.started
  takes := hsink ▸ h.takes

theorem enqueue (h : b.Plays keys) (timestamp : UInt32) (samples : List Int16) :
    b.sink.enqueue timestamp samples =
      .ok { b.sink with packets := b.sink.packets ++ [(timestamp, samples)] } := by
  have hformat : b.sink.format.isNone = false := by
    rw [← Option.not_isSome, h.started]
    rfl
  simp [Sink.enqueue, h.takes, h.keeps, hformat]

/-- A pipeline that plays goes on playing, and its sink has the sound in addition. -/
structure Adds (keys : Option Decryptor) (b : Playback) (sound : Option (UInt32 × List Int16))
    (b' : Playback) : Prop where
  plays : b'.Plays keys
  packets : b'.sink.packets = b.sink.packets ++ sound.toList

theorem deliver (h : b.Plays keys) (packet : AudioPacket) :
    Adds keys b (soundOf keys packet) (b.deliver packet).2 := by
  have hsamples := toOption_samples b.pipeline packet
  rw [h.decryptor] at hsamples
  unfold Playback.deliver Pipeline.deliver soundOf
  rw [← hsamples]
  cases b.pipeline.samples packet with
  | error e => exact ⟨h, (List.append_nil _).symm⟩
  | ok samples =>
    simp only [h.enqueue]
    exact ⟨⟨h.decryptor, h.keeps, h.started, h.takes⟩, rfl⟩

theorem adds_none (h : b.Plays keys) : Adds keys b none b := ⟨h, (List.append_nil _).symm⟩

/-- What is sent on the audio channel adds the sound of the audio packet that it is. -/
theorem onAudio (h : b.Plays keys) (datagram : Bytes) :
    Adds keys b (packetSound? keys datagram) (b.onAudio datagram) := by
  rw [packetSound?_eq]
  cases hdecode : AudioPacket.decode datagram with
  | error e =>
    -- what is dropped for its payload type is no audio packet, and what is no audio packet changes nothing
    have hsame : b.onAudio datagram = b := by
      unfold Playback.onAudio Playback.audio
      rw [hdecode]
      split
      · exact ite_self b
      · rfl
    rw [hsame]
    exact h.adds_none
  | ok packet =>
    obtain ⟨t, hof, haudio⟩ := AudioPacket.type_of_decode hdecode
    obtain ⟨b', hsink, hkeys, hdeliver⟩ := audio_of_decode hdecode b
    have hadds := (h.of_sink hsink hkeys).deliver packet
    unfold Playback.onAudio
    simp only [hof, haudio, if_true, hdeliver]
    exact ⟨hadds.plays, hadds.packets.trans (by rw [hsink]; rfl)⟩

/-- A response adds the sound of the packet that it carries. -/
theorem retransmitted (h : b.Plays keys) (datagram : Bytes) :
    Adds keys b (packetSound? keys (datagram.drop 4)) (b.retransmitted datagram).2 := by
  unfold Playback.retransmitted
  cases hinner : RetransmitResponse.audioPacket datagram with
  | error e =>
    have hnone : packetSound? keys (datagram.drop 4) = none := by
      refine if_neg fun hpacket => ?_
      rw [RetransmitResponse.audioPacket_eq_ok_iff.2 ⟨hpacket.1, rfl⟩] at hinner
      cases hinner
    rw [hnone]
    exact h.adds_none
  | ok inner =>
    obtain ⟨-, rfl⟩ := RetransmitResponse.audioPacket_eq_ok_iff.1 hinner
    change Adds keys b (packetSound? keys (datagram.drop RetransmitResponse.headerSize)) _
    rw [packetSound?_eq]
    simp only
    cases AudioPacket.decode (datagram.drop RetransmitResponse.headerSize) with
    | error e => exact h.adds_none
    | ok packet => exact h.deliver packet

theorem sync (h : b.Plays keys) (timestamp : UInt32) (time : NtpTime) :
    Adds keys b none { b with sink := b.sink.sync timestamp time } := by
  rw [Sink.sync, if_pos h.keeps]
  exact ⟨⟨h.decryptor, h.keeps, h.started, h.takes⟩, (List.append_nil _).symm⟩

/-- What is sent on the control channel adds the sound of the packet that a response carries, if it is
one. -/
theorem onControl (h : b.Plays keys) (datagram : Bytes) :
    Adds keys b (sound? keys (.control datagram)) (b.onControl datagram) := by
  have hsound : sound? keys (.control datagram) =
      if datagram.field 1 1 % 128 = 0x56 then packetSound? keys (datagram.drop 4) else none := rfl
  have hresponse : PayloadType.of datagram = .ok .retransmitResponse ↔
      datagram.field 1 1 % 128 = 0x56 := PayloadType.of_eq_ok_iff
  unfold Playback.onControl
  split
  · next hof =>
    rw [hsound, if_neg (by rw [← hresponse, hof]; nofun)]
    split
    · exact h.sync ..
    · exact h.adds_none
  · next hof =>
    rw [hsound, if_pos (hresponse.1 hof)]
    exact h.retransmitted datagram
  · next hother =>
    rw [hsound, if_neg fun htype => hother (hresponse.2 htype)]
    exact h.adds_none

/-- **A datagram adds its own sound.** -/
theorem take (h : b.Plays keys) (arrival : Arrival) :
    Adds keys b (sound? keys arrival) (b.take arrival) := by
  cases arrival with
  | audio datagram => exact h.onAudio datagram
  | control datagram => exact h.onControl datagram

/-- **A run of datagrams.** -/
theorem takeAll (h : b.Plays keys) (arrivals : List Arrival) :
    (b.takeAll arrivals).sink.packets = b.sink.packets ++ arrivals.filterMap (sound? keys) := by
  induction arrivals generalizing b with
  | nil => exact (List.append_nil _).symm
  | cons arrival arrivals ih =>
    have hadds := h.take arrival
    have hcons : (arrival :: arrivals).filterMap (sound? keys) =
        (sound? keys arrival).toList ++ arrivals.filterMap (sound? keys) := by
      rw [List.filterMap_cons]
      cases sound? keys arrival <;> rfl
    calc ((b.take arrival).takeAll arrivals).sink.packets
        = (b.take arrival).sink.packets ++ arrivals.filterMap (sound? keys) := ih hadds.plays
      _ = b.sink.packets ++ (arrival :: arrivals).filterMap (sound? keys) := by
        rw [hadds.packets, hcons, List.append_assoc]

end Plays

/-- A started pipeline plays. -/
theorem plays_of_start (hkeeps : b.sink.keeps = true) (htakes : b.sink.enqueueFault = none)
    (hstart : b.start = (.ok (), started)) :
    started.Plays b.pipeline.decryptor ∧ started.sink.packets = b.sink.packets := by
  unfold start Sink.start at hstart
  rw [if_pos hkeeps] at hstart
  cases hfault : b.sink.startFault with
  | some detail =>
    rw [hfault] at hstart
    cases hstart
  | none =>
    rw [hfault] at hstart
    obtain ⟨-, rfl⟩ := Prod.mk.inj hstart
    exact ⟨⟨rfl, hkeeps, rfl, htakes⟩, rfl⟩

/-- **The sound of a run of datagrams.** From its start on, a sink has the sound of each datagram that has
any, in the order in which they arrive; and a response in place of the packet that it carries, or the packet
in place of the response, is the same to it. -/
theorem packets_of_started (hkeeps : b.sink.keeps = true) (htakes : b.sink.enqueueFault = none)
    (hstart : b.start = (.ok (), started)) (arrivals : List Arrival) :
    (started.takeAll arrivals).sink.packets =
        b.sink.packets ++ arrivals.filterMap (sound? b.pipeline.decryptor) ∧
      ∀ before after response, Bytes.field 1 1 response % 128 = 0x56 →
        arrivals = before ++ .control response :: after →
        (started.takeAll (before ++ .audio (response.drop 4) :: after)).sink.packets =
          (started.takeAll arrivals).sink.packets := by
  obtain ⟨hplays, hpackets⟩ := plays_of_start hkeeps htakes hstart
  have hrun (arrivals : List Arrival) : (started.takeAll arrivals).sink.packets =
      b.sink.packets ++ arrivals.filterMap (sound? b.pipeline.decryptor) := by
    rw [hplays.takeAll, hpackets]
  refine ⟨hrun arrivals, ?_⟩
  rintro before after response htype rfl
  have hsame : sound? b.pipeline.decryptor (.audio (response.drop 4)) =
      sound? b.pipeline.decryptor (.control response) := (if_pos htype).symm
  rw [hrun, hrun, List.filterMap_append, List.filterMap_append, List.filterMap_cons,
    List.filterMap_cons, hsame]

/-- Packets of a stream without keys: two of which the second comes in a response, and a sync packet, a
packet of another type and one with half a sample, which are no sound. -/
def mixedArrivals : List Arrival :=
  [.audio [0x80, 0x60, 0, 7, 0, 0, 1, 0, 0, 0, 0, 1, 0, 1, 0xFF, 0xFE],
    .control [0x90, 0xD4, 0, 7, 0, 0, 1, 0, 0, 0, 0, 0, 0, 0, 0, 0, 0, 0, 1, 0],
    .audio [0x80, 0x54, 0, 8, 0, 0, 2, 0, 0, 0, 0, 1, 0, 2],
    .audio [0x80, 0x60, 0, 9, 0, 0, 3, 0, 0, 0, 0, 1, 0],
    .control [0x80, 0xD6, 0, 1, 0x80, 0xE1, 0, 8, 0, 0, 2, 0, 0, 0, 0, 1, 0x80, 0]]

theorem packets_mixedArrivals :
    let b : Playback := { pipeline := { decoder := ⟨.compactDisc⟩, decryptor := none }, sink := {} }
    let started : Playback := { b with sink := { b.sink with format := some .compactDisc } }
    b.start = (.ok (), started) ∧
      (started.takeAll mixedArrivals).sink.packets = [(256, [1, -2]), (512, [-32768])] := by
  intro b started
  have hstart : b.start = (.ok (), started) := rfl
  refine ⟨hstart, ?_⟩
  rw [(packets_of_started (b := b) rfl rfl hstart mixedArrivals).1]
  decide

end Playback
end Raop
