/-
# Fields read where they stand

To route a timing packet or to keep a packet of sound, one field is read at its
place in the datagram and nothing else is looked at. What is read is the field of
the packet, whenever the datagram is one: a word is read wherever a time was
written (`rawTime?_of_drop`), and the layout of a packet says where that is. So a
response carries as its reference the word that stood in the request as its send
time, and is found by it (`raw_reads_agree`).

Key theorems: `NtpTime.read64_encode`, `TimingPacket.rawTime?_of_drop`,
`TimingPacket.rawTimes_of_decode`, `AudioPacket.peekSequence?_of_decode`, `raw_reads_agree`.
-/
import Raop.Proofs.Datagram.RoundTrip

namespace Raop

/-- A time that was written is read as a word. -/
theorem NtpTime.read64_encode (t : NtpTime) (rest : Bytes) :
    Bytes.read64 (t.encode ++ rest) = some (t.toWord, rest) := by
  simp [Bytes.read64, encode, Bytes.read32_be32, toWord]

namespace TimingPacket

variable {data rest : Bytes} {p : TimingPacket} {offset : Nat}

/-- The word at an offset is the time that was written there. -/
theorem rawTime?_of_drop {t : NtpTime} (h : data.drop offset = t.encode ++ rest) :
    rawTime? data offset = some t.toWord := by
  rw [rawTime?, h, NtpTime.read64_encode]
  rfl

/-- The three times of a packet, each read at its offset. -/
theorem rawTimes_of_decode (h : decode data = .ok p) :
    rawTime? data referenceAt = some p.reference.toWord ∧
      rawTime? data receiveAt = some p.receive.toWord ∧
      rawTime? data sendAt = some p.send.toWord := by
  obtain ⟨a, b, padding, rest, rfl, -⟩ := decode_iff_layout.1 h
  rw [times, List.append_assoc, List.append_assoc]
  exact ⟨rawTime?_of_drop rfl, rawTime?_of_drop rfl, rawTime?_of_drop rfl⟩

end TimingPacket

/-- The sequence number of a packet, read at its place. -/
theorem AudioPacket.peekSequence?_of_decode {data : Bytes} {p : AudioPacket} (h : decode data = .ok p) :
    peekSequence? data = some p.sequence := by
  obtain ⟨hlength, -, rfl⟩ := decode_eq_ok_iff.1 h
  rw [peekSequence?_eq, if_pos hlength]

open TimingPacket (rawTime? referenceAt receiveAt sendAt)

/-- **What is read at its place is the field of the packet.** In every datagram that is a timing packet
the words at the three offsets are its times, and in every one that is an audio packet the sequence
number is the packet's. The response to a timing packet, whenever it arrived and left, has at the offset
of its reference the word that the packet has at the offset of its send time. -/
theorem raw_reads_agree :
    (∀ data p, TimingPacket.decode data = .ok p →
      rawTime? data referenceAt = some p.reference.toWord ∧
        rawTime? data receiveAt = some p.receive.toWord ∧
        rawTime? data sendAt = some p.send.toWord) ∧
    (∀ data p, AudioPacket.decode data = .ok p →
      AudioPacket.peekSequence? data = some p.sequence) ∧
    ∀ data q receive send, TimingPacket.decode data = .ok q →
      rawTime? (q.respond receive send).encode referenceAt = rawTime? data sendAt := by
  refine ⟨fun data p h => TimingPacket.rawTimes_of_decode h,
    fun data p h => AudioPacket.peekSequence?_of_decode h, fun data q receive send h => ?_⟩
  obtain ⟨-, -, hsend⟩ := TimingPacket.rawTimes_of_decode h
  obtain ⟨hreference, -, -⟩ := TimingPacket.rawTimes_of_decode
    (TimingPacket.exact.decode_encode (q.respond receive send))
  rw [hreference, hsend]
  rfl

/-- A timing request with flags, padding and times of all sorts, and two octets too many. -/
def oddRequest : Bytes :=
  [0xBF, 0x52, 1, 2, 9, 9, 9, 9] ++ (List.range 26).map fun i => UInt8.ofNat (i * 37)

/-- An audio packet with its marker and a payload of three octets. -/
def oddSound : Bytes := [0xBF, 0xE1, 0xFF, 0xFE] ++ (List.range 11).map UInt8.ofNat

theorem raw_reads_agree_odd : ∃ q p,
    TimingPacket.decode oddRequest = .ok q ∧ AudioPacket.decode oddSound = .ok p ∧
      q.isResponse = false ∧
      rawTime? oddRequest sendAt = some q.send.toWord ∧
      AudioPacket.peekSequence? oddSound = some p.sequence ∧
      rawTime? (q.respond ⟨1, 2⟩ ⟨3, 4⟩).encode referenceAt = rawTime? oddRequest sendAt := by
  obtain ⟨q, hq⟩ : ∃ q, TimingPacket.decode oddRequest = .ok q := ⟨_, rfl⟩
  obtain ⟨p, hp⟩ : ∃ p, AudioPacket.decode oddSound = .ok p := ⟨_, rfl⟩
  obtain ⟨htimes, hsequence, hresponse⟩ := raw_reads_agree
  refine ⟨q, p, hq, hp, ?_, (htimes _ q hq).2.2, hsequence _ p hp, hresponse _ q _ _ hq⟩
  cases hq
  rfl

end Raop
