/-
# Where the fields of an audio packet stand

A header is read word by word; here each field is the number that a range of
octets writes. The payload type is the low seven bits of the second octet, and
what comes after twelve octets is the payload.

Key definitions: `Bytes.field`.
Key theorems: `PayloadType.of_eq_ok_iff`, `AudioPacket.decode_eq_ok_iff`,
`AudioPacket.peekSequence?_eq`, `RetransmitResponse.audioPacket_eq_ok_iff`.
-/
import Raop.Datagram.Retransmit

namespace Raop

namespace Bytes

/-- The number that `width` octets write, from an offset on. -/
def field (offset width : Nat) (data : Bytes) : Nat := toNatBE ((data.drop offset).take width)

theorem length_of_read16 {bs rest : Bytes} {w : UInt16} (h : read16 bs = some (w, rest)) :
    bs.length = rest.length + 2 := by
  unfold read16 at h
  split at h
  · cases h
    rfl
  · cases h

theorem length_of_read32 {bs rest : Bytes} {w : UInt32} (h : read32 bs = some (w, rest)) :
    bs.length = rest.length + 4 := by
  unfold read32 at h
  split at h
  · cases h
    rfl
  · cases h

end Bytes

namespace PayloadType

theorem ofOctet?_eq_some_iff {b : UInt8} {t : PayloadType} :
    ofOctet? b = some t ↔ t.code = b &&& 0x7F := by
  unfold ofOctet?
  constructor
  · intro h
    simpa using List.find?_some h
  · intro h
    rw [← h]
    cases t <;> rfl

/-- The payload type is the one whose code is the second octet without its marker bit. -/
theorem of_eq_ok_iff {data : Bytes} {t : PayloadType} :
    of data = .ok t ↔ data.field 1 1 % 128 = t.code.toNat := by
  match data with
  | [] | [_] => cases t <;> simp [of, Bytes.field, Bytes.toNatBE, code]
  | a :: b :: rest =>
    have hcode : (b &&& 0x7F).toNat = b.toNat % 128 := by
      rw [UInt8.toNat_and]
      exact Nat.and_two_pow_sub_one_eq_mod b.toNat 7
    have hfield : Bytes.field 1 1 (a :: b :: rest) = b.toNat := by simp [Bytes.field, Bytes.toNatBE]
    rw [hfield, ← hcode, UInt8.toNat_inj, eq_comm (a := b &&& 0x7F), ← ofOctet?_eq_some_iff]
    rw [of]
    cases ofOctet? b <;> simp

theorem expect_eq_ok_iff {accepts : PayloadType → Bool} {data : Bytes} {t : PayloadType} :
    expect accepts data = .ok t ↔ of data = .ok t ∧ accepts t = true := by
  unfold expect
  cases of data with
  | error e => simp
  | ok t' =>
    simp only [Except.ok.injEq]
    split
    · next haccepts =>
      rw [Except.ok.injEq]
      exact ⟨fun h => ⟨h, h ▸ haccepts⟩, And.left⟩
    · next haccepts => exact ⟨nofun, fun ⟨h, hacc⟩ => absurd (h ▸ hacc) haccepts⟩

theorem expect_isAudio_iff {data : Bytes} {t : PayloadType} :
    expect isAudio data = .ok t ↔
      t = .audioRealtime ∧ data.field 1 1 % 128 = 0x60 ∨
        t = .audioBuffered ∧ data.field 1 1 % 128 = 0x61 := by
  rw [expect_eq_ok_iff, of_eq_ok_iff]
  cases t <;> simp [isAudio, code]

end PayloadType

namespace AudioPacket

theorem fields?_of_le {data : Bytes} (h : headerSize ≤ data.length) :
    fields? data = some {
      marker := 0x80 ≤ data.field 1 1
      sequence := UInt16.ofNat (data.field 2 2)
      timestamp := UInt32.ofNat (data.field 4 4)
      ssrc := UInt32.ofNat (data.field 8 4)
      payload := data.drop headerSize } := by
  match data, h with
  | _ :: b :: _ :: _ :: _ :: _ :: _ :: _ :: _ :: _ :: _ :: _ :: payload, _ =>
    simp [fields?, Bytes.read16, Bytes.read32, Bytes.field, Bytes.toNatBE, headerSize, UInt8.le_iff_toNat_le]

theorem headerSize_le_of_fields? {data : Bytes} {p : AudioPacket} (h : fields? data = some p) :
    headerSize ≤ data.length := by
  unfold fields? at h
  split at h
  · simp only [Option.bind_eq_bind, Option.bind_eq_some_iff, Prod.exists] at h
    obtain ⟨_, _, hsequence, _, _, htimestamp, _, _, hssrc, -⟩ := h
    have := Bytes.length_of_read16 hsequence
    have := Bytes.length_of_read32 htimestamp
    have := Bytes.length_of_read32 hssrc
    simp only [headerSize, List.length_cons]
    omega
  · cases h

/-- A datagram is an audio packet if it has a whole header with one of the payload types of sound. -/
theorem decode_eq_ok_iff {data : Bytes} {p : AudioPacket} :
    decode data = .ok p ↔ headerSize ≤ data.length ∧
      (data.field 1 1 % 128 = 0x60 ∨ data.field 1 1 % 128 = 0x61) ∧
      p = {
        marker := 0x80 ≤ data.field 1 1
        buffered := data.field 1 1 % 128 = 0x61
        sequence := UInt16.ofNat (data.field 2 2)
        timestamp := UInt32.ofNat (data.field 4 4)
        ssrc := UInt32.ofNat (data.field 8 4)
        payload := data.drop headerSize } := by
  unfold decode
  constructor
  · intro h
    split at h
    · cases h
    · next fields hfields =>
      have hlength := headerSize_le_of_fields? hfields
      rw [fields?_of_le hlength, Option.some.injEq] at hfields
      split at h
      · cases h
      · next t ht =>
        obtain rfl := Except.ok.inj h
        rcases PayloadType.expect_isAudio_iff.1 ht with ⟨rfl, htype⟩ | ⟨rfl, htype⟩
        · exact ⟨hlength, Or.inl htype, by simp [← hfields, htype]⟩
        · exact ⟨hlength, Or.inr htype, by simp [← hfields, htype]⟩
  · rintro ⟨hlength, htype | htype, rfl⟩
    · have ht := PayloadType.expect_isAudio_iff.2 (Or.inl ⟨rfl, htype⟩)
      simp [fields?_of_le hlength, ht, htype]
    · have ht := PayloadType.expect_isAudio_iff.2 (Or.inr ⟨rfl, htype⟩)
      simp [fields?_of_le hlength, ht, htype]

theorem type_of_decode {data : Bytes} {p : AudioPacket} (h : decode data = .ok p) :
    ∃ t, PayloadType.of data = .ok t ∧ t.isAudio = true := by
  obtain ⟨-, htype | htype, -⟩ := decode_eq_ok_iff.1 h
  · exact ⟨.audioRealtime, PayloadType.of_eq_ok_iff.2 htype, rfl⟩
  · exact ⟨.audioBuffered, PayloadType.of_eq_ok_iff.2 htype, rfl⟩

theorem peekSequence?_eq (data : Bytes) :
    peekSequence? data =
      if headerSize ≤ data.length then some (UInt16.ofNat (data.field 2 2)) else none := by
  unfold peekSequence?
  split
  · next h =>
    match data, h with
    | _ :: _ :: _ :: _ :: _, _ => simp [Bytes.read16, Bytes.field, Bytes.toNatBE]
  · rfl

end AudioPacket

/-- A response that can hold both headers carries what stands behind its own. -/
theorem RetransmitResponse.audioPacket_eq_ok_iff {data packet : Bytes} :
    audioPacket data = .ok packet ↔
      AudioPacket.headerSize ≤ (data.drop headerSize).length ∧ packet = data.drop headerSize := by
  have hlength : ¬ data.length < headerSize + AudioPacket.headerSize ↔
      AudioPacket.headerSize ≤ (data.drop headerSize).length := by
    rw [List.length_drop, AudioPacket.headerSize, headerSize]
    omega
  rw [audioPacket, ← hlength]
  split
  · next hshort => simp [hshort]
  · next hlong => simp [hlong, eq_comm]

end Raop
