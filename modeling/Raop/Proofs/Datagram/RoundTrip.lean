/-
# Datagrams are read as they are written

A word is read exactly where it was written, so a packet is read exactly from
the datagrams that have its layout: two octets of flags and payload type, its
fields in order, and octets that are not looked at. From the layout follows
all that is said of a codec (`Exact`): it reads what it writes, it accepts every
datagram that is long enough and has a payload type of its own, and it writes
an accepted datagram again with the same fields. Only the sync packet is
accepted whatever its payload type.

Key definitions: `Bytes.octet`, `Bytes.typeCode`, `Exact`.
Key theorems: `Bytes.read16_eq_some_iff`, `Bytes.read32_eq_some_iff`,
`AudioPacket.decode_iff_layout`, `SyncPacket.decode_iff_layout`,
`RetransmitRequest.decode_iff_layout`, `TimingPacket.decode_iff_layout`, `codecs_exact`.
-/
import Mathlib.Data.FinEnum
import Raop.Datagram.Sync
import Raop.Datagram.Timing
import Raop.Proofs.Datagram.Audio

namespace Raop

/-! ### Words -/

namespace Bytes

/-- The octet at a position. -/
def octet (i : Nat) (data : Bytes) : UInt8 := data.getD i 0

/-- The low seven bits of the second octet, which name the payload type. -/
def typeCode (data : Bytes) : UInt8 := data.octet 1 &&& 0x7F

theorem be16_ofNat (a b : UInt8) : be16 (UInt16.ofNat (a.toNat * 256 + b.toNat)) = [a, b] := by
  have ha := a.toNat_lt
  have hb := b.toNat_lt
  simp only [be16, List.cons.injEq, and_true, ← UInt8.toNat_inj, UInt16.toNat_ofNat',
    UInt8.toNat_ofNat']
  omega

theorem be32_ofNat (a b c d : UInt8) :
    be32 (UInt32.ofNat (((a.toNat * 256 + b.toNat) * 256 + c.toNat) * 256 + d.toNat)) =
      [a, b, c, d] := by
  have ha := a.toNat_lt
  have hb := b.toNat_lt
  have hc := c.toNat_lt
  have hd := d.toNat_lt
  simp only [be32, List.cons.injEq, and_true, ← UInt8.toNat_inj, UInt32.toNat_ofNat',
    UInt8.toNat_ofNat']
  omega

/-- A 16-bit word is read where it was written, and nowhere else. -/
theorem read16_eq_some_iff {data rest : Bytes} {w : UInt16} :
    read16 data = some (w, rest) ↔ data = be16 w ++ rest := by
  constructor
  · intro h
    unfold read16 at h
    split at h
    · cases h
      rw [be16_ofNat]
      rfl
    · cases h
  · rintro rfl
    exact read16_be16 w rest

/-- A 32-bit word is read where it was written, and nowhere else. -/
theorem read32_eq_some_iff {data rest : Bytes} {w : UInt32} :
    read32 data = some (w, rest) ↔ data = be32 w ++ rest := by
  constructor
  · intro h
    unfold read32 at h
    split at h
    · cases h
      rw [be32_ofNat]
      rfl
    · cases h
  · rintro rfl
    exact read32_be32 w rest

/-- The payload type of a datagram is one of these. -/
def Names (types : List PayloadType) (data : Bytes) : Prop := ∃ t ∈ types, t.code = data.typeCode

/-- Two octets are a word. -/
theorem exists_be16 {data : Bytes} {n : Nat} (h : n + 2 ≤ data.length) :
    ∃ w rest, data = be16 w ++ rest ∧ n ≤ rest.length := by
  match data, h with
  | a :: b :: rest, h => exact ⟨_, rest, by rw [be16_ofNat]; rfl, by simpa using h⟩

/-- Four octets are a word. -/
theorem exists_be32 {data : Bytes} {n : Nat} (h : n + 4 ≤ data.length) :
    ∃ w rest, data = be32 w ++ rest ∧ n ≤ rest.length := by
  match data, h with
  | a :: b :: c :: d :: rest, h => exact ⟨_, rest, by rw [be32_ofNat]; rfl, by simpa using h⟩

/-- Two octets stand before the rest. -/
theorem exists_cons_cons {data : Bytes} {n : Nat} (h : n + 2 ≤ data.length) :
    ∃ a b rest, data = a :: b :: rest ∧ n ≤ rest.length := by
  match data, h with
  | a :: b :: rest, h => exact ⟨a, b, rest, rfl, by simpa using h⟩

/-- An octet is its high bit and its other bits. -/
theorem low_or_high (b : UInt8) : (b &&& 0x7F ||| if 0x80 ≤ b then 0x80 else 0) = b := by
  revert b
  decide +kernel

/-- One bit of an octet, put back where it was. -/
theorem bit_or_zero (a : UInt8) : (if a &&& 0x10 != 0 then 0x10 else 0) = a &&& 0x10 := by
  revert a
  decide +kernel

/-- With its high bit set an octet keeps its other bits. -/
theorem high_or_low (b : UInt8) : 0x80 ||| b &&& 0x7F = 0x80 ||| b := by
  revert b
  decide +kernel

end Bytes

namespace NtpTime

/-- A time is read where it was written, and nowhere else. -/
theorem read_eq_some_iff {data rest : Bytes} {t : NtpTime} :
    read data = some (t, rest) ↔ data = t.encode ++ rest := by
  constructor
  · intro h
    simp only [read, Option.bind_eq_bind, Option.bind_eq_some_iff, Prod.exists,
      Bytes.read32_eq_some_iff, Option.pure_def, Option.some.injEq, Prod.mk.injEq] at h
    obtain ⟨seconds, _, rfl, fraction, _, rfl, rfl, rfl⟩ := h
    simp [encode]
  · rintro rfl
    exact read_encode t rest

/-- Eight octets are a time. -/
theorem exists_encode {data : Bytes} {n : Nat} (h : n + 8 ≤ data.length) :
    ∃ t rest, data = encode t ++ rest ∧ n ≤ rest.length := by
  obtain ⟨seconds, tail, rfl, htail⟩ := Bytes.exists_be32 (n := n + 4) h
  obtain ⟨fraction, rest, rfl, hrest⟩ := Bytes.exists_be32 htail
  exact ⟨⟨seconds, fraction⟩, rest, by simp [encode], hrest⟩

@[simp] theorem length_encode (t : NtpTime) : t.encode.length = 8 := rfl

end NtpTime

/-! ### Payload types -/

namespace PayloadType

theorem expect_cons_eq_ok_iff {accepts : PayloadType → Bool} {a b : UInt8} {rest : Bytes}
    {t : PayloadType} :
    expect accepts (a :: b :: rest) = .ok t ↔ t.code = b &&& 0x7F ∧ accepts t = true := by
  rw [expect_eq_ok_iff, ← ofOctet?_eq_some_iff, of]
  cases ofOctet? b <;> simp

/-- The code with the high bit set is the code with another bit beside it. -/
theorem low_high_code (t : PayloadType) : (0x80 ||| t.code) &&& 0x7F = t.code := by
  cases t <;> rfl

end PayloadType

/-! ### Layouts -/

namespace AudioPacket

/-- The fields behind the payload type. -/
def body (p : AudioPacket) : Bytes :=
  Bytes.be16 p.sequence ++ (Bytes.be32 p.timestamp ++ (Bytes.be32 p.ssrc ++ p.payload))

theorem fields?_eq_some_iff {data : Bytes} {p : AudioPacket} :
    fields? data = some p ↔
      ∃ a b, data = a :: b :: p.body ∧ p.marker = decide (0x80 ≤ b) ∧ p.buffered = false := by
  constructor
  · intro h
    unfold fields? at h
    split at h
    · next a b bs =>
      simp only [Option.bind_eq_bind, Option.bind_eq_some_iff, Prod.exists,
        Bytes.read16_eq_some_iff, Bytes.read32_eq_some_iff, Option.pure_def, Option.some.injEq] at h
      obtain ⟨sequence, _, rfl, timestamp, _, rfl, ssrc, payload, rfl, rfl⟩ := h
      exact ⟨a, b, rfl, rfl, rfl⟩
    · cases h
  · rintro ⟨a, b, rfl, hmarker, hbuffered⟩
    obtain ⟨marker, buffered, sequence, timestamp, ssrc, payload⟩ := p
    obtain rfl : marker = decide (0x80 ≤ b) := hmarker
    obtain rfl : buffered = false := hbuffered
    simp [fields?, body, Bytes.read16_be16, Bytes.read32_be32]

theorem type_eq {p : AudioPacket} {t : PayloadType} (ht : t.isAudio = true)
    (h : p.buffered = decide (t = .audioBuffered)) : p.type = t := by
  unfold type
  rw [h]
  cases t <;> first | rfl | cases ht

theorem isAudio_type (p : AudioPacket) : p.type.isAudio = true := by
  unfold type
  split <;> rfl

/-- An audio packet is read from its sequence number, timestamp, source and payload, behind an octet
that is not looked at and one with its payload type and marker. -/
theorem decode_iff_layout {data : Bytes} {p : AudioPacket} :
    decode data = .ok p ↔ ∃ a b, data = a :: b :: p.body ∧ p.type.code = b &&& 0x7F ∧
      p.marker = decide (0x80 ≤ b) := by
  constructor
  · intro h
    unfold decode at h
    split at h
    · cases h
    · next fields hfields =>
      split at h
      · cases h
      · next t ht =>
        obtain rfl := Except.ok.inj h
        obtain ⟨a, b, rfl, hmarker, -⟩ := fields?_eq_some_iff.1 hfields
        obtain ⟨hcode, haudio⟩ := PayloadType.expect_cons_eq_ok_iff.1 ht
        exact ⟨a, b, rfl, (congrArg _ (type_eq haudio rfl)).trans hcode, hmarker⟩
  · rintro ⟨a, b, rfl, hcode, hmarker⟩
    have hfields : fields? (a :: b :: p.body) = some { p with buffered := false } :=
      fields?_eq_some_iff.2 ⟨a, b, rfl, hmarker, rfl⟩
    have ht : PayloadType.expect PayloadType.isAudio (a :: b :: p.body) = .ok p.type :=
      PayloadType.expect_cons_eq_ok_iff.2 ⟨hcode, p.isAudio_type⟩
    have hbuffered : decide (p.type = .audioBuffered) = p.buffered := by
      unfold type
      cases p.buffered <;> rfl
    simp only [decode, hfields, ht, hbuffered]

end AudioPacket

namespace SyncPacket

/-- The fields behind the sequence number, which says nothing. -/
def body (p : SyncPacket) : Bytes := Bytes.be32 p.rtp ++ (p.ntp.encode ++ Bytes.be32 p.next)

/-- A sync packet is read from its three times, behind an octet with its flag and three that are not
looked at. -/
theorem decode_iff_layout {data : Bytes} {p : SyncPacket} :
    decode data = .ok p ↔ ∃ a b sequence rest,
      data = a :: b :: (Bytes.be16 sequence ++ (p.body ++ rest)) ∧
      p.extension = (a &&& 0x10 != 0) := by
  have hdecode : decode data = .ok p ↔ fields? data = some p := by
    unfold decode
    cases fields? data <;> simp
  rw [hdecode]
  constructor
  · intro h
    unfold fields? at h
    split at h
    · next a b bs =>
      simp only [Option.bind_eq_bind, Option.bind_eq_some_iff, Prod.exists,
        Bytes.read16_eq_some_iff, Bytes.read32_eq_some_iff, NtpTime.read_eq_some_iff,
        Option.pure_def, Option.some.injEq] at h
      obtain ⟨sequence, _, rfl, rtp, _, rfl, ntp, _, rfl, next, rest, rfl, rfl⟩ := h
      exact ⟨a, b, sequence, rest, by simp [body], rfl⟩
    · cases h
  · rintro ⟨a, b, sequence, rest, rfl, hextension⟩
    obtain ⟨extension, rtp, ntp, next⟩ := p
    obtain rfl : extension = (a &&& 0x10 != 0) := hextension
    simp [fields?, body, Bytes.read16_be16, Bytes.read32_be32, NtpTime.read_encode]

end SyncPacket

namespace RetransmitRequest

/-- The fields behind the payload type. -/
def body (r : RetransmitRequest) : Bytes :=
  Bytes.be16 r.sequence ++ (Bytes.be16 r.start ++ Bytes.be16 r.count)

/-- A request is read from its three numbers, behind an octet that is not looked at and one with its
payload type. -/
theorem decode_iff_layout {data : Bytes} {r : RetransmitRequest} :
    decode data = .ok r ↔ ∃ a b rest, data = a :: b :: (r.body ++ rest) ∧
      PayloadType.retransmitRequest.code = b &&& 0x7F := by
  have hfields : fields? data = some r ↔ ∃ a b rest, data = a :: b :: (r.body ++ rest) := by
    constructor
    · intro h
      unfold fields? at h
      split at h
      · next a b bs =>
        simp only [Option.bind_eq_bind, Option.bind_eq_some_iff, Prod.exists,
          Bytes.read16_eq_some_iff, Option.pure_def, Option.some.injEq] at h
        obtain ⟨sequence, _, rfl, start, _, rfl, count, rest, rfl, rfl⟩ := h
        exact ⟨a, b, rest, by simp [body]⟩
      · cases h
    · rintro ⟨a, b, rest, rfl⟩
      simp [fields?, body, Bytes.read16_be16]
  constructor
  · intro h
    unfold decode at h
    split at h
    · cases h
    · next fields hsome =>
      split at h
      · cases h
      · next t ht =>
        obtain rfl := Except.ok.inj h
        obtain ⟨a, b, rest, rfl⟩ := hfields.1 hsome
        obtain ⟨hcode, htype⟩ := PayloadType.expect_cons_eq_ok_iff.1 ht
        exact ⟨a, b, rest, rfl, by rw [← hcode, eq_of_beq htype]⟩
  · rintro ⟨a, b, rest, rfl, hcode⟩
    have ht : PayloadType.expect (· == .retransmitRequest) (a :: b :: (r.body ++ rest)) =
        .ok .retransmitRequest :=
      PayloadType.expect_cons_eq_ok_iff.2 ⟨hcode, beq_self_eq_true _⟩
    simp only [decode, hfields.2 ⟨a, b, rest, rfl⟩, ht]

end RetransmitRequest

namespace TimingPacket

/-- The times of a packet. -/
def times (p : TimingPacket) : Bytes := p.reference.encode ++ (p.receive.encode ++ p.send.encode)

theorem fields?_eq_some_iff {data : Bytes} {p : TimingPacket} :
    fields? data = some p ↔ ∃ a b padding rest,
      data = a :: b :: (Bytes.be16 p.sequence ++ (Bytes.be32 padding ++ (p.times ++ rest))) ∧
      p.isResponse = false := by
  constructor
  · intro h
    unfold fields? at h
    split at h
    · next a b bs =>
      simp only [Option.bind_eq_bind, Option.bind_eq_some_iff, Prod.exists,
        Bytes.read16_eq_some_iff, Bytes.read32_eq_some_iff, NtpTime.read_eq_some_iff,
        Option.pure_def, Option.some.injEq] at h
      obtain ⟨sequence, _, rfl, padding, _, rfl, reference, _, rfl, receive, _, rfl, send, rest, rfl, rfl⟩ := h
      exact ⟨a, b, padding, rest, by simp [times], rfl⟩
    · cases h
  · rintro ⟨a, b, padding, rest, rfl, hresponse⟩
    obtain ⟨isResponse, sequence, reference, receive, send⟩ := p
    obtain rfl : isResponse = false := hresponse
    simp [fields?, times, Bytes.read16_be16, Bytes.read32_be32, NtpTime.read_encode]

theorem type_eq {p : TimingPacket} {t : PayloadType} (ht : isTiming t = true)
    (h : p.isResponse = decide (t = .timingResponse)) : p.type = t := by
  unfold type
  rw [h]
  cases t <;> first | rfl | cases ht

theorem isTiming_type (p : TimingPacket) : isTiming p.type = true := by
  unfold type
  split <;> rfl

/-- A timing packet is read from its sequence number and its three times, which four octets part,
behind an octet that is not looked at and one with its payload type. -/
theorem decode_iff_layout {data : Bytes} {p : TimingPacket} :
    decode data = .ok p ↔ ∃ a b padding rest,
      data = a :: b :: (Bytes.be16 p.sequence ++ (Bytes.be32 padding ++ (p.times ++ rest))) ∧
      p.type.code = b &&& 0x7F := by
  constructor
  · intro h
    unfold decode at h
    split at h
    · cases h
    · next fields hfields =>
      split at h
      · cases h
      · next t ht =>
        obtain rfl := Except.ok.inj h
        obtain ⟨a, b, padding, rest, rfl, -⟩ := fields?_eq_some_iff.1 hfields
        obtain ⟨hcode, htiming⟩ := PayloadType.expect_cons_eq_ok_iff.1 ht
        exact ⟨a, b, padding, rest, rfl, (congrArg _ (type_eq htiming rfl)).trans hcode⟩
  · rintro ⟨a, b, padding, rest, rfl, hcode⟩
    have hfields : fields? (a :: b :: (Bytes.be16 p.sequence ++
        (Bytes.be32 padding ++ (p.times ++ rest)))) = some { p with isResponse := false } :=
      fields?_eq_some_iff.2 ⟨a, b, padding, rest, rfl, rfl⟩
    have ht : PayloadType.expect isTiming (a :: b :: (Bytes.be16 p.sequence ++
        (Bytes.be32 padding ++ (p.times ++ rest)))) = .ok p.type :=
      PayloadType.expect_cons_eq_ok_iff.2 ⟨hcode, p.isTiming_type⟩
    have hresponse : decide (p.type = .timingResponse) = p.isResponse := by
      unfold type
      cases p.isResponse <;> rfl
    simp only [decode, hfields, ht, hresponse]

end TimingPacket

/-! ### Codecs -/

/-- A codec is exact. It reads what it writes; it accepts the datagrams that `accepts` names; and
what it reads from one of its `own` it writes as `again` says. -/
structure Exact {α : Type} (encode : α → Bytes) (decode : Bytes → Except PacketError α)
    (accepts own : Bytes → Prop) (again : Bytes → Bytes) : Prop where
  decode_encode : ∀ p, decode (encode p) = .ok p
  accepts_iff : ∀ data, (∃ p, decode data = .ok p) ↔ accepts data
  encode_decode : ∀ data p, decode data = .ok p → own data → encode p = again data

/-- An audio packet is written again as it was, but for its first octet. -/
theorem AudioPacket.exact : Exact encode decode
    (fun data => headerSize ≤ data.length ∧ data.Names [.audioRealtime, .audioBuffered])
    (fun _ => True) (fun data => 0x80 :: data.drop 1) where
  decode_encode p := by
    have hcode : p.type.code = (p.type.code ||| if p.marker then 0x80 else 0) &&& 0x7F ∧
        p.marker = decide (0x80 ≤ p.type.code ||| if p.marker then 0x80 else 0) := by
      unfold type
      cases p.buffered <;> cases p.marker <;> decide
    exact decode_iff_layout.2 ⟨0x80, _, by simp [encode, body], hcode⟩
  accepts_iff data := by
    constructor
    · rintro ⟨p, h⟩
      obtain ⟨a, b, rfl, hcode, -⟩ := decode_iff_layout.1 h
      refine ⟨?_, p.type, ?_, hcode⟩
      · simp only [body, headerSize, List.length_cons, List.length_append, Bytes.length_be16,
          Bytes.length_be32]
        omega
      · unfold type
        split <;> simp
    · rintro ⟨hlength, t, ht, hcode⟩
      have haudio : t.isAudio = true := by
        cases t <;> first | rfl | simp at ht
      obtain ⟨a, b, tail, rfl, h₁⟩ := Bytes.exists_cons_cons (n := 10) hlength
      obtain ⟨sequence, tail, rfl, h₂⟩ := Bytes.exists_be16 (n := 8) h₁
      obtain ⟨timestamp, tail, rfl, h₃⟩ := Bytes.exists_be32 (n := 4) h₂
      obtain ⟨ssrc, payload, rfl, -⟩ := Bytes.exists_be32 (n := 0) h₃
      exact ⟨⟨decide (0x80 ≤ b), decide (t = .audioBuffered), sequence, timestamp, ssrc, payload⟩,
        decode_iff_layout.2 ⟨a, b, rfl, (congrArg _ (type_eq haudio rfl)).trans hcode, rfl⟩⟩
  encode_decode data p h _ := by
    obtain ⟨a, b, rfl, hcode, hmarker⟩ := decode_iff_layout.1 h
    have hoctet : (p.type.code ||| if p.marker then 0x80 else 0) = b := by
      simpa [hcode, hmarker] using Bytes.low_or_high b
    calc p.encode = 0x80 :: (p.type.code ||| if p.marker then 0x80 else 0) :: p.body := by
          simp [encode, body]
      _ = 0x80 :: b :: p.body := by rw [hoctet]

/-- A sync packet of its own payload type is written again with its flag and its times. -/
theorem SyncPacket.exact : Exact encode decode (fun data => size ≤ data.length)
    (fun data => data.Names [.sync])
    (fun data => (0x80 ||| data.octet 0 &&& 0x10) :: (0x80 ||| data.octet 1) :: 0 :: 7 ::
      data.extract 4 size) where
  decode_encode p := by
    have hextension :
        p.extension = (((0x80 : UInt8) ||| if p.extension then 0x10 else 0) &&& 0x10 != 0) := by
      cases p.extension <;> decide
    exact decode_iff_layout.2
      ⟨0x80 ||| if p.extension then 0x10 else 0, 0xD4, 7, [], by simp [encode, body], hextension⟩
  accepts_iff data := by
    constructor
    · rintro ⟨p, h⟩
      obtain ⟨a, b, sequence, rest, rfl, -⟩ := decode_iff_layout.1 h
      simp only [body, size, List.length_cons, List.length_append, Bytes.length_be16,
        Bytes.length_be32, NtpTime.length_encode]
      omega
    · intro hlength
      obtain ⟨a, b, tail, rfl, h₁⟩ := Bytes.exists_cons_cons (n := 18) hlength
      obtain ⟨sequence, tail, rfl, h₂⟩ := Bytes.exists_be16 (n := 16) h₁
      obtain ⟨rtp, tail, rfl, h₃⟩ := Bytes.exists_be32 (n := 12) h₂
      obtain ⟨ntp, tail, rfl, h₄⟩ := NtpTime.exists_encode (n := 4) h₃
      obtain ⟨next, rest, rfl, -⟩ := Bytes.exists_be32 (n := 0) h₄
      exact ⟨⟨a &&& 0x10 != 0, rtp, ntp, next⟩,
        decode_iff_layout.2 ⟨a, b, sequence, rest, by simp [body], rfl⟩⟩
  encode_decode data p h hown := by
    obtain ⟨a, b, sequence, rest, rfl, hextension⟩ := decode_iff_layout.1 h
    obtain ⟨t, ht, hcode⟩ := hown
    obtain rfl : t = .sync := by simpa using ht
    have hflag : (if p.extension then 0x10 else 0) = a &&& 0x10 := by
      rw [hextension, Bytes.bit_or_zero]
    have htype : (0xD4 : UInt8) = 0x80 ||| b :=
      (congrArg (0x80 ||| ·) hcode).trans (Bytes.high_or_low b)
    calc p.encode = (0x80 ||| if p.extension then 0x10 else 0) :: 0xD4 :: 0 :: 7 :: p.body := by
          simp [encode, body, Bytes.be16]
      _ = (0x80 ||| a &&& 0x10) :: (0x80 ||| b) :: 0 :: 7 :: p.body := by rw [hflag, htype]

/-- A request is written again with its three numbers. -/
theorem RetransmitRequest.exact : Exact encode decode
    (fun data => size ≤ data.length ∧ data.Names [.retransmitRequest]) (fun _ => True)
    (fun data => 0x80 :: (0x80 ||| data.octet 1) :: data.extract 2 size) where
  decode_encode r :=
    decode_iff_layout.2 ⟨0x80, _, [], by simp [encode, body], (PayloadType.low_high_code _).symm⟩
  accepts_iff data := by
    constructor
    · rintro ⟨r, h⟩
      obtain ⟨a, b, rest, rfl, hcode⟩ := decode_iff_layout.1 h
      refine ⟨?_, _, by simp, hcode⟩
      simp only [body, size, List.length_cons, List.length_append, Bytes.length_be16]
      omega
    · rintro ⟨hlength, t, ht, hcode⟩
      obtain rfl : t = .retransmitRequest := by simpa using ht
      obtain ⟨a, b, tail, rfl, h₁⟩ := Bytes.exists_cons_cons (n := 6) hlength
      obtain ⟨sequence, tail, rfl, h₂⟩ := Bytes.exists_be16 (n := 4) h₁
      obtain ⟨start, tail, rfl, h₃⟩ := Bytes.exists_be16 (n := 2) h₂
      obtain ⟨count, rest, rfl, -⟩ := Bytes.exists_be16 (n := 0) h₃
      exact ⟨⟨sequence, start, count⟩,
        decode_iff_layout.2 ⟨a, b, rest, by simp [body], hcode⟩⟩
  encode_decode data r h _ := by
    obtain ⟨a, b, rest, rfl, hcode⟩ := decode_iff_layout.1 h
    calc r.encode = 0x80 :: (0x80 ||| PayloadType.retransmitRequest.code) :: r.body := by
          simp [encode, body]
      _ = 0x80 :: (0x80 ||| b) :: r.body := by rw [hcode, Bytes.high_or_low]

/-- A timing packet is written again with its sequence number and its times, and zeros between. -/
theorem TimingPacket.exact : Exact encode decode
    (fun data => size ≤ data.length ∧ data.Names [.timingRequest, .timingResponse]) (fun _ => True)
    (fun data => 0x80 :: (0x80 ||| data.octet 1) ::
      (data.extract 2 4 ++ Bytes.be32 0 ++ data.extract 8 size)) where
  decode_encode p :=
    decode_iff_layout.2 ⟨0x80, _, 0, [], by simp [encode, times], (PayloadType.low_high_code _).symm⟩
  accepts_iff data := by
    constructor
    · rintro ⟨p, h⟩
      obtain ⟨a, b, padding, rest, rfl, hcode⟩ := decode_iff_layout.1 h
      refine ⟨?_, p.type, ?_, hcode⟩
      · simp only [times, size, List.length_cons, List.length_append, Bytes.length_be16,
          Bytes.length_be32, NtpTime.length_encode]
        omega
      · unfold type
        split <;> simp
    · rintro ⟨hlength, t, ht, hcode⟩
      have htiming : isTiming t = true := by
        cases t <;> first | rfl | simp at ht
      obtain ⟨a, b, tail, rfl, h₁⟩ := Bytes.exists_cons_cons (n := 30) hlength
      obtain ⟨sequence, tail, rfl, h₂⟩ := Bytes.exists_be16 (n := 28) h₁
      obtain ⟨padding, tail, rfl, h₃⟩ := Bytes.exists_be32 (n := 24) h₂
      obtain ⟨reference, tail, rfl, h₄⟩ := NtpTime.exists_encode (n := 16) h₃
      obtain ⟨receive, tail, rfl, h₅⟩ := NtpTime.exists_encode (n := 8) h₄
      obtain ⟨send, rest, rfl, -⟩ := NtpTime.exists_encode (n := 0) h₅
      exact ⟨⟨decide (t = .timingResponse), sequence, reference, receive, send⟩,
        decode_iff_layout.2 ⟨a, b, padding, rest, by simp [times],
          (congrArg _ (type_eq htiming rfl)).trans hcode⟩⟩
  encode_decode data p h _ := by
    obtain ⟨a, b, padding, rest, rfl, hcode⟩ := decode_iff_layout.1 h
    calc p.encode
        = 0x80 :: (0x80 ||| p.type.code) :: (Bytes.be16 p.sequence ++ Bytes.be32 0 ++ p.times) := by
          simp [encode, times]
      _ = 0x80 :: (0x80 ||| b) :: (Bytes.be16 p.sequence ++ Bytes.be32 0 ++ p.times) := by
          rw [hcode, Bytes.high_or_low]

/-- **Datagrams are read as they are written, and written as they were read.** An audio packet keeps
all its octets but the first. The others keep their fields: the flag and the times of a sync packet
of its own payload type, the numbers of a request, the sequence number and the times of a timing
packet; their marker is set, and what they do not read is written anew. -/
theorem codecs_exact :
    Exact AudioPacket.encode AudioPacket.decode
      (fun data => 12 ≤ data.length ∧ data.Names [.audioRealtime, .audioBuffered]) (fun _ => True)
      (fun data => 0x80 :: data.drop 1) ∧
    Exact SyncPacket.encode SyncPacket.decode (fun data => 20 ≤ data.length)
      (fun data => data.Names [.sync])
      (fun data => (0x80 ||| data.octet 0 &&& 0x10) :: (0x80 ||| data.octet 1) :: 0 :: 7 ::
        data.extract 4 20) ∧
    Exact RetransmitRequest.encode RetransmitRequest.decode
      (fun data => 8 ≤ data.length ∧ data.Names [.retransmitRequest]) (fun _ => True)
      (fun data => 0x80 :: (0x80 ||| data.octet 1) :: data.extract 2 8) ∧
    Exact TimingPacket.encode TimingPacket.decode
      (fun data => 32 ≤ data.length ∧ data.Names [.timingRequest, .timingResponse]) (fun _ => True)
      (fun data => 0x80 :: (0x80 ||| data.octet 1) ::
        (data.extract 2 4 ++ [0, 0, 0, 0] ++ data.extract 8 32)) :=
  ⟨AudioPacket.exact, SyncPacket.exact, RetransmitRequest.exact, TimingPacket.exact⟩

/-- A timing response with flags and padding that are not written again, and an octet too many. -/
def paddedTiming : Bytes :=
  [0xBF, 0x53, 1, 2, 9, 9, 9, 9] ++ (List.range 25).map UInt8.ofNat

example : (TimingPacket.decode paddedTiming).toOption.map TimingPacket.encode =
    some ([0x80, 0xD3, 1, 2, 0, 0, 0, 0] ++ (List.range 24).map UInt8.ofNat) := by
  decide

end Raop
