/-
# What the parameters of the lossless format are read from

The options of the format are eleven numerals, each of a number that the width
of its field admits, and nothing else (`AlacParameters.ofOptions_eq_ok_iff`).
In the cookie every number has a place of its own, where it is written with the
most significant octet first (`AlacParameters.map_field_cookie`). So the cookie
tells all the numbers, and two cookies are equal just if their options write
the same numbers, token by token (`AlacParameters.cookie_eq_iff_of_options`),
whatever zeros and plus signs the tokens begin with.

Key definitions: `AlacParameters.widths`, `AlacParameters.spans`, `AlacParameters.numbers`.
Key theorems: `AlacParameters.ofOptions_eq_ok_iff`, `AlacParameters.exists_ofOptions_iff`,
`AlacParameters.map_field_cookie`, `AlacParameters.cookie_eq_iff_of_options`.
-/
import Mathlib.Algebra.Group.Nat.Defs
import Raop.Proofs.Datagram.Audio
import Raop.Proofs.Lists
import Raop.Proofs.Text.Numeral
import Raop.Sdp.Alac

namespace Raop

open Text

namespace AlacParameters

/-- The widths of the fields in bits, in the order of the options. -/
def widths : List Nat := [32, 8, 8, 8, 8, 8, 8, 16, 32, 32, 32]

/-- Where the fields stand in the cookie, in the order of the options: the first octet of each, and how
many octets it has. -/
def spans : List (Nat × Nat) :=
  [(0, 4), (4, 1), (5, 1), (6, 1), (7, 1), (8, 1), (9, 1), (10, 2), (12, 4), (16, 4), (20, 4)]

/-- The numbers of the fields, in the order of the options. -/
def numbers (p : AlacParameters) : List Nat :=
  [p.framesPerPacket.toNat, p.compatibleVersion.toNat, p.bitDepth.toNat, p.pb.toNat, p.mb.toNat,
    p.kb.toNat, p.channels.toNat, p.maxRun.toNat, p.maxFrameBytes.toNat, p.avgBitRate.toNat,
    p.sampleRate.toNat]

theorem numbers_inj {p q : AlacParameters} : p.numbers = q.numbers ↔ p = q := by
  refine ⟨fun h => ?_, fun h => h ▸ rfl⟩
  simp only [numbers, List.cons.injEq, UInt32.toNat_inj, UInt16.toNat_inj, UInt8.toNat_inj] at h
  obtain ⟨h0, h1, h2, h3, h4, h5, h6, h7, h8, h9, h10, -⟩ := h
  cases p
  cases q
  simp_all

/-- A number can stand in each field just if the width of the field admits it. -/
theorem exists_numbers_iff {ns : List Nat} :
    (∃ p : AlacParameters, p.numbers = ns) ↔ List.Forall₂ (fun n width => n < 2 ^ width) ns widths := by
  constructor
  · rintro ⟨p, rfl⟩
    simp only [numbers, widths, List.forall₂_cons, List.forall₂_nil_left_iff, and_true]
    exact ⟨UInt32.toNat_lt _, UInt8.toNat_lt _, UInt8.toNat_lt _, UInt8.toNat_lt _, UInt8.toNat_lt _,
      UInt8.toNat_lt _, UInt8.toNat_lt _, UInt16.toNat_lt _, UInt32.toNat_lt _, UInt32.toNat_lt _,
      UInt32.toNat_lt _⟩
  · intro h
    match ns, h.length_eq with
    | [n0, n1, n2, n3, n4, n5, n6, n7, n8, n9, n10], _ =>
      simp only [widths, List.forall₂_cons, List.forall₂_nil_left_iff, and_true] at h
      obtain ⟨h0, h1, h2, h3, h4, h5, h6, h7, h8, h9, h10⟩ := h
      refine ⟨⟨.ofNat n0, .ofNat n1, .ofNat n2, .ofNat n3, .ofNat n4, .ofNat n5, .ofNat n6, .ofNat n7,
        .ofNat n8, .ofNat n9, .ofNat n10⟩, ?_⟩
      rw [numbers, UInt32.toNat_ofNat_of_lt' h0, UInt8.toNat_ofNat_of_lt' h1, UInt8.toNat_ofNat_of_lt' h2,
        UInt8.toNat_ofNat_of_lt' h3, UInt8.toNat_ofNat_of_lt' h4, UInt8.toNat_ofNat_of_lt' h5,
        UInt8.toNat_ofNat_of_lt' h6, UInt16.toNat_ofNat_of_lt' h7, UInt32.toNat_ofNat_of_lt' h8,
        UInt32.toNat_ofNat_of_lt' h9, UInt32.toNat_ofNat_of_lt' h10]

/-! ### Options -/

theorem bind_eq_ok_iff {ε α β : Type} {x : Except ε α} {f : α → Except ε β} {b : β} :
    x >>= f = .ok b ↔ ∃ a, x = .ok a ∧ f a = .ok b := by
  cases x <;> simp [bind, Except.bind]

theorem field_eq_ok_iff {α : Type} {read : List Char → Option α} {name token : String} {a : α} :
    field read name token = .ok a ↔ read token.toList = some a := by
  unfold field
  cases read token.toList <;> simp

/-- The options are numerals of the numbers, field by field. -/
theorem ofOptions_eq_ok_iff {options : List String} {p : AlacParameters} :
    ofOptions options = .ok p ↔
      List.Forall₂ (fun token n => Numeral token.toList n) options p.numbers := by
  unfold ofOptions
  split
  · simp only [bind_eq_ok_iff, field_eq_ok_iff, readU8?_eq_some_iff, readU16?_eq_some_iff,
      readU32?_eq_some_iff, pure, Except.pure, Except.ok.injEq, numbers, List.forall₂_cons,
      List.forall₂_nil_left_iff, and_true]
    constructor
    · rintro ⟨_, h0, _, h1, _, h2, _, h3, _, h4, _, h5, _, h6, _, h7, _, h8, _, h9, _, h10, rfl⟩
      exact ⟨h0, h1, h2, h3, h4, h5, h6, h7, h8, h9, h10⟩
    · rintro ⟨h0, h1, h2, h3, h4, h5, h6, h7, h8, h9, h10⟩
      exact ⟨_, h0, _, h1, _, h2, _, h3, _, h4, _, h5, _, h6, _, h7, _, h8, _, h9, _, h10, rfl⟩
  · next hother =>
    -- there are not eleven of them
    refine ⟨fun h => (nomatch h), fun h => ?_⟩
    match options, h.length_eq with
    | [t0, t1, t2, t3, t4, t5, t6, t7, t8, t9, t10], _ =>
      exact (hother t0 t1 t2 t3 t4 t5 t6 t7 t8 t9 t10 rfl).elim

/-- Options are accepted just if each is a numeral of a number that the width of its field admits. -/
theorem exists_ofOptions_iff {options : List String} :
    (∃ p, ofOptions options = .ok p) ↔
      List.Forall₂ (fun token width => ∃ n, Numeral token.toList n ∧ n < 2 ^ width) options widths := by
  rw [forall₂_comp_iff]
  simp only [ofOptions_eq_ok_iff, ← exists_numbers_iff]
  constructor
  · rintro ⟨p, h⟩
    exact ⟨_, h, p, rfl⟩
  · rintro ⟨_, h, p, rfl⟩
    exact ⟨p, h⟩

/-! ### The cookie -/

theorem length_cookie (p : AlacParameters) : p.cookie.length = 24 := rfl

/-- Each number stands in its place of the cookie. -/
theorem map_field_cookie (p : AlacParameters) :
    spans.map (fun span => Bytes.field span.1 span.2 p.cookie) = p.numbers := by
  have hplaces : spans.map (fun span => (p.cookie.drop span.1).take span.2) =
      [Bytes.be32 p.framesPerPacket, [p.compatibleVersion], [p.bitDepth], [p.pb], [p.mb], [p.kb],
        [p.channels], Bytes.be16 p.maxRun, Bytes.be32 p.maxFrameBytes, Bytes.be32 p.avgBitRate,
        Bytes.be32 p.sampleRate] := rfl
  calc spans.map (fun span => Bytes.field span.1 span.2 p.cookie)
      = (spans.map fun span => (p.cookie.drop span.1).take span.2).map Bytes.toNatBE := by
        rw [List.map_map]
        rfl
    _ = p.numbers := by
        rw [hplaces]
        simp [numbers]

/-- A cookie tells its parameters. -/
theorem cookie_inj {p q : AlacParameters} : p.cookie = q.cookie ↔ p = q := by
  refine ⟨fun h => numbers_inj.1 ?_, fun h => h ▸ rfl⟩
  rw [← map_field_cookie, ← map_field_cookie, h]

/-- Cookies are equal just if the options write the same numbers, token by token. -/
theorem cookie_eq_iff_of_options {xs ys : List String} {p q : AlacParameters}
    (hp : ofOptions xs = .ok p) (hq : ofOptions ys = .ok q) :
    p.cookie = q.cookie ↔
      List.Forall₂ (fun s t => ∃ n, Numeral s.toList n ∧ Numeral t.toList n) xs ys := by
  have hxs := ofOptions_eq_ok_iff.1 hp
  have hys := ofOptions_eq_ok_iff.1 hq
  have hone : Relator.RightUnique fun (token : String) n => Numeral token.toList n :=
    fun _ _ _ hm hn => hm.eq hn
  rw [forall₂_comp_iff (s := fun n (t : String) => Numeral t.toList n), cookie_inj, ← numbers_inj]
  constructor
  · intro h
    exact ⟨p.numbers, hxs, .flip (h ▸ hys)⟩
  · rintro ⟨ns, hns, hms⟩
    exact (hone.forall₂ hxs hns).trans (hone.forall₂ (.flip hms) hys)

/-- **What is accepted, and what the cookie tells.** Options are accepted just if they are eleven
numerals, each of a number that the width of its field admits. A cookie has twenty-four octets, and in
the place of each field the number that its token writes; and cookies are equal just if the tokens of
their options write the same numbers, one by one. -/
theorem cookies_of_options :
    (∀ options, (∃ p, ofOptions options = .ok p) ↔
      List.Forall₂ (fun token width => ∃ n, Numeral token.toList n ∧ n < 2 ^ width) options widths) ∧
    ∀ xs ys p q, ofOptions xs = .ok p → ofOptions ys = .ok q →
      p.cookie.length = 24 ∧
      List.Forall₂ (fun token span => Numeral token.toList (Bytes.field span.1 span.2 p.cookie)) xs spans ∧
      (p.cookie = q.cookie ↔
        List.Forall₂ (fun s t => ∃ n, Numeral s.toList n ∧ Numeral t.toList n) xs ys) := by
  refine ⟨fun options => exists_ofOptions_iff, fun xs ys p q hp hq => ⟨length_cookie p, ?_, ?_⟩⟩
  · have hxs := ofOptions_eq_ok_iff.1 hp
    rwa [← map_field_cookie, List.forall₂_map_right_iff] at hxs
  · exact cookie_eq_iff_of_options hp hq

/-- The usual parameters, spelled in two ways. -/
theorem cookies_of_options_spelled :
    let xs := ["352", "0", "16", "40", "10", "14", "2", "255", "0", "0", "44100"]
    let ys := ["+352", "000", "016", "+40", "10", "14", "+02", "00255", "+0", "0", "0000044100"]
    ∃ p q, ofOptions xs = .ok p ∧ ofOptions ys = .ok q ∧ p.cookie = q.cookie ∧
      List.Forall₂ (fun s t => ∃ n, Numeral s.toList n ∧ Numeral t.toList n) xs ys := by
  intro xs ys
  let p : AlacParameters := ⟨352, 0, 16, 40, 10, 14, 2, 255, 0, 0, 44100⟩
  have hp : ofOptions xs = .ok p := by decide
  have hq : ofOptions ys = .ok p := by decide
  have hall := (cookies_of_options.2 xs ys p p hp hq).2.2
  exact ⟨p, p, hp, hq, rfl, hall.1 rfl⟩

end AlacParameters
end Raop
