/-
# Octet strings and their spellings

Three octets are a group of four six-bit numbers (`sextetsOnto_cons`), and four
numbers are three octets (`octetsOnto_cons`); a shorter group at the end is read
back because the bits that are left over are zero. So the numbers of an octet
string give it back, and they are the only ones that do (`octetsOnto_eq_some_iff`).
A symbol stands for one number and a number for one symbol
(`value?_eq_some_iff`), and neither white space nor the padding character is a
symbol. Hence a text is read as an octet string just if it is the spelling with
some of the padding, and with white space around it (`reads_spellings`).

Key definitions: `Base64.group`, `Base64.padding`, `Base64.Spelled`.
Key theorems: `Base64.value?_eq_some_iff`, `Base64.octetsOnto_eq_some_iff`,
`Base64.decodeChars?_eq_some_iff`, `Base64.reads_spellings`.
-/
import Raop.Proofs.Lists
import Raop.Proofs.Text.Blank
import Raop.SessionKeys

namespace Raop
namespace Base64

open Text

variable {bs : Bytes} {ns : List Nat} {cs : List Char}

/-! ### Symbols -/

theorem value?_symbol {n : Nat} (h : n < 64) : value? (symbol n) = some n := by
  have hall : ∀ n ∈ List.range 64, value? (symbol n) = some n := by decide +kernel
  exact hall n (List.mem_range.2 h)

/-- A symbol is visible, and is not the padding character. -/
theorem visible_symbol {n : Nat} (h : n < 64) :
    (33 ≤ (symbol n).toNat ∧ (symbol n).toNat ≤ 126) ∧ symbol n ≠ '=' := by
  have hall : ∀ n ∈ List.range 64,
      (33 ≤ (symbol n).toNat ∧ (symbol n).toNat ≤ 126) ∧ symbol n ≠ '=' := by decide +kernel
  exact hall n (List.mem_range.2 h)

theorem symbol_of_value? {c : Char} {n : Nat} (h : value? c = some n) : n < 64 ∧ symbol n = c := by
  have hletter {base : Nat} (hbase : base ≤ c.toNat) : Char.ofNat (base + (c.toNat - base)) = c := by
    rw [Nat.add_sub_cancel' hbase, Char.ofNat_toNat]
  unfold value? at h
  split at h
  · next hc =>
    have hlo : 65 ≤ c.toNat := hc.1
    have hhi : c.toNat ≤ 90 := hc.2
    obtain rfl := Option.some.inj h
    refine ⟨by omega, ?_⟩
    rw [symbol, if_pos (by omega), hletter hlo]
  · split at h
    · next hc =>
      have hlo : 97 ≤ c.toNat := hc.1
      have hhi : c.toNat ≤ 122 := hc.2
      obtain rfl := Option.some.inj h
      refine ⟨by omega, ?_⟩
      rw [symbol, if_neg (by omega), if_pos (by omega), Nat.add_sub_cancel, hletter hlo]
    · split at h
      · next hc =>
        have hlo : 48 ≤ c.toNat := hc.1
        have hhi : c.toNat ≤ 57 := hc.2
        obtain rfl := Option.some.inj h
        refine ⟨by omega, ?_⟩
        rw [symbol, if_neg (by omega), if_neg (by omega), if_pos (by omega), Nat.add_sub_cancel,
          hletter hlo]
      · split at h
        · next hc =>
          obtain rfl := Option.some.inj h
          exact ⟨by decide, by rw [hc]; rfl⟩
        · split at h
          · next hc =>
            obtain rfl := Option.some.inj h
            exact ⟨by decide, by rw [hc]; rfl⟩
          · cases h

/-- A symbol stands for one number, and a number for one symbol. -/
theorem value?_eq_some_iff {c : Char} {n : Nat} : value? c = some n ↔ n < 64 ∧ symbol n = c := by
  refine ⟨symbol_of_value?, ?_⟩
  rintro ⟨hn, rfl⟩
  exact value?_symbol hn

/-- The numbers of symbols are those whose symbols they are. -/
theorem mapM_value?_eq_some_iff :
    cs.mapM value? = some ns ↔ (∀ n ∈ ns, n < 64) ∧ cs = ns.map symbol := by
  rw [mapM_eq_some_iff]
  induction ns generalizing cs with
  | nil => simp
  | cons n ns ih =>
    cases cs with
    | nil => simp
    | cons c cs =>
      simp only [List.map_cons, List.cons.injEq, ih, value?_eq_some_iff, List.forall_mem_cons,
        eq_comm (a := c)]
      exact and_and_and_comm

/-! ### Groups -/

/-- The six-bit numbers of three octets. -/
def group (a b c : UInt8) : List Nat :=
  [a.toNat / 4, a.toNat % 4 * 16 + b.toNat / 16, b.toNat % 16 * 4 + c.toNat / 64, c.toNat % 64]

theorem sextetsOnto_eq : ∀ (done : List Nat) (bs : Bytes),
    sextetsOnto done bs = done.reverse ++ sextetsOnto [] bs
  | done, [] => by simp [sextetsOnto]
  | done, [a] => by simp [sextetsOnto]
  | done, [a, b] => by simp [sextetsOnto]
  | done, a :: b :: c :: bs => by
    unfold sextetsOnto
    rw [sextetsOnto_eq _ bs, sextetsOnto_eq [_, _, _, _] bs]
    simp

theorem sextetsOnto_cons (a b c : UInt8) (bs : Bytes) :
    sextetsOnto [] (a :: b :: c :: bs) = group a b c ++ sextetsOnto [] bs := by
  rw [sextetsOnto, sextetsOnto_eq]
  rfl

theorem octetsOnto_eq : ∀ (done : Bytes) (ns : List Nat),
    octetsOnto done ns = (octetsOnto [] ns).map (done.reverse ++ ·)
  | done, [] => by simp [octetsOnto]
  | done, [_] => by simp [octetsOnto]
  | done, [a, b] => by
    unfold octetsOnto
    split <;> simp
  | done, [a, b, c] => by
    unfold octetsOnto
    split <;> simp
  | done, a :: b :: c :: d :: ns => by
    unfold octetsOnto
    rw [octetsOnto_eq _ ns, octetsOnto_eq [_, _, _] ns, Option.map_map]
    congr 1
    funext bs
    simp

theorem octetsOnto_cons (a b c d : Nat) (ns : List Nat) :
    octetsOnto [] (a :: b :: c :: d :: ns) = (octetsOnto [] ns).map ([UInt8.ofNat (a * 4 + b / 16),
      UInt8.ofNat (b % 16 * 16 + c / 4), UInt8.ofNat (c % 4 * 64 + d)] ++ ·) := by
  rw [octetsOnto, octetsOnto_eq]
  rfl

theorem ofNat_of_eq {a : UInt8} {n : Nat} (h : n = a.toNat) : UInt8.ofNat n = a := by
  rw [h, UInt8.ofNat_toNat]

/-- The numbers of an octet string give it back. -/
theorem octetsOnto_sextetsOnto : ∀ bs : Bytes, octetsOnto [] (sextetsOnto [] bs) = some bs
  | [] => rfl
  | [a] => by
    have hleft : a.toNat % 4 * 16 % 16 = 0 := by omega
    have ha : UInt8.ofNat (a.toNat / 4 * 4 + a.toNat % 4 * 16 / 16) = a := ofNat_of_eq (by omega)
    simp only [sextetsOnto, List.reverse_cons, List.reverse_nil, List.nil_append, List.cons_append,
      octetsOnto, if_pos hleft, ha]
  | [a, b] => by
    have hleft : b.toNat % 16 * 4 % 4 = 0 := by omega
    have hb := b.toNat_lt
    have ha : UInt8.ofNat (a.toNat / 4 * 4 + (a.toNat % 4 * 16 + b.toNat / 16) / 16) = a :=
      ofNat_of_eq (by omega)
    have hb : UInt8.ofNat ((a.toNat % 4 * 16 + b.toNat / 16) % 16 * 16 + b.toNat % 16 * 4 / 4) = b :=
      ofNat_of_eq (by omega)
    simp only [sextetsOnto, List.reverse_cons, List.reverse_nil, List.nil_append, List.cons_append,
      octetsOnto, if_pos hleft, ha, hb]
  | a :: b :: c :: bs => by
    have hb := b.toNat_lt
    have hc := c.toNat_lt
    rw [sextetsOnto_cons, group, List.cons_append, List.cons_append, List.cons_append,
      List.cons_append, List.nil_append, octetsOnto_cons, octetsOnto_sextetsOnto bs,
      ofNat_of_eq (a := a) (by omega), ofNat_of_eq (a := b) (by omega),
      ofNat_of_eq (a := c) (by omega)]
    rfl

theorem toNat_firstOctet {a b : Nat} (ha : a < 64) (hb : b < 64) :
    (UInt8.ofNat (a * 4 + b / 16)).toNat = a * 4 + b / 16 :=
  UInt8.toNat_ofNat_of_lt' (show _ < 256 by omega)

theorem toNat_secondOctet (b : Nat) {c : Nat} (hc : c < 64) :
    (UInt8.ofNat (b % 16 * 16 + c / 4)).toNat = b % 16 * 16 + c / 4 :=
  UInt8.toNat_ofNat_of_lt' (show _ < 256 by omega)

theorem toNat_thirdOctet (c : Nat) {d : Nat} (hd : d < 64) :
    (UInt8.ofNat (c % 4 * 64 + d)).toNat = c % 4 * 64 + d :=
  UInt8.toNat_ofNat_of_lt' (show _ < 256 by omega)

/-- Numbers that give an octet string are its own, as no bit is left over. -/
theorem sextetsOnto_of_octetsOnto : ∀ {ns : List Nat} {bs : Bytes}, (∀ n ∈ ns, n < 64) →
    octetsOnto [] ns = some bs → sextetsOnto [] bs = ns
  | [], bs, _, h => by
    obtain rfl : [] = bs := Option.some.inj h
    rfl
  | [_], bs, _, h => by cases h
  | [a, b], bs, hlt, h => by
    simp only [List.forall_mem_cons] at hlt
    obtain ⟨ha, hb, -⟩ := hlt
    unfold octetsOnto at h
    split at h
    · next hleft =>
      obtain rfl := Option.some.inj h
      have hx := toNat_firstOctet ha hb
      have h₀ : (a * 4 + b / 16) / 4 = a := by omega
      have h₁ : (a * 4 + b / 16) % 4 * 16 = b := by omega
      simp only [List.reverse_cons, List.reverse_nil, List.nil_append, sextetsOnto, hx, h₀, h₁,
        List.cons_append]
    · cases h
  | [a, b, c], bs, hlt, h => by
    simp only [List.forall_mem_cons] at hlt
    obtain ⟨ha, hb, hc, -⟩ := hlt
    unfold octetsOnto at h
    split at h
    · next hleft =>
      obtain rfl := Option.some.inj h
      have hx := toNat_firstOctet ha hb
      have hy := toNat_secondOctet b hc
      have h₀ : (a * 4 + b / 16) / 4 = a := by omega
      have h₁ : (a * 4 + b / 16) % 4 * 16 + (b % 16 * 16 + c / 4) / 16 = b := by omega
      have h₂ : (b % 16 * 16 + c / 4) % 16 * 4 = c := by omega
      simp only [List.reverse_cons, List.reverse_nil, List.nil_append, sextetsOnto, hx, hy, h₀, h₁, h₂,
        List.cons_append]
    · cases h
  | a :: b :: c :: d :: ns, bs, hlt, h => by
    simp only [List.forall_mem_cons] at hlt
    obtain ⟨ha, hb, hc, hd, hns⟩ := hlt
    rw [octetsOnto_cons] at h
    obtain ⟨rest, hrest, rfl⟩ := Option.map_eq_some_iff.1 h
    have hx := toNat_firstOctet ha hb
    have hy := toNat_secondOctet b hc
    have hz := toNat_thirdOctet c hd
    have h₀ : (a * 4 + b / 16) / 4 = a := by omega
    have h₁ : (a * 4 + b / 16) % 4 * 16 + (b % 16 * 16 + c / 4) / 16 = b := by omega
    have h₂ : (b % 16 * 16 + c / 4) % 16 * 4 + (c % 4 * 64 + d) / 64 = c := by omega
    have h₃ : (c % 4 * 64 + d) % 64 = d := by omega
    rw [List.cons_append, List.cons_append, List.cons_append, List.nil_append, sextetsOnto_cons,
      sextetsOnto_of_octetsOnto hns hrest, group, hx, hy, hz, h₀, h₁, h₂, h₃]
    rfl

theorem lt_of_mem_sextetsOnto : ∀ {bs : Bytes}, ∀ n ∈ sextetsOnto [] bs, n < 64
  | [], n, h => by cases h
  | [a], n, h => by
    have ha := a.toNat_lt
    simp only [sextetsOnto, List.reverse_cons, List.reverse_nil, List.nil_append, List.cons_append,
      List.mem_cons, List.not_mem_nil, or_false] at h
    omega
  | [a, b], n, h => by
    have ha := a.toNat_lt
    have hb := b.toNat_lt
    simp only [sextetsOnto, List.reverse_cons, List.reverse_nil, List.nil_append, List.cons_append,
      List.mem_cons, List.not_mem_nil, or_false] at h
    omega
  | a :: b :: c :: bs, n, h => by
    have ha := a.toNat_lt
    have hb := b.toNat_lt
    have hc := c.toNat_lt
    rw [sextetsOnto_cons, List.mem_append] at h
    rcases h with h | h
    · simp only [group, List.mem_cons, List.not_mem_nil, or_false] at h
      omega
    · exact lt_of_mem_sextetsOnto n h

/-- **The numbers of an octet string give it back**, and they are the only six-bit numbers that do. -/
theorem octetsOnto_eq_some_iff (hns : ∀ n ∈ ns, n < 64) :
    octetsOnto [] ns = some bs ↔ ns = sextetsOnto [] bs := by
  refine ⟨fun h => (sextetsOnto_of_octetsOnto hns h).symm, ?_⟩
  rintro rfl
  exact octetsOnto_sextetsOnto bs

/-! ### Spellings -/

/-- How many padding characters complete the last group of four. -/
def padding (bs : Bytes) : Nat := (3 - bs.length % 3) % 3

theorem toList_encode (bs : Bytes) : (encode bs).toList = (sextetsOnto [] bs).map symbol :=
  String.toList_ofList

theorem length_sextetsOnto : ∀ bs : Bytes, (sextetsOnto [] bs).length = (4 * bs.length + 2) / 3
  | [] => rfl
  | [_] => by simp [sextetsOnto]
  | [_, _] => by simp [sextetsOnto]
  | a :: b :: c :: bs => by
    rw [sextetsOnto_cons, List.length_append, length_sextetsOnto bs]
    simp only [group, List.length_cons, List.length_nil]
    omega

/-- What completes the last group of symbols. -/
theorem padding_eq (bs : Bytes) : (4 - (encode bs).toList.length % 4) % 4 = padding bs := by
  rw [toList_encode, List.length_map, length_sextetsOnto, padding]
  -- whole groups, and what is left of one
  obtain ⟨k, hk⟩ : ∃ k, bs.length = 3 * k ∨ bs.length = 3 * k + 1 ∨ bs.length = 3 * k + 2 :=
    ⟨bs.length / 3, by omega⟩
  rcases hk with hk | hk | hk <;> rw [hk] <;> omega

theorem visible_of_mem_encode {c : Char} (h : c ∈ (encode bs).toList) :
    (33 ≤ c.toNat ∧ c.toNat ≤ 126) ∧ c ≠ '=' := by
  rw [toList_encode] at h
  obtain ⟨n, hn, rfl⟩ := List.mem_map.1 h
  exact visible_symbol (lt_of_mem_sextetsOnto n hn)

/-- The padding is what is cut off. -/
theorem trimEndOf_encode (bs : Bytes) (n : Nat) :
    trimEndOf '=' ((encode bs).toList ++ List.replicate n '=') = (encode bs).toList :=
  trimEndOf_eq_iff.2 ⟨n, rfl, fun h => (visible_of_mem_encode (List.mem_of_getLast? h)).2 rfl⟩

/-- A text is read as an octet string if it is the spelling, with no more padding than completes it. -/
theorem decodeChars?_eq_some_iff :
    decodeChars? cs = some bs ↔
      ∃ n ≤ padding bs, cs = (encode bs).toList ++ List.replicate n '=' := by
  constructor
  · intro h
    obtain ⟨n, hcs, -⟩ := trimEndOf_eq_iff.1 (rfl : trimEndOf '=' cs = _)
    unfold decodeChars? at h
    simp only at h
    split at h
    · next hpadding =>
      obtain ⟨ns, hns, hoctets⟩ := Option.bind_eq_some_iff.1 h
      obtain ⟨hlt, hbody⟩ := mapM_value?_eq_some_iff.1 hns
      have hspelling : trimEndOf '=' cs = (encode bs).toList := by
        rw [toList_encode, ← (octetsOnto_eq_some_iff hlt).1 hoctets, hbody]
      have hlength := congrArg List.length hcs
      rw [List.length_append, List.length_replicate] at hlength
      rw [hspelling, padding_eq] at hpadding
      rw [hspelling] at hcs hlength
      exact ⟨n, by omega, hcs⟩
    · cases h
  · rintro ⟨n, hn, rfl⟩
    have hns : (encode bs).toList.mapM value? = some (sextetsOnto [] bs) :=
      mapM_value?_eq_some_iff.2 ⟨lt_of_mem_sextetsOnto, toList_encode bs⟩
    unfold decodeChars?
    simp only [trimEndOf_encode, padding_eq, List.length_append, List.length_replicate,
      Nat.add_sub_cancel_left, if_pos hn, hns, Option.bind_some]
    exact octetsOnto_sextetsOnto bs

/-- A spelling of an octet string: its symbols with none, some or all of the padding, and any white
space around that. -/
def Spelled (text : List Char) (bs : Bytes) : Prop :=
  ∃ lead n trail, text = lead ++ ((encode bs).toList ++ List.replicate n '=' ++ trail) ∧
    n ≤ padding bs ∧ (∀ c ∈ lead, isBlank c = true) ∧ ∀ c ∈ trail, isBlank c = true

/-- Trimming leaves the symbols and the padding. -/
theorem spelled_iff {text : List Char} : Spelled text bs ↔
    ∃ n ≤ padding bs, trimChars text = (encode bs).toList ++ List.replicate n '=' := by
  have hvisible (n : Nat) : ∀ c ∈ (encode bs).toList ++ List.replicate n '=', isBlank c = false := by
    intro c hc
    rcases List.mem_append.1 hc with hc | hc
    · exact isBlank_of_visible (visible_of_mem_encode hc).1
    · rw [List.eq_of_mem_replicate hc]
      decide
  simp only [trimChars_eq_iff]
  constructor
  · rintro ⟨lead, n, trail, htext, hn, hlead, htrail⟩
    exact ⟨n, hn, lead, trail, htext, hlead, htrail,
      fun c hc => hvisible n c (List.mem_of_mem_head? hc),
      fun c hc => hvisible n c (List.mem_of_getLast? hc)⟩
  · rintro ⟨n, hn, lead, trail, htext, hlead, htrail, -, -⟩
    exact ⟨lead, n, trail, htext, hn, hlead, htrail⟩

theorem decodeBase64_eq_ok_iff {text : String} :
    SessionKeys.decodeBase64 text = .ok bs ↔ decode? text = some bs := by
  unfold SessionKeys.decodeBase64
  cases decode? text <;> simp

/-- **The spellings of an octet string are what is read as it.** The symbols of an octet string, with any
number of padding characters up to all that complete it and with any white space around them, are read as
it, and no other text is; so what is read from a text has as its symbols that text without white space
around it and without padding. -/
theorem reads_spellings (text : String) (bs : Bytes) :
    (SessionKeys.decodeBase64 text = .ok bs ↔ Spelled text.toList bs) ∧
      (SessionKeys.decodeBase64 text = .ok bs →
        encode bs = String.ofList (trimEndOf '=' (trimChars text.toList))) := by
  have hreads : SessionKeys.decodeBase64 text = .ok bs ↔ Spelled text.toList bs := by
    rw [decodeBase64_eq_ok_iff, decode?, decodeChars?_eq_some_iff, spelled_iff]
  refine ⟨hreads, fun h => ?_⟩
  obtain ⟨n, -, htrimmed⟩ := spelled_iff.1 (hreads.1 h)
  rw [htrimmed, trimEndOf_encode, String.ofList_toList]

/-- Four octets with one of two padding characters, and white space of several kinds around them. -/
theorem reads_spellings_partlyPadded :
    let text := " \t+/8AAQ=\u2003\r\n"
    SessionKeys.decodeBase64 text = .ok [251, 255, 0, 1] ∧ Spelled text.toList [251, 255, 0, 1] ∧
      encode [251, 255, 0, 1] = String.ofList (trimEndOf '=' (trimChars text.toList)) := by
  intro text
  have hspelled : Spelled text.toList [251, 255, 0, 1] :=
    ⟨[' ', '\t'], 1, ['\u2003', '\r', '\n'], by decide, by decide,
      List.all_eq_true.1 (by decide), List.all_eq_true.1 (by decide)⟩
  have hall := reads_spellings text [251, 255, 0, 1]
  have hread := hall.1.2 hspelled
  exact ⟨hread, hspelled, hall.2 hread⟩

end Base64
end Raop
