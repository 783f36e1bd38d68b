/-
# UTF-8 reads back what it writes

A character is read back from its octets whatever follows them, so a text is
read back from its octets, by the strict reader and by the lenient one
(`decodeChars?_encodeChars`, `decodeCharsLossy_encodeChars`). It is read from no
other octets, so the strict reader accepts the octets of texts and nothing else
(`decodeChars?_eq_some_iff`). Octets below 128 stand for themselves, so ASCII
text that shows up among the octets of a text is in the text
(`infix_of_encodeChars`).

Key theorems: `Utf8.next_utf8EncodeChar`, `Utf8.eq_of_next`, `decodeChars?_encodeChars`,
`decodeChars?_eq_some_iff`, `decodeCharsLossy_encodeChars`, `infix_of_encodeChars`.
-/
import Raop.Text.Utf8

namespace Raop.Text

namespace Utf8

/-! ### One character -/

/-- Whether an octet lies in a range is a matter of numbers. -/
theorem within_iff {lo hi b : UInt8} :
    within lo hi b = true ↔ lo.toNat ≤ b.toNat ∧ b.toNat ≤ hi.toNat := by
  simp [within, UInt8.le_iff_toNat_le]

theorem toNat_ofNat_of_lt {n : Nat} (h : n < 256) : (UInt8.ofNat n).toNat = n := by
  rw [UInt8.toNat_ofNat']
  omega

/-- Six bits in a continuation octet. -/
theorem isTail_ofNat (n : Nat) : isTail (UInt8.ofNat (n % 0x40 + 0x80)) = true := by
  have h := toNat_ofNat_of_lt (n := n % 0x40 + 0x80) (by omega)
  rw [isTail, within_iff, h]
  exact ⟨Nat.le_add_left _ _, (by omega : n % 0x40 + 0x80 ≤ 0xBF)⟩

theorem payload_ofNat (n : Nat) : payload (UInt8.ofNat (n % 0x40 + 0x80)) = n % 0x40 := by
  rw [payload, toNat_ofNat_of_lt (by omega)]
  omega

theorem next_one {v : Nat} (h : v < 0x80) (rest : Bytes) :
    next (UInt8.ofNat v) rest = (some (Char.ofNat v), rest) := by
  have hv := toNat_ofNat_of_lt (n := v) (by omega)
  have h1 : UInt8.ofNat v < 0x80 := by
    rw [UInt8.lt_iff_toNat_lt, hv]
    exact h
  unfold next
  rw [if_pos h1, hv]

theorem next_two {v : Nat} (h1 : 0x80 ≤ v) (h2 : v < 0x800) (rest : Bytes) :
    next (UInt8.ofNat (v / 64 % 0x20 + 0xc0)) (UInt8.ofNat (v % 0x40 + 0x80) :: rest) =
      (some (Char.ofNat v), rest) := by
  have ha := toNat_ofNat_of_lt (n := v / 64 % 0x20 + 0xc0) (by omega)
  generalize UInt8.ofNat (v / 64 % 0x20 + 0xc0) = a at ha ⊢
  have n1 : ¬ a < 0x80 := by
    simp only [UInt8.lt_iff_toNat_lt, ha, UInt8.reduceToNat]
    omega
  have l2 : within 0xC2 0xDF a := by
    simp only [within_iff, ha, UInt8.reduceToNat]
    omega
  unfold next
  rw [if_neg n1, if_pos l2]
  simp only [isTail_ofNat, if_true, payload_ofNat, ha]
  rw [show (v / 64 % 0x20 + 0xc0) % 32 * 64 + v % 0x40 = v by omega]

theorem next_three {v : Nat} (h1 : 0x800 ≤ v) (h2 : v < 0x10000) (h3 : v < 0xD800 ∨ 0xDFFF < v)
    (rest : Bytes) :
    next (UInt8.ofNat (v / 4096 % 0x10 + 0xe0))
        (UInt8.ofNat (v / 64 % 0x40 + 0x80) :: UInt8.ofNat (v % 0x40 + 0x80) :: rest) =
      (some (Char.ofNat v), rest) := by
  have ha := toNat_ofNat_of_lt (n := v / 4096 % 0x10 + 0xe0) (by omega)
  have hb := toNat_ofNat_of_lt (n := v / 64 % 0x40 + 0x80) (by omega)
  generalize UInt8.ofNat (v / 4096 % 0x10 + 0xe0) = a at ha ⊢
  have n1 : ¬ a < 0x80 := by
    simp only [UInt8.lt_iff_toNat_lt, ha, UInt8.reduceToNat]
    omega
  have n2 : ¬ within 0xC2 0xDF a := by
    simp only [within_iff, ha, UInt8.reduceToNat]
    omega
  have l3 : within 0xE0 0xEF a := by
    simp only [within_iff, ha, UInt8.reduceToNat]
    omega
  have s3 : within (second3 a).1 (second3 a).2 (UInt8.ofNat (v / 64 % 0x40 + 0x80)) := by
    rw [within_iff, hb, second3]
    simp only [← UInt8.toNat_inj, ha, UInt8.reduceToNat]
    split
    · simp only [UInt8.reduceToNat]
      omega
    · split <;> simp only [UInt8.reduceToNat] <;> omega
  unfold next
  rw [if_neg n1, if_neg n2, if_pos l3]
  simp only [s3, isTail_ofNat, if_true, payload_ofNat, ha]
  rw [show ((v / 4096 % 0x10 + 0xe0) % 16 * 64 + v / 64 % 0x40) * 64 + v % 0x40 = v by omega]

theorem next_four {v : Nat} (h1 : 0x10000 ≤ v) (h2 : v < 0x110000) (rest : Bytes) :
    next (UInt8.ofNat (v / 262144 % 0x08 + 0xf0))
        (UInt8.ofNat (v / 4096 % 0x40 + 0x80) :: UInt8.ofNat (v / 64 % 0x40 + 0x80) ::
          UInt8.ofNat (v % 0x40 + 0x80) :: rest) =
      (some (Char.ofNat v), rest) := by
  have ha := toNat_ofNat_of_lt (n := v / 262144 % 0x08 + 0xf0) (by omega)
  have hb := toNat_ofNat_of_lt (n := v / 4096 % 0x40 + 0x80) (by omega)
  generalize UInt8.ofNat (v / 262144 % 0x08 + 0xf0) = a at ha ⊢
  have n1 : ¬ a < 0x80 := by
    simp only [UInt8.lt_iff_toNat_lt, ha, UInt8.reduceToNat]
    omega
  have n2 : ¬ within 0xC2 0xDF a := by
    simp only [within_iff, ha, UInt8.reduceToNat]
    omega
  have n3 : ¬ within 0xE0 0xEF a := by
    simp only [within_iff, ha, UInt8.reduceToNat]
    omega
  have l4 : within 0xF0 0xF4 a := by
    simp only [within_iff, ha, UInt8.reduceToNat]
    omega
  have s4 : within (second4 a).1 (second4 a).2 (UInt8.ofNat (v / 4096 % 0x40 + 0x80)) := by
    rw [within_iff, hb, second4]
    simp only [← UInt8.toNat_inj, ha, UInt8.reduceToNat]
    split
    · simp only [UInt8.reduceToNat]
      omega
    · split <;> simp only [UInt8.reduceToNat] <;> omega
  unfold next
  rw [if_neg n1, if_neg n2, if_neg n3, if_pos l4]
  simp only [s4, isTail_ofNat, if_true, payload_ofNat, ha]
  rw [show (((v / 262144 % 0x08 + 0xf0) % 8 * 64 + v / 4096 % 0x40) * 64 + v / 64 % 0x40) * 64 +
    v % 0x40 = v by omega]

/-- A character is written as a first octet and others, and read back from them. -/
theorem next_utf8EncodeChar (c : Char) (rest : Bytes) :
    ∃ a tail, String.utf8EncodeChar c = a :: tail ∧ next a (tail ++ rest) = (some c, rest) := by
  have hc : Char.ofNat c.val.toNat = c := Char.ofNat_toNat c
  have hv := c.valid
  unfold String.utf8EncodeChar
  simp only
  split
  · next h => exact ⟨_, _, rfl, by rw [List.nil_append, next_one (by omega), hc]⟩
  · split
    · next h1 h2 =>
      exact ⟨_, _, rfl, by rw [List.singleton_append, next_two (by omega) (by omega), hc]⟩
    · split
      · next h1 h2 h3 =>
        refine ⟨_, _, rfl, ?_⟩
        rw [List.cons_append, List.singleton_append, next_three (by omega) (by omega) ?_, hc]
        rcases hv with hv | hv
        · exact .inl hv
        · exact .inr hv.1
      · next h1 h2 h3 =>
        refine ⟨_, _, rfl, ?_⟩
        rw [List.cons_append, List.cons_append, List.singleton_append,
          next_four (by omega) ?_, hc]
        rcases hv with hv | hv
        · exact Nat.lt_trans hv (by decide)
        · exact hv.2

/-! ### The octets that a character is read from -/

theorem isTail_iff {b : UInt8} : isTail b = true ↔ 0x80 ≤ b.toNat ∧ b.toNat ≤ 0xBF := within_iff

/-- An octet is its number. -/
theorem ofNat_eq_of_toNat {n : Nat} {b : UInt8} (h : n = b.toNat) : UInt8.ofNat n = b := by
  rw [h, UInt8.ofNat_toNat]

theorem toNat_val_ofNat {v : Nat} (h : v.isValidChar) : (Char.ofNat v).val.toNat = v := by
  rw [Char.ofNat, dif_pos h]
  rfl

theorem utf8EncodeChar_one {a : UInt8} (h : a < 0x80) :
    String.utf8EncodeChar (Char.ofNat a.toNat) = [a] := by
  have ha : a.toNat < 0x80 := UInt8.lt_iff_toNat_lt.1 h
  have hv : (Char.ofNat a.toNat).val.toNat = a.toNat := toNat_val_ofNat (.inl (by omega))
  unfold String.utf8EncodeChar
  simp only [hv]
  rw [if_pos (by omega), UInt8.ofNat_toNat]

theorem utf8EncodeChar_two {a b : UInt8} (ha : within 0xC2 0xDF a = true) (hb : isTail b = true) :
    String.utf8EncodeChar (Char.ofNat (a.toNat % 32 * 64 + payload b)) = [a, b] := by
  simp only [within_iff, UInt8.reduceToNat] at ha
  rw [isTail_iff] at hb
  unfold payload
  generalize hv : a.toNat % 32 * 64 + b.toNat % 64 = v
  have hval := toNat_val_ofNat (v := v) (.inl (by omega))
  unfold String.utf8EncodeChar
  simp only [hval]
  rw [if_neg (by omega), if_pos (by omega)]
  rw [ofNat_eq_of_toNat (b := a) (by omega), ofNat_eq_of_toNat (b := b) (by omega)]

theorem utf8EncodeChar_three {a b c : UInt8} (ha : within 0xE0 0xEF a = true)
    (hb : within (second3 a).1 (second3 a).2 b = true) (hc : isTail c = true) :
    String.utf8EncodeChar (Char.ofNat ((a.toNat % 16 * 64 + payload b) * 64 + payload c)) =
      [a, b, c] := by
  simp only [within_iff, UInt8.reduceToNat] at ha
  rw [isTail_iff] at hc
  -- the second octet keeps short characters and surrogates out
  have hrange : 0x80 ≤ b.toNat ∧ b.toNat ≤ 0xBF ∧ (a.toNat = 0xE0 → 0xA0 ≤ b.toNat) ∧
      (a.toNat = 0xED → b.toNat ≤ 0x9F) := by
    rw [within_iff, second3] at hb
    simp only [← UInt8.toNat_inj, UInt8.reduceToNat] at hb
    split at hb
    · simp only [UInt8.reduceToNat] at hb
      omega
    · split at hb <;> simp only [UInt8.reduceToNat] at hb <;> omega
  unfold payload
  generalize hv : (a.toNat % 16 * 64 + b.toNat % 64) * 64 + c.toNat % 64 = v
  have hvalid : v.isValidChar := by
    unfold Nat.isValidChar
    omega
  have hval := toNat_val_ofNat hvalid
  unfold String.utf8EncodeChar
  simp only [hval]
  rw [if_neg (by omega), if_neg (by omega), if_pos (by omega)]
  rw [ofNat_eq_of_toNat (b := a) (by omega), ofNat_eq_of_toNat (b := b) (by omega),
    ofNat_eq_of_toNat (b := c) (by omega)]

theorem utf8EncodeChar_four {a b c d : UInt8} (ha : within 0xF0 0xF4 a = true)
    (hb : within (second4 a).1 (second4 a).2 b = true) (hc : isTail c = true) (hd : isTail d = true) :
    String.utf8EncodeChar
        (Char.ofNat (((a.toNat % 8 * 64 + payload b) * 64 + payload c) * 64 + payload d)) =
      [a, b, c, d] := by
  simp only [within_iff, UInt8.reduceToNat] at ha
  rw [isTail_iff] at hc hd
  have hrange : 0x80 ≤ b.toNat ∧ b.toNat ≤ 0xBF ∧ (a.toNat = 0xF0 → 0x90 ≤ b.toNat) ∧
      (a.toNat = 0xF4 → b.toNat ≤ 0x8F) := by
    rw [within_iff, second4] at hb
    simp only [← UInt8.toNat_inj, UInt8.reduceToNat] at hb
    split at hb
    · simp only [UInt8.reduceToNat] at hb
      omega
    · split at hb <;> simp only [UInt8.reduceToNat] at hb <;> omega
  unfold payload
  generalize hv : ((a.toNat % 8 * 64 + b.toNat % 64) * 64 + c.toNat % 64) * 64 + d.toNat % 64 = v
  have hvalid : v.isValidChar := by
    unfold Nat.isValidChar
    omega
  have hval := toNat_val_ofNat hvalid
  unfold String.utf8EncodeChar
  simp only [hval]
  rw [if_neg (by omega), if_neg (by omega), if_neg (by omega)]
  rw [ofNat_eq_of_toNat (b := a) (by omega), ofNat_eq_of_toNat (b := b) (by omega),
    ofNat_eq_of_toNat (b := c) (by omega), ofNat_eq_of_toNat (b := d) (by omega)]

/-- A character is read from its own octets and from no others. -/
theorem eq_of_next {a : UInt8} {rest rest' : Bytes} {ch : Char}
    (h : next a rest = (some ch, rest')) : a :: rest = String.utf8EncodeChar ch ++ rest' := by
  revert h
  -- of all the ways through the reader, four give a character
  fun_cases next a rest <;> intro h <;> cases h
  · next ha => rw [utf8EncodeChar_one ha, List.singleton_append]
  · next _ ha b hb => rw [utf8EncodeChar_two ha hb, List.cons_append, List.singleton_append]
  · next _ _ ha b hb c hc => rw [utf8EncodeChar_three ha hb hc]; rfl
  · next _ _ _ ha b hb c hc d hd => rw [utf8EncodeChar_four ha hb hc hd]; rfl

/-! ### All characters -/

/-- The symbols of a text's octets are its characters. -/
theorem symbols_encodeChars (cs : List Char) : symbols (encodeChars cs) = cs.map some := by
  induction cs with
  | nil => exact symbols_nil
  | cons c cs ih =>
    obtain ⟨a, tail, hc, hn⟩ := next_utf8EncodeChar c (encodeChars cs)
    rw [encodeChars, List.flatMap_cons, hc, List.cons_append, symbols_cons]
    rw [encodeChars] at hn ih
    rw [hn, ih]
    rfl

end Utf8

/-! ### Texts -/

theorem encodeChars_nil : encodeChars [] = [] := rfl

theorem encodeChars_cons (c : Char) (cs : List Char) :
    encodeChars (c :: cs) = String.utf8EncodeChar c ++ encodeChars cs := rfl

theorem encodeChars_append (cs ds : List Char) :
    encodeChars (cs ++ ds) = encodeChars cs ++ encodeChars ds := by
  simp [encodeChars]

/-- A text is read back from its octets. -/
theorem decodeChars?_encodeChars (cs : List Char) : decodeChars? (encodeChars cs) = some cs := by
  rw [decodeChars?, Utf8.symbols_encodeChars]
  induction cs with
  | nil => rfl
  | cons c cs ih => simp [ih]

/-- Octets that are read as a text are the octets of this text. -/
theorem eq_encodeChars_of_decodeChars? {bs : Bytes} {cs : List Char} (h : decodeChars? bs = some cs) :
    bs = encodeChars cs := by
  induction hn : bs.length using Nat.strongRecOn generalizing bs cs with
  | ind n ih =>
    subst hn
    cases bs with
    | nil =>
      rw [decodeChars?, Utf8.symbols_nil] at h
      obtain rfl : [] = cs := by simpa using h
      rfl
    | cons a rest =>
      have hlen := Utf8.length_next_le a rest
      rcases hnext : Utf8.next a rest with ⟨ch, rest'⟩
      rw [hnext] at hlen
      rw [decodeChars?, Utf8.symbols_cons, hnext, List.mapM_cons] at h
      cases ch with
      | none => cases h
      | some ch =>
        obtain ⟨ds, hds, rfl⟩ : ∃ ds, (Utf8.symbols rest').mapM id = some ds ∧ ch :: ds = cs := by
          simpa [Option.bind_eq_some_iff] using h
        rw [Utf8.eq_of_next hnext, encodeChars_cons, ← ih _ (Nat.lt_succ_of_le hlen) hds rfl]

/-- **Octets are read as a text just if they are its octets.** -/
theorem decodeChars?_eq_some_iff {bs : Bytes} {cs : List Char} :
    decodeChars? bs = some cs ↔ bs = encodeChars cs :=
  ⟨eq_encodeChars_of_decodeChars?, fun h => h ▸ decodeChars?_encodeChars cs⟩

/-- A text is read back from its octets by the lenient reader too. -/
theorem decodeCharsLossy_encodeChars (cs : List Char) : decodeCharsLossy (encodeChars cs) = cs := by
  rw [decodeCharsLossy, Utf8.symbols_encodeChars, List.map_map]
  exact List.map_id cs

/-! ### ASCII among the octets -/

/-- A character is one octet below 128, or octets from 128 on. -/
theorem utf8EncodeChar_cases (c : Char) :
    (c.toNat < 0x80 ∧ String.utf8EncodeChar c = [UInt8.ofNat c.toNat]) ∨
      ∀ b ∈ String.utf8EncodeChar c, 0x80 ≤ b.toNat := by
  unfold String.utf8EncodeChar
  simp only
  split
  · next h => exact .inl ⟨Nat.lt_succ_of_le h, rfl⟩
  · right
    split
    · simp only [List.forall_mem_cons, UInt8.toNat_ofNat', List.not_mem_nil, false_implies,
        implies_true, and_true]
      omega
    · split <;> simp only [List.forall_mem_cons, UInt8.toNat_ofNat', List.not_mem_nil,
        false_implies, implies_true, and_true] <;> omega

theorem utf8EncodeChar_of_ascii {c : Char} (h : c.toNat < 0x80) :
    String.utf8EncodeChar c = [UInt8.ofNat c.toNat] := by
  unfold String.utf8EncodeChar
  exact if_pos (Nat.le_of_lt_succ h)

/-- ASCII text at the start of the octets is at the start of the text. -/
theorem prefix_of_encodeChars : ∀ {t cs : List Char}, (∀ c ∈ t, c.toNat < 0x80) →
    encodeChars t <+: encodeChars cs → t <+: cs
  | [], _, _, _ => List.nil_prefix
  | a :: t, [], ht, h => by
    rw [encodeChars_cons, utf8EncodeChar_of_ascii (ht a List.mem_cons_self)] at h
    simp [encodeChars_nil] at h
  | a :: t, c :: cs, ht, h => by
    have ha := ht a List.mem_cons_self
    rw [encodeChars_cons, utf8EncodeChar_of_ascii ha, encodeChars_cons] at h
    rcases utf8EncodeChar_cases c with ⟨hc, he⟩ | hb
    · rw [he, List.singleton_append, List.singleton_append, List.cons_prefix_cons] at h
      have hac : a = c := by
        have := congrArg UInt8.toNat h.1
        rw [Utf8.toNat_ofNat_of_lt (by omega), Utf8.toNat_ofNat_of_lt (by omega)] at this
        exact Char.toNat_inj.1 this
      rw [hac, List.cons_prefix_cons]
      exact ⟨rfl, prefix_of_encodeChars (fun x hx => ht x (List.mem_cons_of_mem _ hx)) h.2⟩
    · -- the first octet of `a` would be one of `c`
      exfalso
      obtain ⟨b, tail, hbt⟩ := List.exists_cons_of_ne_nil (String.utf8EncodeChar_ne_nil (c := c))
      rw [hbt, List.singleton_append, List.cons_append, List.cons_prefix_cons] at h
      have hge := hb b (hbt ▸ List.mem_cons_self)
      rw [← h.1, Utf8.toNat_ofNat_of_lt (by omega)] at hge
      omega

/-- Octets that do not contain the first one of a pattern can be skipped in the search for it. -/
theorem infix_of_infix_append {p : UInt8} {ps : Bytes} : ∀ {xs ys : Bytes}, p ∉ xs →
    p :: ps <:+: xs ++ ys → p :: ps <:+: ys
  | [], _, _, h => h
  | x :: xs, ys, hp, h => by
    rw [List.cons_append, List.infix_cons_iff] at h
    rcases h with h | h
    · exact absurd (List.cons_prefix_cons.1 h).1 (fun he => hp (he ▸ List.mem_cons_self))
    · exact infix_of_infix_append (fun hx => hp (List.mem_cons_of_mem _ hx)) h

/-- **ASCII text among the octets of a text is in the text.** -/
theorem infix_of_encodeChars {t cs : List Char} (ht : ∀ c ∈ t, c.toNat < 0x80)
    (h : encodeChars t <:+: encodeChars cs) : t <:+: cs := by
  cases t with
  | nil => exact List.nil_infix
  | cons a t =>
    have ha := ht a List.mem_cons_self
    induction cs with
    | nil =>
      rw [encodeChars_cons, utf8EncodeChar_of_ascii ha] at h
      simp [encodeChars_nil] at h
    | cons c cs ih =>
      rcases utf8EncodeChar_cases c with ⟨hc, he⟩ | hb
      · rw [encodeChars_cons c, he, List.singleton_append, List.infix_cons_iff] at h
        rcases h with h | h
        · refine (prefix_of_encodeChars ht ?_).isInfix
          rwa [encodeChars_cons c, he]
        · exact (ih h).trans (List.suffix_cons _ _).isInfix
      · rw [encodeChars_cons c, encodeChars_cons a, utf8EncodeChar_of_ascii ha,
          List.singleton_append] at h
        have hp : UInt8.ofNat a.toNat ∉ String.utf8EncodeChar c := by
          intro hm
          have := hb _ hm
          rw [Utf8.toNat_ofNat_of_lt (by omega)] at this
          omega
        have h' := infix_of_infix_append hp h
        refine (ih ?_).trans (List.suffix_cons _ _).isInfix
        rwa [encodeChars_cons a, utf8EncodeChar_of_ascii ha]

end Raop.Text
