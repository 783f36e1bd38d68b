/-
# Whether a stream is announced as encrypted

A description is searched for its key in two ways. One scans the lines, and
finds a key in an attribute of this name (`GivesKey`), with or without a colon
behind the name. The other searches the text for the start of such a line
(`Marked`), and finds it in the value of any line as well. Both come down to the
lines of the body (`StreamDescription.isEncrypted_iff`, `Proxy.announcesKey_iff`).
So they differ where a key is given without a colon and its mark stands nowhere,
and where the mark stands in the value of a line and no key is given
(`StreamDescription.isEncrypted_eq_announcesKey_iff`).

Key definitions: `Sdp.keyMark`, `Sdp.GivesKey`, `Sdp.Marked`, `Sdp.Quoted`.
Key theorems: `Sdp.infix_iff_of_linesOf`, `Sdp.marked_iff`, `Scan.isSome_foldlM`,
`StreamDescription.isEncrypted_iff`, `Proxy.announcesKey_iff`,
`StreamDescription.isEncrypted_eq_announcesKey_iff`.
-/
import Raop.Proofs.Sdp.Acceptance
import Raop.Proxy.Session

namespace Raop

/-! ### A text within lines -/

namespace Sdp

variable {body : List Char} {lines : List (List Char)} {line part : List Char}

theorem infix_iff_of_ended {raw : List Char} (h : Ended raw line) (hreturn : '\r' ∉ part)
    (hne : part ≠ []) : part <:+: raw ↔ part <:+: line := by
  obtain ⟨n, rfl, -⟩ := h
  cases n with
  | zero => simp
  | succ n =>
    have hnone : ¬ part <:+: List.replicate n '\r' := fun hpart => by
      obtain ⟨c, hc⟩ := List.exists_mem_of_ne_nil part hne
      exact hreturn (List.eq_of_mem_replicate (hpart.subset hc) ▸ hc)
    rw [List.replicate_succ, Text.infix_append_cons_iff hreturn, or_iff_left hnone]

/-- A text without line ends stands in a body if it stands in one of its lines. -/
theorem infix_iff_of_linesOf (h : LinesOf body lines) (hfeed : '\n' ∉ part) (hreturn : '\r' ∉ part)
    (hne : part ≠ []) : part <:+: body ↔ ∃ line ∈ lines, part <:+: line := by
  obtain ⟨raw, blank, rfl, -, hraw, hblank, -⟩ := h
  have hends : (∃ r ∈ raw, part <:+: r) ↔ ∃ line ∈ lines, part <:+: line := by
    clear hblank
    induction hraw with
    | nil => simp
    | cons hended _ ih =>
      rw [List.exists_mem_cons_iff, List.exists_mem_cons_iff, infix_iff_of_ended hended hreturn hne, ih]
  have hnone : ¬ ∃ r ∈ blank, part <:+: r := by
    rintro ⟨r, hr, hpart⟩
    exact hne (List.infix_nil.1 ((infix_iff_of_ended (hblank r hr) hreturn hne).1 hpart))
  rw [Text.infix_intercalate_iff hfeed hne, ← hends]
  simp only [List.mem_append, or_and_right, exists_or, or_iff_left hnone]

/-! ### Lines with a key -/

/-- The name of the attribute that the key is in. -/
def keyName : String := "rsaaeskey"

/-- What is searched for to find a key: the start of a line with a key, the colon included. -/
def keyMark : List Char := "a=rsaaeskey:".toList

/-- A line gives a key: it is an attribute of this name, with or without a colon behind the name. -/
def GivesKey (line : List Char) : Prop :=
  ∃ text value, line = 'a' :: '=' :: text ∧ Attribute text keyName value

/-- The mark of a key stands somewhere in a line. -/
def Marked (line : List Char) : Prop := keyMark <:+: line

/-- The mark of a key stands in the value of a line. -/
def Quoted (line : List Char) : Prop :=
  ∃ kind value, line = kind :: '=' :: value ∧ keyMark <:+: value

/-- A line that begins with the mark gives a key. -/
theorem givesKey_of_prefix (h : keyMark <+: line) : GivesKey line := by
  obtain ⟨value, rfl⟩ := h
  have hname : ∀ c ∈ keyName.toList, Text.isNameChar c = true :=
    List.all_eq_true.1 (by decide)
  refine ⟨keyName.toList ++ ':' :: value, value, rfl, ':' :: value, rfl, by decide, hname, ?_, .inl rfl⟩
  rintro c ⟨rfl⟩
  decide

theorem Quoted.marked (h : Quoted line) : Marked line := by
  obtain ⟨kind, value, rfl, hvalue⟩ := h
  exact hvalue.trans (List.suffix_append [kind, '='] value).isInfix

/-- Every line that says something is a letter, `=` and a value. -/
theorem Says.exists_eq {e : Entry} (h : Says line e) : ∃ kind value, line = kind :: '=' :: value := by
  cases h <;> exact ⟨_, _, rfl⟩

/-- The mark cannot begin at the second character of a line. -/
theorem marked_iff {kind : Char} {value : List Char} :
    Marked (kind :: '=' :: value) ↔ keyMark <+: kind :: '=' :: value ∨ Quoted (kind :: '=' :: value) := by
  have hsecond : ¬ keyMark <+: '=' :: value := by
    rintro ⟨rest, hrest⟩
    cases hrest
  have hquoted : Quoted (kind :: '=' :: value) ↔ keyMark <:+: value := by
    constructor
    · rintro ⟨_, _, heq, hvalue⟩
      cases heq
      exact hvalue
    · exact fun hvalue => ⟨kind, value, rfl, hvalue⟩
  rw [Marked, List.infix_cons_iff, List.infix_cons_iff, or_iff_right hsecond, hquoted]

end Sdp

/-! ### Lines that are scanned -/

namespace Scan

variable {s s' : Scan} {lines : List (List Char)}

/-- Only the attribute of this name brings a key. -/
theorem isSome_addAttribute {name : String} {value : List Char}
    (h : s.addAttribute name value = .ok s') :
    s'.wrappedKey.isSome = true ↔ name = Sdp.keyName ∨ s.wrappedKey.isSome = true := by
  rcases addAttribute_cases h with ⟨rfl, _, -, rfl⟩ | ⟨rfl, rfl⟩ | ⟨-, hkey, _, _, _, rfl⟩
  · exact (or_iff_right (by decide)).symm
  · simp [Sdp.keyName]
  · exact (or_iff_right hkey).symm

theorem isSome_add {line : SdpLine} (h : s.add line = .ok s') :
    s'.wrappedKey.isSome = true ↔
      Sdp.GivesKey (line.kind :: '=' :: line.value) ∨ s.wrappedKey.isSome = true := by
  rcases add_cases h with ⟨ha, name, value, hsplit, hadd⟩ | ⟨ha, audio, rfl⟩
  · have hgives : Sdp.GivesKey (line.kind :: '=' :: line.value) ↔ name = Sdp.keyName := by
      constructor
      · rintro ⟨text, value', heq, hattribute⟩
        obtain rfl := (List.cons.inj (List.cons.inj heq).2).2
        cases hsplit.symm.trans (SdpLine.splitAttribute_eq_ok_iff.2 hattribute)
        rfl
      · rintro rfl
        exact ⟨line.value, value, by rw [ha], SdpLine.splitAttribute_eq_ok_iff.1 hsplit⟩
    rw [hgives, isSome_addAttribute hadd]
  · have hnone : ¬ Sdp.GivesKey (line.kind :: '=' :: line.value) := by
      rintro ⟨_, _, heq, -⟩
      exact ha (List.cons.inj heq).1
    rw [or_iff_right hnone]

theorem isSome_addText {line : List Char} (h : s.addText line = .ok s') :
    s'.wrappedKey.isSome = true ↔ Sdp.GivesKey line ∨ s.wrappedKey.isSome = true := by
  unfold addText at h
  split at h
  · cases h
  · next parsed hparse =>
    rw [(SdpLine.parse_eq_ok_iff.1 hparse).1]
    exact isSome_add h

theorem isSome_foldlM (h : lines.foldlM addText s = .ok s') :
    s'.wrappedKey.isSome = true ↔ (∃ line ∈ lines, Sdp.GivesKey line) ∨ s.wrappedKey.isSome = true := by
  induction lines generalizing s with
  | nil =>
    cases h
    simp
  | cons line lines ih =>
    obtain ⟨s₁, hadd, hrest⟩ := foldlM_cons_eq_ok h
    rw [ih hrest, isSome_addText hadd, List.exists_mem_cons_iff, or_left_comm, or_assoc]

end Scan

/-! ### Both ways to look for a key -/

variable {body : String} {lines : List (List Char)}

/-- A stream that is accepted has keys if its description was found to give one. -/
theorem Scan.isSome_keys {s : Scan} {key : Option PrivateKey} {keys : Option Decryptor}
    (h : s.keys key = .ok keys) : keys.isSome = true ↔ s.wrappedKey.isSome = true := by
  unfold Scan.keys at h
  split at h
  · next hkey _ =>
    split at h
    · cases h
      simp [hkey]
    · cases h
  · next hkey _ =>
    cases h
    simp [hkey]
  · cases h

namespace StreamDescription

variable {key : Option PrivateKey} {d : StreamDescription}

theorem scan_of_parse (h : parse body key = .ok d) (hlines : Sdp.LinesOf body.toList lines) :
    ∃ s, lines.foldlM Scan.addText {} = .ok s ∧ s.keys key = .ok d.keys := by
  unfold parse at h
  split at h
  · cases h
  · next s hs =>
    rw [Scan.ofBody_eq_ok_iff, SdpLine.rawLines_eq_iff.2 hlines] at hs
    refine ⟨s, hs, ?_⟩
    split at h
    · cases h
    · cases hkeys : s.keys key with
      | error e => simp [hkeys, Except.map] at h
      | ok keys =>
        rw [hkeys] at h
        cases h
        rfl

/-- **What the scan finds**: the stream is encrypted if one of the lines gives a key. -/
theorem isEncrypted_iff (h : parse body key = .ok d) (hlines : Sdp.LinesOf body.toList lines) :
    d.isEncrypted = true ↔ ∃ line ∈ lines, Sdp.GivesKey line := by
  obtain ⟨s, hs, hkeys⟩ := scan_of_parse h hlines
  rw [isEncrypted, Scan.isSome_keys hkeys, Scan.isSome_foldlM hs]
  simp

end StreamDescription

namespace Proxy

theorem occurs_iff {text cs : List Char} : occurs text cs = true ↔ text <:+: cs := by
  induction cs with
  | nil => rw [occurs, List.isEmpty_iff, List.infix_nil]
  | cons c cs ih =>
    rw [occurs, Bool.or_eq_true, List.isPrefixOf_iff_prefix, ih, List.infix_cons_iff]

/-- **What the search finds**: the mark in one of the lines. It holds no line end. -/
theorem announcesKey_iff (hlines : Sdp.LinesOf body.toList lines) :
    announcesKey body = true ↔ ∃ line ∈ lines, Sdp.Marked line :=
  occurs_iff.trans (Sdp.infix_iff_of_linesOf hlines (by decide) (by decide) (by decide))

end Proxy

namespace StreamDescription

variable {key : Option PrivateKey} {d : StreamDescription}

/-- In a description that is accepted a mark that is no part of a value begins a line with a key. -/
theorem givesKey_or_quoted (h : parse body key = .ok d) (hlines : Sdp.LinesOf body.toList lines)
    {line : List Char} (hline : line ∈ lines) (hmarked : Sdp.Marked line) :
    Sdp.GivesKey line ∨ Sdp.Quoted line := by
  obtain ⟨s, hs, -⟩ := scan_of_parse h hlines
  obtain ⟨e, he⟩ := Scan.said_of_foldlM hs line hline
  obtain ⟨kind, value, rfl⟩ := he.exists_eq
  exact (Sdp.marked_iff.1 hmarked).imp_left Sdp.givesKey_of_prefix

/-- **Where both find the same.** A key that is given is found by the search only if its mark stands
somewhere; and a mark that stands in the value of a line is no key. -/
theorem isEncrypted_eq_announcesKey_iff (h : parse body key = .ok d)
    (hlines : Sdp.LinesOf body.toList lines) :
    d.isEncrypted = Proxy.announcesKey body ↔
      ((∃ line ∈ lines, Sdp.GivesKey line) → ∃ line ∈ lines, Sdp.Marked line) ∧
      ((∃ line ∈ lines, Sdp.Quoted line) → ∃ line ∈ lines, Sdp.GivesKey line) := by
  rw [Bool.eq_iff_iff, isEncrypted_iff h hlines, Proxy.announcesKey_iff hlines]
  constructor
  · exact fun hiff => ⟨hiff.1, fun ⟨line, hline, hquoted⟩ => hiff.2 ⟨line, hline, hquoted.marked⟩⟩
  · refine fun ⟨hfound, hmeant⟩ => ⟨hfound, fun ⟨line, hline, hmarked⟩ => ?_⟩
    rcases givesKey_or_quoted h hlines hline hmarked with hgives | hquoted
    · exact ⟨line, hline, hgives⟩
    · exact hmeant ⟨line, hline, hquoted⟩

end StreamDescription
end Raop
