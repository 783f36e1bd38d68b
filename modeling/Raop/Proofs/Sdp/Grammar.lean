/-
# The grammar of a stream description

What a description looks like, told by how its text is put together and not by
how it is read. A body is lines with a line feed between them, carriage returns
at their ends and blank lines behind them (`LinesOf`). A line says one thing
(`Says`): the format index of the audio, that of the lossless format, a format
with its options, or nothing that the choice of the format depends on; the
constructors are the kinds of lines that there are. The readers of lines accept
what the grammar has and nothing else, and every body falls into lines in one
way (`rawLines_eq_iff`, `said?_eq_some_iff`).

Key definitions: `Sdp.LinesOf`, `Sdp.Index`, `Sdp.Media`, `Sdp.Attribute`, `Sdp.Rtpmap`,
`Sdp.Fmtp`, `Sdp.Entry`, `Sdp.Says`, `Sdp.said?`.
Key theorems: `SdpLine.rawLines_eq_iff`, `SdpLine.media_eq_ok_iff`,
`SdpLine.splitAttribute_eq_ok_iff`, `SdpLine.rtpmap_eq_ok_iff`, `SdpLine.fmtp_eq_ok_iff`,
`Sdp.said?_eq_some_iff`.
-/
import Raop.Proofs.Lists
import Raop.Proofs.Text.Numeral
import Raop.Proofs.Text.Split
import Raop.Sdp.Stream

namespace Raop

open Text

namespace Sdp

/-! ### Lines -/

/-- A line as it stands in a body: with any number of carriage returns behind it. -/
def Ended (raw line : List Char) : Prop :=
  ∃ n, raw = line ++ List.replicate n '\r' ∧ line.getLast? ≠ some '\r'

/-- The lines of a body: there is a line feed between them, and the blank lines at the end are left
out. -/
def LinesOf (body : List Char) (lines : List (List Char)) : Prop :=
  ∃ raw blank, body = ['\n'].intercalate (raw ++ blank) ∧ (∀ l ∈ raw ++ blank, '\n' ∉ l) ∧
    List.Forall₂ Ended raw lines ∧ (∀ l ∈ blank, Ended l []) ∧ lines.getLast? ≠ some []

/-! ### Values -/

/-- A format index: decimal digits, with any zeros in front, of a number of 32 bits. -/
structure Index (digits : List Char) (n : UInt32) : Prop where
  nonempty : digits ≠ []
  all_digits : ∀ c ∈ digits, c.isDigit = true
  value : Nat.ofDigitChars 10 digits 0 = n.toNat

/-- A media line: `audio`, a port, `RTP/AVP` and a format index, with one space between them. -/
def Media (value : List Char) (n : UInt32) : Prop :=
  ∃ port digits, value = "audio ".toList ++ (port ++ ' ' :: ("RTP/AVP ".toList ++ digits)) ∧
    port ≠ [] ∧ ' ' ∉ port ∧ Index digits n

/-- An attribute: a name, which goes on as long as there are name characters, and a value with or
without a colon in front. -/
def Attribute (text : List Char) (name : String) (value : List Char) : Prop :=
  ∃ tail, text = name.toList ++ tail ∧ name.toList ≠ [] ∧
    (∀ c ∈ name.toList, isNameChar c = true) ∧ (∀ c ∈ tail.head?, isNameChar c = false) ∧
    (tail = ':' :: value ∨ tail = value ∧ value.head? ≠ some ':')

/-- The encoding of a format: its index, a space and a name. -/
def Rtpmap (value : List Char) (n : UInt32) (encoding : List Char) : Prop :=
  ∃ digits, value = digits ++ ' ' :: encoding ∧ Index digits n

/-- The options of a format: words, of which the first is its index. -/
def Fmtp (value : List Char) (n : UInt32) (options : List String) : Prop :=
  ∃ digits, WordsOf value (digits :: options.map String.toList) ∧ Index digits n

/-! ### What a line says -/

/-- What a line says about the format. -/
inductive Entry where
  /-- The format index of the audio. -/
  | media (index : UInt32)
  /-- The index of the lossless format. -/
  | lossless (index : UInt32)
  /-- The options of a format. -/
  | format (index : UInt32) (options : List String)
  | other
  deriving DecidableEq, Repr

/-- A well-formed line and what it says. -/
inductive Says : List Char → Entry → Prop
  | media {value : List Char} {n : UInt32} : Media value n → Says ('m' :: '=' :: value) (.media n)
  | lossless {text value : List Char} {n : UInt32} :
    Attribute text "rtpmap" value → Rtpmap value n "AppleLossless".toList →
      Says ('a' :: '=' :: text) (.lossless n)
  | encoding {text value encoding : List Char} {n : UInt32} :
    Attribute text "rtpmap" value → Rtpmap value n encoding →
      encoding ≠ "AppleLossless".toList → Says ('a' :: '=' :: text) .other
  | format {text value : List Char} {n : UInt32} {options : List String} :
    Attribute text "fmtp" value → Fmtp value n options → Says ('a' :: '=' :: text) (.format n options)
  | named {text value : List Char} {name : String} :
    Attribute text name value → name ≠ "rtpmap" → name ≠ "fmtp" → Says ('a' :: '=' :: text) .other
  | other {kind : Char} {value : List Char} :
    kind.isLower = true → kind ≠ 'm' → kind ≠ 'a' → Says (kind :: '=' :: value) .other

end Sdp

namespace SdpLine

/-! ### Lines are cut as the grammar has them -/

theorem trimEndOf_eq_iff {raw line : List Char} : trimEndOf '\r' raw = line ↔ Sdp.Ended raw line :=
  Text.trimEndOf_eq_iff

/-- A body has the lines that it is put together from. -/
theorem rawLines_eq_iff {body : List Char} {lines : List (List Char)} :
    rawLines body = lines ↔ Sdp.LinesOf body lines := by
  rw [rawLines, dropEndWhile_eq_iff]
  constructor
  · rintro ⟨ts, hcut, hts, hlast⟩
    obtain ⟨raw, blank, hparts, rfl, rfl⟩ := List.map_eq_append_iff.1 hcut
    obtain ⟨hbody, hfeed⟩ := (split_eq_iff (hparts ▸ split_ne_nil '\n' body)).1 hparts
    refine ⟨raw, blank, hbody, hfeed, ?_, fun l hl => ?_, fun hl => by simpa using hlast _ hl⟩
    · exact (map_eq_iff_forall₂ trimEndOf_eq_iff).1 rfl
    · exact trimEndOf_eq_iff.1 (List.isEmpty_iff.1 (hts _ (List.mem_map_of_mem hl)))
  · rintro ⟨raw, blank, hbody, hfeed, hraw, hblank, hlast⟩
    have hlines : raw.map (trimEndOf '\r') = lines := (map_eq_iff_forall₂ trimEndOf_eq_iff).2 hraw
    have hempty : ∀ t ∈ blank.map (trimEndOf '\r'), t.isEmpty = true := by
      intro t ht
      obtain ⟨l, hl, rfl⟩ := List.mem_map.1 ht
      exact List.isEmpty_iff.2 (trimEndOf_eq_iff.2 (hblank l hl))
    have hend : ∀ l ∈ lines.getLast?, l.isEmpty = false := by
      intro l hl
      rw [List.isEmpty_eq_false_iff]
      rintro rfl
      exact hlast hl
    by_cases hparts : raw ++ blank = []
    · -- the empty body is one blank line
      obtain ⟨rfl, rfl⟩ := List.append_eq_nil_iff.1 hparts
      obtain rfl : lines = [] := hlines.symm
      obtain rfl : body = [] := hbody
      exact ⟨[[]], rfl, by simp, by simp⟩
    · have hsplit := (split_eq_iff hparts).2 ⟨hbody, hfeed⟩
      exact ⟨_, by rw [hsplit, List.map_append, hlines], hempty, hend⟩

theorem parse_eq_ok_iff {text : List Char} {line : SdpLine} :
    parse text = .ok line ↔ text = line.kind :: '=' :: line.value ∧ line.kind.isLower = true := by
  unfold parse
  constructor
  · intro h
    split at h
    · split at h
      · next hk =>
        cases h
        exact ⟨rfl, hk⟩
      · cases h
    · cases h
  · rintro ⟨rfl, hk⟩
    simp only [hk, if_true]

/-! ### Values are read as the grammar has them -/

theorem index?_eq_some_iff {cs : List Char} {n : UInt32} : index? cs = some n ↔ Sdp.Index cs n := by
  unfold index?
  by_cases hall : cs.all Char.isDigit = true
  · have hdigits : ∀ c ∈ cs, c.isDigit = true := List.all_eq_true.1 hall
    rw [if_pos hall, readU32?_eq_some_iff, numeral_iff_of_isDigit hdigits]
    exact ⟨fun ⟨hne, hval⟩ => ⟨hne, hdigits, hval⟩, fun h => ⟨h.nonempty, h.value⟩⟩
  · rw [if_neg hall]
    exact ⟨fun h => (nomatch h), fun h => absurd (List.all_eq_true.2 h.all_digits) hall⟩

theorem after?_eq_some_iff {start : String} {cs rest : List Char} :
    after? start cs = some rest ↔ cs = start.toList ++ rest := by
  unfold after?
  constructor
  · intro h
    split at h
    · next hp =>
      obtain ⟨t, rfl⟩ := List.isPrefixOf_iff_prefix.1 hp
      rw [← String.length_toList, List.drop_left] at h
      rw [Option.some.inj h]
    · cases h
  · rintro rfl
    rw [if_pos (List.isPrefixOf_iff_prefix.2 (List.prefix_append _ _)), ← String.length_toList,
      List.drop_left]

/-- One piece is read behind the other. -/
theorem media_eq_ok {value : List Char} {n : UInt32} :
    media value = .ok n ↔ ∃ rest port behind digits, after? "audio " value = some rest ∧
      splitAt? ' ' rest = some (port, behind) ∧ port ≠ [] ∧
      after? "RTP/AVP " behind = some digits ∧ index? digits = some n := by
  unfold media
  constructor
  · intro h
    dsimp only at h
    split at h
    · next m hm =>
      cases h
      obtain ⟨rest, hrest, hm⟩ := Option.bind_eq_some_iff.1 hm
      obtain ⟨⟨port, behind⟩, hport, hm⟩ := Option.bind_eq_some_iff.1 hm
      by_cases hne : port = []
      · simp [hne] at hm
      · have hf : port.isEmpty = false := List.isEmpty_eq_false_iff.2 hne
        simp only [hf, Bool.false_eq_true, if_false] at hm
        obtain ⟨digits, hdigits, hm⟩ := Option.bind_eq_some_iff.1 hm
        exact ⟨rest, port, behind, digits, hrest, hport, hne, hdigits, hm⟩
    · cases h
  · rintro ⟨rest, port, behind, digits, hrest, hport, hne, hdigits, hn⟩
    simp [hrest, hport, hne, hdigits, hn]

theorem media_eq_ok_iff {value : List Char} {n : UInt32} :
    media value = .ok n ↔ Sdp.Media value n := by
  rw [media_eq_ok]
  constructor
  · rintro ⟨rest, port, behind, digits, hrest, hport, hne, hdigits, hn⟩
    obtain rfl := after?_eq_some_iff.1 hrest
    obtain ⟨rfl, hspace⟩ := splitAt?_eq_some_iff.1 hport
    obtain rfl := after?_eq_some_iff.1 hdigits
    exact ⟨port, digits, rfl, hne, hspace, index?_eq_some_iff.1 hn⟩
  · rintro ⟨port, digits, rfl, hne, hspace, hn⟩
    exact ⟨_, port, _, digits, after?_eq_some_iff.2 rfl, splitAt?_append _ hspace, hne,
      after?_eq_some_iff.2 rfl, index?_eq_some_iff.2 hn⟩

theorem splitAttribute_eq_ok_iff {text value : List Char} {name : String} :
    splitAttribute text = .ok (name, value) ↔ Sdp.Attribute text name value := by
  unfold splitAttribute
  dsimp only
  constructor
  · intro h
    split at h
    · cases h
    · next hne =>
      obtain ⟨hname, hrest⟩ := Prod.mk.inj (Except.ok.inj h)
      have htake : text.takeWhile isNameChar = name.toList := by rw [← hname, String.toList_ofList]
      obtain ⟨htext, hrun, hend⟩ := takeWhile_dropWhile_iff.1 ⟨htake, rfl⟩
      rw [htake] at hne
      refine ⟨_, htext, fun hnil => hne (List.isEmpty_iff.2 hnil), hrun, hend, ?_⟩
      -- one colon goes, if it is there
      split at hrest
      · next rest hcolon => exact .inl (by rw [hcolon, hrest])
      · next hcolon =>
        refine .inr ⟨hrest, fun hhead => ?_⟩
        obtain ⟨rest, hvalue⟩ := List.head?_eq_some_iff.1 hhead
        exact hcolon rest (hrest.trans hvalue)
  · rintro ⟨tail, htext, hne, hrun, hend, htail⟩
    obtain ⟨htake, hdrop⟩ := takeWhile_dropWhile_iff.2 ⟨htext, hrun, hend⟩
    rw [htake, hdrop, List.isEmpty_eq_false_iff.2 hne, String.ofList_toList]
    rcases htail with rfl | ⟨rfl, hhead⟩
    · rfl
    · cases tail with
      | nil => rfl
      | cons c tail =>
        have hc : c ≠ ':' := fun he => hhead (congrArg some he)
        simp [hc]

theorem rtpmap_eq_ok_iff {value encoding : List Char} {n : UInt32} :
    rtpmap value = .ok (n, encoding) ↔ Sdp.Rtpmap value n encoding := by
  have hread : rtpmap value = .ok (n, encoding) ↔
      ∃ digits, splitAt? ' ' value = some (digits, encoding) ∧ index? digits = some n := by
    unfold rtpmap
    constructor
    · intro h
      dsimp only at h
      split at h
      · next e he =>
        cases h
        obtain ⟨⟨digits, encoding'⟩, hs, he⟩ := Option.bind_eq_some_iff.1 he
        obtain ⟨m, hm, he⟩ := Option.bind_eq_some_iff.1 he
        cases he
        exact ⟨digits, hs, hm⟩
      · cases h
    · rintro ⟨digits, hs, hn⟩
      simp [hs, hn]
  rw [hread]
  constructor
  · rintro ⟨digits, hs, hn⟩
    obtain ⟨rfl, -⟩ := splitAt?_eq_some_iff.1 hs
    exact ⟨digits, rfl, index?_eq_some_iff.1 hn⟩
  · rintro ⟨digits, rfl, hn⟩
    -- digits hold no space
    have hspace : ' ' ∉ digits := fun hc => absurd (hn.all_digits _ hc) (by decide)
    exact ⟨digits, splitAt?_append _ hspace, index?_eq_some_iff.2 hn⟩

theorem fmtp_eq_ok_iff {value : List Char} {n : UInt32} {options : List String} :
    fmtp value = .ok (n, options) ↔ Sdp.Fmtp value n options := by
  unfold fmtp Sdp.Fmtp
  simp only [← wordsChars_eq_iff, ← index?_eq_some_iff]
  constructor
  · intro h
    split at h
    · cases h
    · next index words hw =>
      split at h
      · next m hm =>
        cases h
        refine ⟨index, ?_, hm⟩
        rw [hw, List.map_map]
        simp
      · cases h
  · rintro ⟨index, hw, hn⟩
    simp only [hw, hn, List.map_map]
    simp

/-- What a line says about the format, if it is well formed. -/
def said? (line : SdpLine) : Option Sdp.Entry :=
  if line.kind = 'm' then (media line.value).toOption.map .media
  else if line.kind = 'a' then
    match splitAttribute line.value with
    | .error _ => none
    | .ok (name, value) =>
      if name = "rtpmap" then
        (rtpmap value).toOption.map fun entry =>
          if entry.2 = Scan.losslessName.toList then .lossless entry.1 else .other
      else if name = "fmtp" then (fmtp value).toOption.map fun entry => .format entry.1 entry.2
      else some .other
  else some .other

theorem toOption_eq_some_iff {ε α : Type} {x : Except ε α} {a : α} :
    x.toOption = some a ↔ x = .ok a := by
  cases x <;> simp [Except.toOption]

end SdpLine

namespace Sdp

/-- What the text of a line says, if it is well formed. -/
def said? (text : List Char) : Option Entry :=
  match SdpLine.parse text with
  | .error _ => none
  | .ok line => line.said?

theorem said?_cons {kind : Char} (value : List Char) (hk : kind.isLower = true) :
    said? (kind :: '=' :: value) = SdpLine.said? ⟨kind, value⟩ := by
  have hparse : SdpLine.parse (kind :: '=' :: value) = .ok ⟨kind, value⟩ :=
    SdpLine.parse_eq_ok_iff.2 ⟨rfl, hk⟩
  rw [said?, hparse]

/-- What the line of an attribute says depends on its name. -/
theorem said?_attribute {text value : List Char} {name : String} (h : Attribute text name value) :
    SdpLine.said? ⟨'a', text⟩ =
      if name = "rtpmap" then
        (SdpLine.rtpmap value).toOption.map fun entry =>
          if entry.2 = Scan.losslessName.toList then .lossless entry.1 else .other
      else if name = "fmtp" then
        (SdpLine.fmtp value).toOption.map fun entry => .format entry.1 entry.2
      else some .other := by
  have hs := SdpLine.splitAttribute_eq_ok_iff.2 h
  have hm : ¬ (⟨'a', text⟩ : SdpLine).kind = 'm' := (by decide : ¬ 'a' = 'm')
  rw [SdpLine.said?, if_neg hm, if_pos rfl, hs]

theorem says_of_attribute {text value : List Char} {name : String} {e : Entry}
    (ha : Attribute text name value) (h : SdpLine.said? ⟨'a', text⟩ = some e) :
    Says ('a' :: '=' :: text) e := by
  rw [said?_attribute ha] at h
  by_cases hr : name = "rtpmap"
  · subst hr
    rw [if_pos rfl] at h
    obtain ⟨⟨n, encoding⟩, he, rfl⟩ := Option.map_eq_some_iff.1 h
    have hrtpmap := SdpLine.rtpmap_eq_ok_iff.1 (SdpLine.toOption_eq_some_iff.1 he)
    by_cases hl : encoding = Scan.losslessName.toList
    · subst hl
      rw [if_pos rfl]
      exact .lossless ha hrtpmap
    · rw [if_neg hl]
      exact .encoding ha hrtpmap hl
  · rw [if_neg hr] at h
    by_cases hf : name = "fmtp"
    · subst hf
      rw [if_pos rfl] at h
      obtain ⟨⟨n, options⟩, he, rfl⟩ := Option.map_eq_some_iff.1 h
      exact .format ha (SdpLine.fmtp_eq_ok_iff.1 (SdpLine.toOption_eq_some_iff.1 he))
    · rw [if_neg hf] at h
      cases h
      exact .named ha hr hf

/-- What is read of a line is what the line says. -/
theorem says_of_said? {text : List Char} {e : Entry} (h : said? text = some e) : Says text e := by
  unfold said? at h
  split at h
  · cases h
  · next line hp =>
    obtain ⟨rfl, hlower⟩ := SdpLine.parse_eq_ok_iff.1 hp
    obtain ⟨kind, value⟩ := line
    by_cases hm : kind = 'm'
    · subst hm
      rw [SdpLine.said?, if_pos rfl] at h
      obtain ⟨n, hn, rfl⟩ := Option.map_eq_some_iff.1 h
      exact .media (SdpLine.media_eq_ok_iff.1 (SdpLine.toOption_eq_some_iff.1 hn))
    · by_cases ha : kind = 'a'
      · subst ha
        cases hs : SdpLine.splitAttribute value with
        | error err => simp [SdpLine.said?, hs] at h
        | ok p => exact says_of_attribute (SdpLine.splitAttribute_eq_ok_iff.1 hs) h
      · rw [SdpLine.said?, if_neg hm, if_neg ha] at h
        cases h
        exact .other hlower hm ha

/-- **A line is read as what it says**, and is refused just in case it says nothing. -/
theorem said?_eq_some_iff {text : List Char} {e : Entry} : said? text = some e ↔ Says text e := by
  refine ⟨says_of_said?, fun h => ?_⟩
  cases h with
  | media hn =>
    have hread := SdpLine.media_eq_ok_iff.2 hn
    rw [said?_cons _ rfl, SdpLine.said?, if_pos rfl, hread]
    rfl
  | lossless ha hr =>
    have hread := SdpLine.rtpmap_eq_ok_iff.2 hr
    rw [said?_cons _ rfl, said?_attribute ha, if_pos rfl, hread]
    rfl
  | encoding ha hr hne =>
    have hread := SdpLine.rtpmap_eq_ok_iff.2 hr
    rw [said?_cons _ rfl, said?_attribute ha, if_pos rfl, hread]
    exact congrArg some (if_neg hne)
  | format ha hf =>
    have hread := SdpLine.fmtp_eq_ok_iff.2 hf
    rw [said?_cons _ rfl, said?_attribute ha, if_neg (by decide), if_pos rfl, hread]
    rfl
  | named ha hr hf => rw [said?_cons _ rfl, said?_attribute ha, if_neg hr, if_neg hf]
  | other hk hm ha => rw [said?_cons _ hk, SdpLine.said?, if_neg hm, if_neg ha]

end Sdp
end Raop
