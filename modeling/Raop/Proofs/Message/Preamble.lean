/-
# What a head says

A head is the octets of lines with a line end between them. The first one is
the request line, three words; each of the others that is not empty is a field,
a name and a value around its first colon (`Headers.Says`). Of the fields that
have one name the last one counts, so the length of the body is what the last
Content-Length says, or nothing where there is none (`Announces`). Heads that
are put together so (`RequestReader.Preamble`), with a length within the limit,
are read, and no others (`RequestReader.readPreamble_eq_ok_iff_preamble`).

Key definitions: `Headers.Says`, `Announces`, `RequestReader.RequestLine`,
`RequestReader.Preamble`.
Key theorems: `Headers.ofLines_eq_ok_iff`, `Headers.get?_ofList`,
`RequestReader.bodyLength_ofList_eq_ok_iff`, `RequestReader.readPreamble_eq_ok_iff_preamble`.
-/
import Raop.Proofs.Message.Head
import Raop.Proofs.Message.HeaderLog
import Raop.Proofs.Text.Numeral

namespace Raop

open Text

namespace Headers

/-! ### Lines of fields -/

/-- A line that says a field: its name and its value around the first colon, with white space around
each of them. -/
def Says (line : List Char) (e : String × String) : Prop :=
  ∃ name value, line = name ++ ':' :: value ∧ ':' ∉ name ∧
    Padded name e.1.toList ∧ Padded value e.2.toList

theorem fieldOfLine?_eq_some_iff {line : List Char} {e : String × String} :
    fieldOfLine? line = some e ↔ Says line e := by
  rw [fieldOfLine?, Option.map_eq_some_iff]
  constructor
  · rintro ⟨⟨name, value⟩, hcut, rfl⟩
    obtain ⟨rfl, hcolon⟩ := splitAt?_eq_some_iff.1 hcut
    exact ⟨name, value, rfl, hcolon, trimChars_eq_iff.1 (String.toList_ofList).symm,
      trimChars_eq_iff.1 (String.toList_ofList).symm⟩
  · rintro ⟨name, value, rfl, hcolon, hname, hvalue⟩
    refine ⟨(name, value), splitAt?_append value hcolon, ?_⟩
    simp only [trimChars_eq_iff.2 hname, trimChars_eq_iff.2 hvalue, String.ofList_toList]

/-- What a line says is trimmed. -/
theorem Says.trim_value {line : List Char} {e : String × String} (h : Says line e) :
    trimChars e.2.toList = e.2.toList := by
  obtain ⟨-, value, -, -, -, hvalue⟩ := h
  rw [← trimChars_eq_iff.2 hvalue, trimChars_trimChars]

theorem trimmed_of_lines {lines : List (List Char)} {fields : List (String × String)}
    (h : List.Forall₂ Says lines fields) : ∀ f ∈ fields, trimChars f.2.toList = f.2.toList := by
  induction h with
  | nil => simp
  | cons hsaid _ ih => exact List.forall_mem_cons.2 ⟨hsaid.trim_value, ih⟩

theorem fieldsOf?_eq_some_iff {lines : List (List Char)} {fields : List (String × String)} :
    fieldsOf? lines = some fields ↔ List.Forall₂ Says (lines.filter (· ≠ [])) fields := by
  rw [fieldsOf?, mapM_eq_some_iff, map_eq_iff_forall₂ Iff.rfl, List.forall₂_map_right_iff]
  simp only [fieldOfLine?_eq_some_iff]

/-- Lines are read if all that are not empty say fields, and the fields are stored in order. -/
theorem ofLines_eq_ok_iff {lines : List (List Char)} {h : Headers} :
    ofLines lines = .ok h ↔
      ∃ fields, List.Forall₂ Says (lines.filter (· ≠ [])) fields ∧ h = ofList fields := by
  have hread : (ofLines lines).toOption = (fieldsOf? lines).map ofList := addLines_eq empty lines
  have hok : ofLines lines = .ok h ↔ (ofLines lines).toOption = some h := by
    cases ofLines lines <;> simp [Except.toOption]
  rw [hok, hread, Option.map_eq_some_iff]
  simp only [fieldsOf?_eq_some_iff, @eq_comm _ h]

/-- The spelling of a name makes no difference. -/
theorem get?_congr {a b : String} (h : Headers) (hname : foldCase a = foldCase b) :
    h.get? a = h.get? b := by
  simp only [get?, sameName, hname]

/-- Of fields that are stored one after the other, the last one of a name is found. -/
theorem get?_ofList (name : String) (fields : List (String × String)) :
    (ofList fields).get? name =
      (fields.filter fun f => sameName f.1 name).getLast?.map (·.2) := by
  induction fields using List.reverseRecOn with
  | nil => rfl
  | append_singleton fields f ih =>
    have hstore : ofList (fields ++ [f]) = (ofList fields).insert f.1 f.2 := List.foldl_concat ..
    rw [hstore, getLast?_filter_concat]
    by_cases hname : sameName f.1 name = true
    · rw [if_pos hname, ← get?_congr _ (sameName_iff.1 hname), get?_insert_self]
      rfl
    · rw [if_neg hname, get?_insert_of_ne fun heq => hname (sameName_iff.2 heq), ih]

end Headers

/-! ### The length of the body -/

/-- A field is called Content-Length, in any case. -/
def IsLength (field : String × String) : Prop := foldCase field.1 = foldCase "Content-Length"

/-- The length that fields announce for a body: what the last of those that are called Content-Length
says, and nothing where there is none. -/
inductive Announces (fields : List (String × String)) : Nat → Prop
  | silent : (∀ f ∈ fields, ¬ IsLength f) → Announces fields 0
  | last {front back : List (String × String)} {f : String × String} {n : Nat} :
    fields = front ++ f :: back → IsLength f → (∀ g ∈ back, ¬ IsLength g) → Numeral f.2.toList n →
      Announces fields n

namespace RequestReader

theorem bodyLength_eq_ok_iff {h : Headers} {n : Nat} :
    bodyLength h = .ok n ↔ n ≤ maxBody ∧ (h.get? "Content-Length" = none ∧ n = 0 ∨
      ∃ value, h.get? "Content-Length" = some value ∧ Numeral (trimChars value.toList) n) := by
  have hmax : maxBody < 18446744073709551616 := by decide
  unfold bodyLength
  cases h.get? "Content-Length" with
  | none =>
    simp only [Except.ok.injEq, true_and, reduceCtorEq, false_and, exists_false, or_false]
    exact ⟨fun h => ⟨h ▸ Nat.zero_le _, h.symm⟩, fun h => h.2.symm⟩
  | some value =>
    simp only [reduceCtorEq, false_and, false_or, Option.some.injEq, exists_eq_left']
    constructor
    · intro h
      split at h
      · cases h
      · next m hm =>
        split at h
        · cases h
        · next hle =>
          cases h
          exact ⟨Nat.le_of_not_lt hle, (readBelow?_eq_some_iff.1 hm).1⟩
    · rintro ⟨hle, hn⟩
      have hm : readSize? (trimChars value.toList) = some n :=
        readBelow?_eq_some_iff.2 ⟨hn, Nat.lt_of_le_of_lt hle hmax⟩
      simp only [hm]
      rw [if_neg (Nat.not_lt.2 hle)]

/-- The length of a body is what its fields announce, if that is within the limit. -/
theorem bodyLength_ofList_eq_ok_iff {fields : List (String × String)} {n : Nat}
    (trimmed : ∀ f ∈ fields, trimChars f.2.toList = f.2.toList) :
    bodyLength (Headers.ofList fields) = .ok n ↔ Announces fields n ∧ n ≤ maxBody := by
  rw [bodyLength_eq_ok_iff, Headers.get?_ofList, and_comm]
  refine and_congr_left fun _ => ?_
  simp only [Option.map_eq_none_iff, List.getLast?_eq_none_iff, List.filter_eq_nil_iff, Headers.sameName_iff,
    Option.map_eq_some_iff, getLast?_filter_eq_some_iff, ← Bool.not_eq_true]
  constructor
  · rintro (⟨hnone, rfl⟩ | ⟨_, ⟨f, ⟨front, back, hfields, hname, hback⟩, rfl⟩, hn⟩)
    · exact .silent hnone
    · have hmem : f ∈ fields := by simp [hfields]
      exact .last hfields hname hback (trimmed f hmem ▸ hn)
  · rintro (hnone | ⟨hfields, hname, hback, hn⟩)
    · exact .inl ⟨hnone, rfl⟩
    · refine .inr ⟨_, ⟨_, ⟨_, _, hfields, hname, hback⟩, rfl⟩, ?_⟩
      rwa [trimmed _ (by simp [hfields])]

/-! ### Heads -/

/-- A request line: three words, of which the first is a method, the second the target, and the third
begins with the name of the protocol. -/
def RequestLine (line : List Char) (method : Method) (uri : String) : Prop :=
  ∃ token protocol, WordsOf line [token, uri.toList, protocol] ∧
    Method.ofToken? (String.ofList token) = some method ∧ "RTSP/".toList <+: protocol

theorem readRequestLine_eq_ok_iff {line : List Char} {method : Method} {uri : String} :
    readRequestLine line = .ok (method, uri) ↔ RequestLine line method uri := by
  unfold readRequestLine
  constructor
  · intro h
    split at h
    · next token target protocol hwords =>
      split at h
      · cases h
      · next hmethod =>
        split at h
        · next hprotocol =>
          cases h
          refine ⟨token, protocol, ?_, hmethod, List.isPrefixOf_iff_prefix.1 hprotocol⟩
          rw [String.toList_ofList]
          exact wordsChars_eq_iff.1 hwords
        · cases h
    · cases h
  · rintro ⟨token, protocol, hwords, hmethod, hprotocol⟩
    simp only [wordsChars_eq_iff.2 hwords, hmethod]
    rw [if_pos (List.isPrefixOf_iff_prefix.2 hprotocol), String.ofList_toList]

/-- A head is its request line and its header lines. -/
theorem readHead_eq_ok_iff {head : List Char} {request : Request} :
    readHead head = .ok request ↔
      ∃ line lines, splitCrlf head = line :: lines ∧
        readRequestLine line = .ok (request.method, request.uri) ∧
        Headers.ofLines lines = .ok request.headers ∧ request.body = [] := by
  unfold readHead
  constructor
  · intro h
    split at h
    · cases h
    · next line lines hs =>
      split at h
      · cases h
      · next method uri hl =>
        split at h
        · cases h
        · next headers ho =>
          cases h
          exact ⟨line, lines, hs, hl, ho, rfl⟩
  · rintro ⟨line, lines, hs, hl, ho, hb⟩
    simp only [hs, hl, ho, ← hb]

/-- A preamble is a well-formed text, a head, and a length that is admitted. -/
theorem readPreamble_eq_ok_iff {head : Bytes} {request : Request} {n : Nat} :
    readPreamble head = .ok (request, n) ↔
      ∃ text, decodeChars? head = some text ∧ readHead text = .ok request ∧
        bodyLength request.headers = .ok n := by
  unfold readPreamble
  constructor
  · intro h
    split at h
    · cases h
    · next text ht =>
      split at h
      · cases h
      · next p hh =>
        split at h
        · cases h
        · next k hk =>
          cases h
          exact ⟨text, ht, hh, hk⟩
  · rintro ⟨text, ht, hh, hk⟩
    simp only [ht, hh, hk]

/-- The head of a request, and the length of the body that it announces. -/
def Preamble (head : Bytes) (request : Request) (n : Nat) : Prop :=
  ∃ line lines fields, head = encodeChars (['\r', '\n'].intercalate (line :: lines)) ∧
    (∀ l ∈ line :: lines, OneLine l) ∧ RequestLine line request.method request.uri ∧
    List.Forall₂ Headers.Says (lines.filter (· ≠ [])) fields ∧
    request.headers = Headers.ofList fields ∧ Announces fields n

/-- A head is read just if it is put together as heads are, and its length is within the limit. -/
theorem readPreamble_eq_ok_iff_preamble {head : Bytes} {request : Request} {n : Nat} :
    readPreamble head = .ok (request, n) ↔
      Preamble head request n ∧ n ≤ maxBody ∧ request.body = [] := by
  simp only [readPreamble_eq_ok_iff, decodeChars?_eq_some_iff, readHead_eq_ok_iff,
    readRequestLine_eq_ok_iff, Headers.ofLines_eq_ok_iff, splitCrlf_eq_iff (List.cons_ne_nil _ _)]
  constructor
  · rintro ⟨text, rfl, ⟨line, lines, ⟨rfl, hlines⟩, hfirst, ⟨fields, hsaid, hheaders⟩, hbody⟩, hn⟩
    rw [hheaders, bodyLength_ofList_eq_ok_iff (Headers.trimmed_of_lines hsaid)] at hn
    exact ⟨⟨line, lines, fields, rfl, hlines, hfirst, hsaid, hheaders, hn.1⟩, hn.2, hbody⟩
  · rintro ⟨⟨line, lines, fields, rfl, hlines, hfirst, hsaid, hheaders, hn⟩, hle, hbody⟩
    refine ⟨_, rfl, ⟨line, lines, ⟨rfl, hlines⟩, hfirst, ⟨fields, hsaid, hheaders⟩, hbody⟩, ?_⟩
    rw [hheaders, bodyLength_ofList_eq_ok_iff (Headers.trimmed_of_lines hsaid)]
    exact ⟨hn, hle⟩

end RequestReader

end Raop
