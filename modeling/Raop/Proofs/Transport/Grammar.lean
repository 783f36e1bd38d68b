/-
# The grammar of a transport specification

What a specification looks like, told by how its text is put together and not
by how it is read. A text is tokens with a semicolon between them, white space
around each of them and around the whole, and semicolons behind them
(`Transport.TokensOf`). The first token is the name of the transport, and each
of the others begins with a key, which is all of it or goes up to an equals
sign (`Transport.Keyed`). The reader accepts such texts and no others, its
options are the tokens (`Transport.parse_eq_ok_iff`), and what it read is read
again from the text that is written for it (`Transport.reads_and_rereads`).

Key definitions: `Transport.TokensOf`, `Transport.Keyed`.
Key theorems: `Transport.tokens_eq_iff`, `TransportOption.parse_eq_ok_iff`,
`Transport.parse_eq_ok_iff`, `Transport.reads_and_rereads`.
-/
import Raop.Proofs.Lists
import Raop.Proofs.Text.Blank
import Raop.Proofs.Transport.RoundTrip

namespace Raop

open Text

namespace TransportOption

/-- What reads as an option is its text, and begins with a name. -/
theorem parse_eq_ok_iff {token : List Char} {o : TransportOption} :
    parse token = .ok o ↔ o.render.toList = token ∧ isName o.key.toList = true := by
  constructor
  · exact render_of_parse
  · rintro ⟨rfl, hname⟩
    exact parse_render hname

end TransportOption

namespace Transport

/-! ### Tokens -/

/-- The tokens of a text: there is a semicolon between them, white space around each of them and around
the whole, and semicolons at the end are left out. -/
def TokensOf (text : List Char) (tokens : List (List Char)) : Prop :=
  ∃ parts n, Padded text ([';'].intercalate parts ++ List.replicate n ';') ∧
    ([';'].intercalate parts).getLast? ≠ some ';' ∧ parts ≠ [] ∧ (∀ part ∈ parts, ';' ∉ part) ∧
    List.Forall₂ Padded parts tokens

/-- A token of an option: a key of ASCII letters, digits, `_` and `-`, and behind it nothing, or an
equals sign and what follows it. -/
def Keyed (token : List Char) : Prop :=
  ∃ key rest, token = key ++ rest ∧ key ≠ [] ∧
    (∀ c ∈ key, c.isAlphanum = true ∨ c = '_' ∨ c = '-') ∧ (rest = [] ∨ rest.head? = some '=')

/-- A text is cut into the tokens that it is put together from. -/
theorem tokens_eq_iff {text : List Char} {tokens : List (List Char)} :
    (split ';' (trimEndOf ';' (trimChars text))).map trimChars = tokens ↔ TokensOf text tokens := by
  constructor
  · rintro rfl
    obtain ⟨n, htext, hlast⟩ := trimEndOf_eq_iff.1 (rfl : trimEndOf ';' (trimChars text) = _)
    have hne := split_ne_nil ';' (trimEndOf ';' (trimChars text))
    obtain ⟨hparts, hsemi⟩ := (split_eq_iff hne).1 rfl
    rw [hparts] at htext hlast
    exact ⟨_, n, trimChars_eq_iff.1 htext, hlast, hne, hsemi, (map_eq_iff_forall₂ trimChars_eq_iff).1 rfl⟩
  · rintro ⟨parts, n, htext, hlast, hne, hsemi, htokens⟩
    have hend : trimEndOf ';' (trimChars text) = [';'].intercalate parts :=
      trimEndOf_eq_iff.2 ⟨n, trimChars_eq_iff.2 htext, hlast⟩
    rw [hend, (split_eq_iff hne).2 ⟨rfl, hsemi⟩]
    exact (map_eq_iff_forall₂ trimChars_eq_iff).2 htokens

/-! ### Options -/

theorem isName_iff {key : List Char} :
    isName key = true ↔ key ≠ [] ∧ ∀ c ∈ key, c.isAlphanum = true ∨ c = '_' ∨ c = '-' := by
  simp [isName, isNameChar, or_assoc]

/-- The token of an option is the text of an option with a name for a key. -/
theorem keyed_iff {token : List Char} :
    Keyed token ↔ ∃ o : TransportOption, o.render.toList = token ∧ isName o.key.toList = true := by
  constructor
  · rintro ⟨key, rest, rfl, hne, hkey, hrest⟩
    have hname : isName (String.ofList key).toList = true := by
      rw [String.toList_ofList]
      exact isName_iff.2 ⟨hne, hkey⟩
    rcases hrest with rfl | hrest
    · exact ⟨{ key := .ofList key, value := none }, by simp [TransportOption.toList_render_none], hname⟩
    · obtain ⟨value, rfl⟩ := List.head?_eq_some_iff.1 hrest
      exact ⟨{ key := .ofList key, value := some (.ofList value) },
        by simp [TransportOption.toList_render_some], hname⟩
  · rintro ⟨⟨key, value⟩, rfl, hname⟩
    obtain ⟨hne, hkey⟩ := isName_iff.1 hname
    cases value with
    | none =>
      rw [TransportOption.toList_render_none]
      exact ⟨key.toList, [], by simp, hne, hkey, .inl rfl⟩
    | some value =>
      rw [TransportOption.toList_render_some]
      exact ⟨key.toList, '=' :: value.toList, rfl, hne, hkey, .inr rfl⟩

/-- The options of tokens in order. -/
theorem exists_options {tokens : List (List Char)} (h : ∀ token ∈ tokens, Keyed token) :
    ∃ os : List TransportOption, os.map (fun o => o.render.toList) = tokens ∧
      ∀ o ∈ os, isName o.key.toList = true := by
  induction tokens with
  | nil => exact ⟨[], rfl, by simp⟩
  | cons token tokens ih =>
    obtain ⟨o, ho, hname⟩ := keyed_iff.1 (h token List.mem_cons_self)
    obtain ⟨os, hos, hnames⟩ := ih fun other hother => h other (List.mem_cons_of_mem _ hother)
    exact ⟨o :: os, by rw [List.map_cons, ho, hos], List.forall_mem_cons.2 ⟨hname, hnames⟩⟩

/-- Options are read from parts that are their texts when they are trimmed. -/
theorem parseOptions_eq_ok_iff {parts : List (List Char)} {os : List TransportOption} :
    parseOptions parts = .ok os ↔ parts.map trimChars = os.map (fun o => o.render.toList) ∧
      ∀ o ∈ os, isName o.key.toList = true := by
  induction parts generalizing os with
  | nil =>
    cases os with
    | nil => simp [parseOptions]
    | cons o os => simp [parseOptions]
  | cons part parts ih =>
    constructor
    · intro h
      unfold parseOptions at h
      split at h
      · cases h
      · next o ho =>
        obtain ⟨hrender, hname⟩ := TransportOption.parse_eq_ok_iff.1 ho
        split at h
        · cases h
        · next os' hos =>
          obtain rfl := Except.ok.inj h
          obtain ⟨hall, hnames⟩ := ih.1 hos
          exact ⟨by rw [List.map_cons, List.map_cons, hrender, hall],
            List.forall_mem_cons.2 ⟨hname, hnames⟩⟩
    · rintro ⟨hall, hnames⟩
      cases os with
      | nil => simp at hall
      | cons o os =>
        rw [List.map_cons, List.map_cons, List.cons.injEq] at hall
        obtain ⟨hname, hnames⟩ := List.forall_mem_cons.1 hnames
        have ho := TransportOption.parse_eq_ok_iff.2 ⟨hall.1.symm, hname⟩
        have hos := ih.2 ⟨hall.2, hnames⟩
        simp only [parseOptions, ho, hos]

/-! ### Specifications -/

/-- What reads as a specification is the name of the transport and the texts of the options. -/
theorem parse_eq_ok_iff {value : String} {t : Transport} :
    parse value = .ok t ↔
      TokensOf value.toList (protocol.toList :: t.options.map fun o => o.render.toList) ∧
        ∀ o ∈ t.options, isName o.key.toList = true := by
  obtain ⟨os⟩ := t
  rw [← tokens_eq_iff, parse]
  obtain ⟨name, parts, hparts⟩ :=
    List.exists_cons_of_ne_nil (split_ne_nil ';' (trimEndOf ';' (trimChars value.toList)))
  simp only [hparts, List.map_cons, List.cons.injEq, and_assoc, ← parseOptions_eq_ok_iff]
  constructor
  · intro h
    split at h
    · next hname =>
      refine ⟨by rw [← hname, String.toList_ofList], ?_⟩
      cases hos : parseOptions parts with
      | error e => simp [hos, Except.map] at h
      | ok os' =>
        rw [hos] at h
        obtain rfl := congrArg options (Except.ok.inj h)
        rfl
    · cases h
  · rintro ⟨hname, hos⟩
    rw [if_pos (by rw [hname, String.ofList_toList]), hos]
    rfl

/-- **The texts that are read, and that they are read again.** A text reads as a specification just if
its tokens are the name of the transport and tokens of options, and what was read from it is what is
read from the text that is written for it. -/
theorem reads_and_rereads (value : String) :
    ((∃ t, parse value = .ok t) ↔ ∃ tokens, TokensOf value.toList (protocol.toList :: tokens) ∧
      ∀ token ∈ tokens, Keyed token) ∧
    ∀ t, parse value = .ok t → parse t.render = .ok t := by
  refine ⟨⟨?_, ?_⟩, fun t h => parse_render (readable_of_parse h)⟩
  · rintro ⟨t, h⟩
    obtain ⟨htokens, hnames⟩ := parse_eq_ok_iff.1 h
    refine ⟨_, htokens, fun token htoken => ?_⟩
    obtain ⟨o, ho, rfl⟩ := List.mem_map.1 htoken
    exact keyed_iff.2 ⟨o, rfl, hnames o ho⟩
  · rintro ⟨tokens, htokens, hkeyed⟩
    obtain ⟨os, rfl, hnames⟩ := exists_options hkeyed
    exact ⟨⟨os⟩, parse_eq_ok_iff.2 ⟨htokens, hnames⟩⟩

/-- White space and semicolons at every place, a value that holds an equals sign, one that is empty and
one that begins with white space. -/
theorem reads_and_rereads_padded :
    let text := " RTP/AVP/UDP\t; unicast;x-1= a=b ;y_2=;;\r\n"
    let t : Transport := ⟨[⟨"unicast", none⟩, ⟨"x-1", some " a=b"⟩, ⟨"y_2", some ""⟩]⟩
    parse text = .ok t ∧ parse t.render = .ok t ∧
      ∃ tokens, TokensOf text.toList (protocol.toList :: tokens) ∧ ∀ token ∈ tokens, Keyed token := by
  intro text t
  have hreads : parse text = .ok t := by decide
  have hall := reads_and_rereads text
  exact ⟨hreads, hall.2 t hreads, hall.1.1 ⟨t, hreads⟩⟩

end Transport
end Raop
