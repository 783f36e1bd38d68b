/-
# Transport specifications are read back

An option that was read holds no semicolon and is trimmed, so it can stand
between semicolons (`TransportOption.Readable`). An option whose value was
changed to a number can as well. A specification of such options is written to
a text that reads as the same specification, option by option.

Key definitions: `TransportOption.Readable`, `Transport.Readable`.
Key theorems: `TransportOption.readable_of_parse`, `TransportOption.readable_withNumber`,
`Transport.readable_of_parse`, `Transport.parse_render`.
-/
import Raop.Proofs.Text.Numeral
import Raop.Proofs.Text.Split
import Raop.Transport

namespace Raop

open Text

namespace TransportOption

/-- The option can be written between semicolons: it has a name for a key, holds no semicolon, and is
trimmed. -/
structure Readable (o : TransportOption) : Prop where
  isName_key : isName o.key.toList
  no_semicolon : ';' ∉ o.render.toList
  trim_render : trimChars o.render.toList = o.render.toList

theorem toList_render_none (key : String) :
    (render { key, value := none }).toList = key.toList := rfl

theorem toList_render_some (key value : String) :
    (render { key, value := some value }).toList = key.toList ++ '=' :: value.toList := by
  simp [render]

/-- A character that names do not have is not in a name. -/
theorem not_mem_of_isName {c : Char} {cs : List Char} (hc : isNameChar c = false)
    (h : isName cs = true) : c ∉ cs := by
  intro hm
  simp only [isName, Bool.and_eq_true, List.all_eq_true] at h
  rw [h.2 c hm] at hc
  cases hc

/-- An option of a name is read back from its text. -/
theorem parse_render {o : TransportOption} (h : isName o.key.toList = true) :
    parse o.render.toList = .ok o := by
  have heq : '=' ∉ o.key.toList := not_mem_of_isName (by decide) h
  obtain ⟨key, value⟩ := o
  cases value with
  | none =>
    rw [toList_render_none, parse, splitAt?_eq_none heq]
    simp only [h, if_true, String.ofList_toList]
  | some value =>
    rw [toList_render_some, parse, splitAt?_append _ heq]
    simp only [h, if_true, String.ofList_toList]

/-- What reads as an option is the text of the option, and begins with a name. -/
theorem render_of_parse {cs : List Char} {o : TransportOption} (h : parse cs = .ok o) :
    o.render.toList = cs ∧ isName o.key.toList = true := by
  unfold parse at h
  cases hs : splitAt? '=' cs with
  | none =>
    rw [hs] at h
    simp only at h
    split at h
    · next hname =>
      obtain rfl := Except.ok.inj h
      simpa only [toList_render_none, String.toList_ofList, true_and] using hname
    · cases h
  | some parts =>
    obtain ⟨key, value⟩ := parts
    rw [hs] at h
    obtain ⟨rfl, -⟩ := splitAt?_eq_some_iff.1 hs
    simp only at h
    split at h
    · next hname =>
      obtain rfl := Except.ok.inj h
      simpa only [toList_render_some, String.toList_ofList, true_and] using hname
    · cases h

/-- What was read from a trimmed text without a semicolon can be written. -/
theorem readable_of_parse {cs : List Char} {o : TransportOption} (hc : ';' ∉ cs)
    (ht : trimChars cs = cs) (h : parse cs = .ok o) : o.Readable := by
  obtain ⟨hrender, hname⟩ := render_of_parse h
  exact ⟨hname, hrender ▸ hc, by rw [hrender, ht]⟩

/-- An option of a name with a number for its value can be written. -/
theorem readable_withNumber {o : TransportOption} (h : isName o.key.toList = true) (n : Nat) :
    (o.withValue (natText n)).Readable := by
  have hrender : (o.withValue (natText n)).render.toList =
      o.key.toList ++ '=' :: (natText n).toList := toList_render_some _ _
  have hdigit : ∀ c ∈ (natText n).toList, c.isDigit = true := fun c hm =>
    isDigit_of_mem_natChars (by simpa only [natText, String.toList_ofList] using hm)
  refine ⟨h, ?_, ?_⟩
  · rw [hrender, List.mem_append, List.mem_cons]
    rintro (hm | hm | hm)
    · exact not_mem_of_isName (by decide) h hm
    · exact absurd hm (by decide)
    · exact absurd (hdigit _ hm) (by decide)
  · rw [hrender]
    refine trimChars_of_word ⟨by simp, fun c hm => ?_⟩
    rcases List.mem_append.1 hm with hm | hm
    · exact (word_of_isName h).2 c hm
    · rcases List.mem_cons.1 hm with rfl | hm
      · decide
      · exact isBlank_of_isDigit (hdigit c hm)

theorem Readable.render_ne_nil {o : TransportOption} (h : o.Readable) : o.render.toList ≠ [] := by
  have hkey := (word_of_isName h.isName_key).1
  obtain ⟨key, value⟩ := o
  cases value with
  | none => exact hkey
  | some value => simp [toList_render_some]

/-- The text of an option ends with a character that trimming leaves. -/
theorem Readable.getLast_render {o : TransportOption} (h : o.Readable) :
    isBlank (o.render.toList.getLast h.render_ne_nil) = false := by
  obtain ⟨-, hlast⟩ := trimChars_eq_self_iff.1 h.trim_render
  exact hlast _ (List.getLast?_eq_getLast_of_ne_nil h.render_ne_nil)

end TransportOption

namespace Transport

/-- Every option of the specification can be written. -/
def Readable (t : Transport) : Prop := ∀ o ∈ t.options, o.Readable

theorem readable_of_parseOptions : ∀ {parts : List (List Char)} {os : List TransportOption},
    (∀ part ∈ parts, ';' ∉ part) → parseOptions parts = .ok os → ∀ o ∈ os, o.Readable
  | [], os, _, h, o, ho => by
    obtain rfl := Except.ok.inj h
    cases ho
  | part :: parts, os, hp, h, o, ho => by
    unfold parseOptions at h
    split at h
    · cases h
    · next a ha =>
      split at h
      · cases h
      · next as has =>
        obtain rfl := Except.ok.inj h
        rcases List.mem_cons.1 ho with rfl | ho
        · refine TransportOption.readable_of_parse ?_ (trimChars_trimChars part) ha
          exact fun hm => hp part List.mem_cons_self ((trimChars_part part).subset hm)
        · exact readable_of_parseOptions (fun q hq => hp q (List.mem_cons_of_mem _ hq)) has o ho

/-- **What was read can be written.** -/
theorem readable_of_parse {value : String} {t : Transport} (h : parse value = .ok t) :
    t.Readable := by
  unfold parse at h
  simp only at h
  split at h
  · cases h
  · next name parts hs =>
    split at h
    · cases hos : parseOptions parts with
      | error e => simp [hos, Except.map] at h
      | ok os =>
        rw [hos] at h
        obtain rfl := Except.ok.inj h
        refine readable_of_parseOptions (fun part hp => ?_) hos
        exact not_mem_of_mem_split (hs ▸ List.mem_cons_of_mem _ hp)
    · cases h

/-- The options behind the name of the transport, as they are written. -/
def tail (os : List TransportOption) : List Char := os.flatMap fun o => ';' :: o.render.toList

theorem toList_render (t : Transport) :
    t.render.toList = protocol.toList ++ tail t.options := by
  rw [render, String.toList_append, String.toList_join, List.flatMap_map]
  simp [tail]

theorem split_tail : ∀ {os : List TransportOption} {name : List Char}, ';' ∉ name →
    (∀ o ∈ os, o.Readable) →
    split ';' (name ++ tail os) = name :: os.map fun o => o.render.toList
  | [], name, hn, _ => by simpa [tail] using split_of_not_mem hn
  | o :: os, name, hn, h => by
    have ho := h o List.mem_cons_self
    have hrest := split_tail ho.no_semicolon fun q hq => h q (List.mem_cons_of_mem _ hq)
    have htail : tail (o :: os) = ';' :: (o.render.toList ++ tail os) := by simp [tail]
    rw [htail, split_append _ hn, hrest]
    rfl

theorem parseOptions_render : ∀ {os : List TransportOption}, (∀ o ∈ os, o.Readable) →
    parseOptions (os.map fun o => o.render.toList) = .ok os
  | [], _ => rfl
  | o :: os, h => by
    have ho := h o List.mem_cons_self
    have hrest := parseOptions_render fun q hq => h q (List.mem_cons_of_mem _ hq)
    rw [List.map_cons, parseOptions, ho.trim_render, TransportOption.parse_render ho.isName_key]
    simp only [hrest]

/-- A specification ends with its name or with an option. -/
theorem getLast_render {t : Transport} (h : t.Readable) (hne : t.render.toList ≠ []) :
    isBlank (t.render.toList.getLast hne) = false ∧ t.render.toList.getLast hne ≠ ';' := by
  obtain ⟨os⟩ := t
  induction os using List.reverseRecOn with
  | nil => decide +revert
  | append_singleton os o _ =>
    have ho : o.Readable := h o (by simp)
    have hrender : (Transport.mk (os ++ [o])).render.toList =
        (protocol.toList ++ tail os ++ [';']) ++ o.render.toList := by
      simp [toList_render, tail]
    have hlast : (Transport.mk (os ++ [o])).render.toList.getLast hne =
        o.render.toList.getLast ho.render_ne_nil := by
      simp only [hrender]
      exact List.getLast_append_of_ne_nil _ ho.render_ne_nil
    rw [hlast]
    exact ⟨ho.getLast_render, fun he => ho.no_semicolon (he ▸ List.getLast_mem _)⟩

/-- **A specification that is written is read back.** -/
theorem parse_render {t : Transport} (h : t.Readable) : parse t.render = .ok t := by
  have hne : t.render.toList ≠ [] := by
    rw [toList_render]
    exact List.append_ne_nil_of_left_ne_nil (by decide) _
  obtain ⟨hblank, hsemi⟩ := getLast_render h hne
  have hlast := List.getLast?_eq_getLast_of_ne_nil hne
  have htrim : trimChars t.render.toList = t.render.toList := by
    refine trimChars_eq_self_iff.2 ⟨fun c hc => ?_, fun c hc => ?_⟩
    · rw [toList_render] at hc
      obtain rfl : 'R' = c := Option.some.inj hc
      decide
    · rw [hlast] at hc
      obtain rfl := Option.some.inj hc
      exact hblank
  have hend : trimEndOf ';' t.render.toList = t.render.toList := by
    refine trimEndOf_eq_iff.2 ⟨0, by simp, fun hc => ?_⟩
    rw [hlast] at hc
    exact hsemi (Option.some.inj hc)
  have hsplit : split ';' t.render.toList =
      protocol.toList :: t.options.map fun o => o.render.toList := by
    rw [toList_render]
    exact split_tail (by decide) h
  have hname : String.ofList (trimChars protocol.toList) = protocol := by decide
  rw [parse, htrim, hend, hsplit]
  simp only [hname, if_true, parseOptions_render h]
  rfl

end Transport
end Raop
