/-
# Header fields, stored and written out

Storing a field keeps the names in their order and distinct up to case
(`names_store`, `nodup_store`). A field that came from a line is trimmed, its
name holds no colon, and neither part holds a line end (`Field`); written out
it is one line again, which reads as the same field (`fieldOfLine?_fieldLine`).
So fields with distinct names are read back from their lines
(`ofLines_fieldLines`).

Key definitions: `Headers.names`, `Headers.Field`, `Headers.fieldLine`.
Key theorems: `Headers.nodup_store`, `Headers.get?_insert_self`, `Headers.get?_insert_of_ne`,
`Headers.field_of_ofLines`,
`Headers.nodup_of_ofLines`, `Headers.ofLines_fieldLines`, `Headers.toList_render`.
-/
import Raop.Message.Headers
import Raop.Proofs.Text.Blank
import Raop.Proofs.Text.Split

namespace Raop
namespace Headers

open Text

theorem sameName_iff {a b : String} : sameName a b = true ↔ foldCase a = foldCase b := beq_iff_eq

/-- The names of fields, in lower case. -/
def names (es : List (String × String)) : List (List Char) := es.map fun e => foldCase e.1

theorem names_append (es fs : List (String × String)) : names (es ++ fs) = names es ++ names fs :=
  List.map_append

/-! ### Storing -/

/-- A name that is there keeps its place; another comes last. -/
theorem names_store (name value : String) : ∀ es : List (String × String),
    names (store name value es) =
      if foldCase name ∈ names es then names es else names es ++ [foldCase name]
  | [] => rfl
  | e :: es => by
    rw [store]
    by_cases h : sameName e.1 name = true
    · rw [if_pos h]
      simp [names, sameName_iff.1 h]
    · rw [if_neg h]
      have hne : ¬ foldCase name = foldCase e.1 := fun he => h (sameName_iff.2 he.symm)
      have ih := names_store name value es
      by_cases hm : foldCase name ∈ names es
      · rw [if_pos hm] at ih
        have hm' : foldCase name ∈ names (e :: es) := List.mem_cons_of_mem _ hm
        rw [if_pos hm']
        exact congrArg (foldCase e.1 :: ·) ih
      · rw [if_neg hm] at ih
        have hm' : foldCase name ∉ names (e :: es) := fun hc =>
          (List.mem_cons.1 hc).elim hne hm
        rw [if_neg hm']
        exact congrArg (foldCase e.1 :: ·) ih

theorem nodup_store {es : List (String × String)} (name value : String) (h : (names es).Nodup) :
    (names (store name value es)).Nodup := by
  rw [names_store]
  split
  · exact h
  · next hn =>
    refine List.nodup_append.2 ⟨h, by simp, fun a ha b hb hab => hn ?_⟩
    rw [List.mem_singleton] at hb
    exact hb ▸ hab ▸ ha

theorem mem_store {e : String × String} {name value : String} :
    ∀ {es : List (String × String)}, e ∈ store name value es → e = (name, value) ∨ e ∈ es
  | [], h => .inl (List.mem_singleton.1 h)
  | f :: es, h => by
    rw [store] at h
    split at h
    · rcases List.mem_cons.1 h with h | h
      · exact .inl h
      · exact .inr (List.mem_cons_of_mem _ h)
    · rcases List.mem_cons.1 h with h | h
      · exact .inr (h ▸ List.mem_cons_self)
      · exact (mem_store h).imp_right (List.mem_cons_of_mem _)

/-- A field of a new name is stored at the end. -/
theorem store_of_not_mem {name value : String} : ∀ {es : List (String × String)},
    foldCase name ∉ names es → store name value es = es ++ [(name, value)]
  | [], _ => rfl
  | e :: es, h => by
    simp only [names, List.map_cons, List.mem_cons, not_or] at h
    rw [store, if_neg fun hs => h.1 (sameName_iff.1 hs).symm, store_of_not_mem h.2]
    rfl

theorem find?_store_self (name value : String) : ∀ es : List (String × String),
    (store name value es).find? (fun e => sameName e.1 name) = some (name, value)
  | [] => by simp [store, sameName]
  | e :: es => by
    rw [store]
    by_cases h : sameName e.1 name = true
    · rw [if_pos h, List.find?_cons_of_pos]
      simp [sameName]
    · have ih := find?_store_self name value es
      rw [Bool.not_eq_true] at h
      simp only [h, Bool.false_eq_true, if_false, List.find?_cons, ih]

theorem find?_store_of_ne {name other : String} (value : String)
    (hne : foldCase name ≠ foldCase other) : ∀ es : List (String × String),
    (store name value es).find? (fun e => sameName e.1 other) =
      es.find? fun e => sameName e.1 other
  | [] => by simp [store, sameName, hne]
  | e :: es => by
    have hname : sameName name other = false := beq_false_of_ne hne
    rw [store]
    by_cases h : sameName e.1 name = true
    · have hother : sameName e.1 other = false := beq_false_of_ne (sameName_iff.1 h ▸ hne)
      simp only [h, if_true, List.find?_cons, hname, hother]
    · rw [if_neg h, List.find?_cons, List.find?_cons, find?_store_of_ne value hne es]

/-- What was stored is found. -/
theorem get?_insert_self (h : Headers) (name value : String) :
    (h.insert name value).get? name = some value := by
  rw [get?, insert, find?_store_self]
  rfl

/-- Fields of other names are found as before. -/
theorem get?_insert_of_ne {h : Headers} {name other value : String}
    (hne : foldCase name ≠ foldCase other) : (h.insert name value).get? other = h.get? other := by
  rw [get?, insert, find?_store_of_ne value hne, get?]

/-! ### Lines -/

/-- A field as it comes from a line: trimmed, without a colon in its name and a line end in either
part. -/
structure Field (e : String × String) : Prop where
  trim_name : trimChars e.1.toList = e.1.toList
  no_colon : ':' ∉ e.1.toList
  oneLine_name : OneLine e.1.toList
  trim_value : trimChars e.2.toList = e.2.toList
  oneLine_value : OneLine e.2.toList

/-- A text without a carriage return is one line, so a word is. -/
theorem oneLine_of_word {cs : List Char} (h : Word cs) : OneLine cs := by
  have hr : ∀ c ∈ cs, c ≠ '\r' := fun c hc he => by
    have := h.2 c hc
    rw [he] at this
    exact absurd this (by decide)
  clear h
  induction cs with
  | nil => exact oneLine_nil
  | cons c cs ih =>
    exact oneLine_cons.2 ⟨fun he => absurd he (hr c List.mem_cons_self),
      ih fun d hd => hr d (List.mem_cons_of_mem _ hd)⟩

/-- Two words make a field, if the first holds no colon. -/
theorem field_of_word {name value : String} (hn : Word name.toList) (hc : ':' ∉ name.toList)
    (hv : Word value.toList) : Field (name, value) where
  trim_name := trimChars_of_word hn
  no_colon := hc
  oneLine_name := oneLine_of_word hn
  trim_value := trimChars_of_word hv
  oneLine_value := oneLine_of_word hv

/-- The line of a field. -/
def fieldLine (e : String × String) : List Char := e.1.toList ++ ':' :: ' ' :: e.2.toList

theorem fieldLine_ne_nil (e : String × String) : fieldLine e ≠ [] := by simp [fieldLine]

theorem Field.oneLine_fieldLine {e : String × String} (h : Field e) : OneLine (fieldLine e) := by
  have hv : OneLine (' ' :: e.2.toList) :=
    OneLine.append_cons (by decide) (by decide) oneLine_nil h.oneLine_value
  exact OneLine.append_cons (by decide) (by decide) h.oneLine_name hv

/-- The line of a field reads as the field. -/
theorem Field.fieldOfLine?_fieldLine {e : String × String} (h : Field e) :
    fieldOfLine? (fieldLine e) = some e := by
  have hv : trimChars (' ' :: e.2.toList) = e.2.toList := by
    rw [trimChars_cons_blank _ (by decide), h.trim_value]
  rw [fieldOfLine?, fieldLine, splitAt?_append _ h.no_colon, Option.map_some]
  simp only [h.trim_name, hv, String.ofList_toList]

/-- What a line reads as is a field. -/
theorem field_of_fieldOfLine? {line : List Char} {e : String × String} (hl : OneLine line)
    (h : fieldOfLine? line = some e) : Field e := by
  obtain ⟨⟨name, value⟩, hs, rfl⟩ := Option.map_eq_some_iff.1 h
  obtain ⟨rfl, hc⟩ := splitAt?_eq_some_iff.1 hs
  have hname : OneLine name := hl.of_part (List.prefix_append _ _).isInfix
  have hvalue : OneLine value :=
    hl.of_part ((List.suffix_cons _ _).trans (List.suffix_append _ _)).isInfix
  refine ⟨?_, ?_, ?_, ?_, ?_⟩
  · simp only [String.toList_ofList, trimChars_trimChars]
  · simp only [String.toList_ofList]
    exact fun hm => hc ((trimChars_part name).subset hm)
  · simp only [String.toList_ofList]
    exact hname.of_part (trimChars_part name)
  · simp only [String.toList_ofList, trimChars_trimChars]
  · simp only [String.toList_ofList]
    exact hvalue.of_part (trimChars_part value)

/-- Reading lines stores fields, so it keeps what storing a field of a line keeps. -/
theorem addLines_induct {P : Headers → Prop} {lines : List (List Char)} {h h' : Headers}
    (step : ∀ (h : Headers) line e, line ∈ lines → fieldOfLine? line = some e → P h →
      P (h.insert e.1 e.2))
    (ha : addLines h lines = .ok h') (hp : P h) : P h' := by
  induction lines generalizing h with
  | nil =>
    cases ha
    exact hp
  | cons line lines ih =>
    have step' := fun h l e (hl : l ∈ lines) => step h l e (List.mem_cons_of_mem _ hl)
    rw [addLines] at ha
    split at ha
    · exact ih step' ha hp
    · split at ha
      · next name value hf => exact ih step' ha (step h line _ List.mem_cons_self hf hp)
      · cases ha

theorem field_of_ofLines {lines : List (List Char)} {h : Headers} (hl : ∀ l ∈ lines, OneLine l)
    (ho : ofLines lines = .ok h) : ∀ e ∈ h.entries, Field e := by
  refine addLines_induct (P := fun h => ∀ e ∈ h.entries, Field e) ?_ ho (by simp [empty])
  intro h line e hline hf hall d hd
  rcases mem_store hd with rfl | hd
  · exact field_of_fieldOfLine? (hl line hline) hf
  · exact hall d hd

theorem nodup_of_ofLines {lines : List (List Char)} {h : Headers} (ho : ofLines lines = .ok h) :
    (names h.entries).Nodup :=
  addLines_induct (P := fun h => (names h.entries).Nodup)
    (fun _ _ e _ _ hn => nodup_store e.1 e.2 hn) ho List.nodup_nil

theorem addLines_fieldLines : ∀ {es : List (String × String)} {h : Headers},
    (∀ e ∈ es, Field e) → (names (h.entries ++ es)).Nodup →
    addLines h (es.map fieldLine) = .ok ⟨h.entries ++ es⟩
  | [], h, _, _ => by simp [addLines]
  | e :: es, h, hf, hn => by
    have hnew : foldCase e.1 ∉ names h.entries := by
      rw [names_append, List.nodup_append] at hn
      exact fun hm => hn.2.2 _ hm _ List.mem_cons_self rfl
    have hstore : (h.insert e.1 e.2).entries = h.entries ++ [e] := store_of_not_mem hnew
    have hne : (fieldLine e).isEmpty = false := by
      rw [List.isEmpty_eq_false_iff]
      exact fieldLine_ne_nil e
    rw [List.map_cons, addLines, hne, (hf e List.mem_cons_self).fieldOfLine?_fieldLine]
    simp only [Bool.false_eq_true, if_false]
    rw [addLines_fieldLines (fun d hd => hf d (List.mem_cons_of_mem _ hd))]
    · rw [hstore, List.append_assoc, List.singleton_append]
    · rwa [hstore, List.append_assoc, List.singleton_append]

/-- **Fields with distinct names are read back from their lines.** -/
theorem ofLines_fieldLines {es : List (String × String)} (hf : ∀ e ∈ es, Field e)
    (hn : (names es).Nodup) : ofLines (es.map fieldLine) = .ok ⟨es⟩ :=
  addLines_fieldLines hf hn

/-- Fields are written as their lines. -/
theorem toList_render (h : Headers) : h.render.toList = joinLines (h.entries.map fieldLine) := by
  rw [render, String.toList_join, joinLines, List.flatMap_map, List.flatMap_map]
  congr 1
  funext e
  simp [fieldLine]

end Headers
end Raop
