/-
# What a body of parameters says

A line is read just if it is a name, a colon and a value (`parseLine_eq_ok_iff`), and a body just if
each of its lines is, in order (`parse_eq_ok_iff`). So the volumes that are read are those of the lines
that begin with the name of the volume and a colon (`volumes_of_parse`).

Parameters that are written line by line are read back as they were, if no value begins with a space,
runs over its line or ends like one (`parse_render`). A value that was read off a line and trimmed is of
that kind, whatever it is (`fits_trim`).

Key definitions: `Parameters.volumeOf?`, `Parameters.volumeLines`, `Parameters.render`, `Parameters.Fits`.
Key theorems: `Parameters.parseLine_eq_ok_iff`, `Parameters.parse_eq_ok_iff`,
`Parameters.volumes_of_parse`, `Parameters.parse_render`, `Parameters.parse_volumeBody`.
-/
import Raop.Parameters
import Raop.Proofs.Lists
import Raop.Proofs.Text.Blank
import Raop.Proofs.Text.Utf8

namespace Raop
namespace Parameters

open Text

/-! ### Reading -/

theorem not_mem_of_isName {name : List Char} (h : isName name = true) : ':' ∉ name := by
  intro hmem
  have hall := (Bool.and_eq_true_iff.1 h).2
  exact absurd (List.all_eq_true.1 hall _ hmem) (by decide)

/-- A line is read just if it is a name, a colon and a value, which is read without spaces in front. -/
theorem parseLine_eq_ok_iff {line : List Char} {e : String × String} :
    parseLine line = .ok e ↔
      ∃ value, line = e.1.toList ++ ':' :: value ∧ isName e.1.toList = true ∧
        e.2.toList = value.dropWhile (· == ' ') := by
  unfold parseLine
  constructor
  · intro h
    simp only at h
    split at h
    · cases h
    · next name value hsplit =>
      obtain ⟨rfl, -⟩ := splitAt?_eq_some_iff.1 hsplit
      split at h
      · next hname =>
        obtain rfl := Except.ok.inj h
        exact ⟨value, by simp, by simpa using hname, by simp⟩
      · cases h
  · rintro ⟨value, rfl, hname, hvalue⟩
    rw [splitAt?_append value (not_mem_of_isName hname)]
    simp only [hname, if_true, ← hvalue, String.ofList_toList]

/-- A body is read line by line. -/
theorem parse_eq_ok_iff {body : String} {ps : List (String × String)} :
    parse body = .ok ps ↔ List.Forall₂ (fun line e => parseLine line = .ok e) (lines body.toList) ps :=
  mapM_eq_ok_iff

/-! ### The volume -/

/-- What a line gives as the volume, if it begins with its name and a colon. -/
def volumeOf? (line : List Char) : Option (List Char) := line.dropPrefix? (volume.toList ++ [':'])

/-- The volumes that a body gives, line by line. -/
def volumeLines (body : String) : List String :=
  ((lines body.toList).filterMap volumeOf?).map String.ofList

theorem volumeOf?_eq_some_iff {line value : List Char} :
    volumeOf? line = some value ↔ line = volume.toList ++ ':' :: value := by
  simp [volumeOf?, List.dropPrefix?_eq_some_iff]

/-- Trimming takes the spaces in front as well. -/
theorem trimChars_dropWhile_space (cs : List Char) : trimChars (cs.dropWhile (· == ' ')) = trimChars cs := by
  induction cs with
  | nil => rfl
  | cons c cs ih =>
    by_cases hc : c = ' '
    · subst hc
      rw [List.dropWhile_cons_of_pos (by simp), ih, trimChars_cons_blank cs (by decide)]
    · rw [List.dropWhile_cons_of_neg (by simpa using hc)]

/-- A line that is read gives the volume just if it is read as one. -/
theorem volumeOf?_of_parseLine {line : List Char} {e : String × String} (h : parseLine line = .ok e) :
    (volumeOf? line).map trimChars = if e.1 = volume then some (trimChars e.2.toList) else none := by
  obtain ⟨value, rfl, hname, hvalue⟩ := parseLine_eq_ok_iff.1 h
  by_cases he : e.1 = volume
  · rw [if_pos he, he, volumeOf?_eq_some_iff.2 rfl, hvalue, trimChars_dropWhile_space]
    rfl
  · rw [if_neg he, Option.map_eq_none_iff, Option.eq_none_iff_forall_ne_some]
    intro rest hrest
    -- a line is cut at its first colon only
    have hsplit := splitAt?_append value (not_mem_of_isName hname)
    rw [volumeOf?_eq_some_iff.1 hrest, splitAt?_append rest (by decide)] at hsplit
    exact he (String.toList_injective (Prod.mk.inj (Option.some.inj hsplit)).1).symm

/-- **The volumes among the parameters of a body are those of its volume lines**, in order. -/
theorem volumes_of_parse {body : String} {ps : List (String × String)} (h : parse body = .ok ps) :
    (ps.filter fun e => e.1 = volume).map (trim ·.2) = (volumeLines body).map trim := by
  have hread := parse_eq_ok_iff.1 h
  rw [volumeLines, List.map_map]
  clear h
  generalize lines body.toList = ls at hread ⊢
  induction hread with
  | nil => rfl
  | @cons line e ls ps hline _ ih =>
    have hvolume := volumeOf?_of_parseLine hline
    by_cases he : e.1 = volume
    · rw [if_pos he, Option.map_eq_some_iff] at hvolume
      obtain ⟨value, hvalue, htrim⟩ := hvolume
      rw [List.filter_cons_of_pos (by simpa using he), List.filterMap_cons_some hvalue, List.map_cons,
        List.map_cons, ih]
      simp only [Function.comp_apply, trim, String.toList_ofList, htrim]
    · rw [if_neg he, Option.map_eq_none_iff] at hvolume
      rw [List.filter_cons_of_neg (by simpa using he), List.filterMap_cons_none hvolume, ih]

/-! ### Writing -/

/-- A parameter as it is written on its line. -/
def renderLine (e : String × String) : List Char := e.1.toList ++ ':' :: ' ' :: e.2.toList

/-- The body that gives these parameters. -/
def render (ps : List (String × String)) : String := String.ofList (joinLines (ps.map renderLine))

/-- A parameter that is read back: its name is one, and its value does not begin with a space, run over
its line or end like one. -/
structure Fits (e : String × String) : Prop where
  name : isName e.1.toList = true
  first : e.2.toList.head? ≠ some ' '
  line : '\n' ∉ e.2.toList
  last : e.2.toList.getLast? ≠ some '\r'

instance (e : String × String) : Decidable (Fits e) :=
  decidable_of_iff (isName e.1.toList = true ∧ e.2.toList.head? ≠ some ' ' ∧ '\n' ∉ e.2.toList ∧
    e.2.toList.getLast? ≠ some '\r')
    ⟨fun ⟨name, first, line, last⟩ => ⟨name, first, line, last⟩,
      fun ⟨name, first, line, last⟩ => ⟨name, first, line, last⟩⟩

/-- Lines are read back as they were written. -/
theorem lines_joinLines {ls : List (List Char)}
    (h : ∀ l ∈ ls, l ≠ [] ∧ '\n' ∉ l ∧ l.getLast? ≠ some '\r') : lines (joinLines ls) = ls := by
  induction ls with
  | nil => rfl
  | cons l ls ih =>
    obtain ⟨hne, hnl, hlast⟩ := h l List.mem_cons_self
    have hsplit : split '\n' (joinLines (l :: ls)) = (l ++ ['\r']) :: split '\n' (joinLines ls) := by
      rw [joinLines_cons, List.append_cons]
      exact split_append _ (by simpa using hnl)
    have htrim : trimEndOf '\r' (l ++ ['\r']) = l := trimEndOf_eq_iff.2 ⟨1, rfl, hlast⟩
    have hrest : lines (joinLines ls) = ls := ih fun k hk => h k (List.mem_cons_of_mem _ hk)
    rw [lines] at hrest ⊢
    rw [hsplit, List.map_cons, htrim, List.filter_cons_of_pos (by simpa using hne), hrest]

theorem parseLine_renderLine {e : String × String} (h : Fits e) : parseLine (renderLine e) = .ok e := by
  refine parseLine_eq_ok_iff.2 ⟨_, rfl, h.name, ?_⟩
  rw [List.dropWhile_cons_of_pos (by simp)]
  cases hvalue : e.2.toList with
  | nil => rfl
  | cons c cs =>
    have hc : c ≠ ' ' := fun hc => h.first (by rw [hvalue, hc]; rfl)
    rw [List.dropWhile_cons_of_neg (by simpa using hc)]

theorem Fits.renderLine {e : String × String} (h : Fits e) :
    renderLine e ≠ [] ∧ '\n' ∉ renderLine e ∧ (renderLine e).getLast? ≠ some '\r' := by
  have hname : '\n' ∉ e.1.toList := fun hmem =>
    absurd ((word_of_isName h.name).2 _ hmem) (by decide)
  refine ⟨by simp [Parameters.renderLine], ?_, ?_⟩
  · simp [Parameters.renderLine, hname, h.line]
  · rw [Parameters.renderLine, List.getLast?_append_of_ne_nil _ (by simp), List.getLast?_cons_cons]
    cases hvalue : e.2.toList with
    | nil => simp
    | cons c cs =>
      rw [List.getLast?_cons_cons, ← hvalue]
      exact h.last

/-- **Parameters that are written are read back.** -/
theorem parse_render {ps : List (String × String)} (h : ∀ e ∈ ps, Fits e) : parse (render ps) = .ok ps := by
  rw [parse_eq_ok_iff, render, String.toList_ofList, lines_joinLines, List.forall₂_map_left_iff,
    List.forall₂_same]
  · exact fun e he => parseLine_renderLine (h e he)
  · intro l hl
    obtain ⟨e, he, rfl⟩ := List.mem_map.1 hl
    exact (h e he).renderLine

/-- A volume that was read off its line and trimmed. -/
theorem fits_trim {body value : String} (h : value ∈ volumeLines body) : Fits (volume, trim value) := by
  obtain ⟨cs, hcs, rfl⟩ := List.mem_map.1 h
  obtain ⟨line, hline, hvalue⟩ := List.mem_filterMap.1 hcs
  obtain ⟨part, hpart, rfl⟩ := List.mem_map.1 (List.mem_of_mem_filter hline)
  obtain ⟨hhead, hlast⟩ := trimChars_eq_self_iff.1 (trimChars_trimChars cs)
  have hnl : '\n' ∉ cs := fun hmem => by
    -- it is part of a line, which holds no line feed
    have hfront : trimEndOf '\r' part <+: part := List.rdropWhile_prefix _ _
    have hin : '\n' ∈ trimEndOf '\r' part := by simp [volumeOf?_eq_some_iff.1 hvalue, hmem]
    exact not_mem_of_mem_split hpart (hfront.subset hin)
  refine ⟨(by decide : isName volume.toList = true), fun hc => ?_, fun hc => ?_, fun hc => ?_⟩ <;>
    simp only [trim, String.toList_ofList] at hc
  · exact absurd (hhead _ hc) (by decide)
  · exact hnl ((trimChars_part cs).subset hc)
  · exact absurd (hlast _ hc) (by decide)

/-- The body that answers with a volume is read as that volume. -/
theorem parse_volumeBody {body value : String} (h : value ∈ volumeLines body) :
    parse (volumeBody (trim value)) = .ok [(volume, trim value)] := by
  have hbody : volumeBody (trim value) = render [(volume, trim value)] := by
    apply String.toList_injective
    simp [volumeBody, render, renderLine, joinLines]
  rw [hbody]
  exact parse_render (by simpa using fits_trim h)

end Parameters
end Raop
