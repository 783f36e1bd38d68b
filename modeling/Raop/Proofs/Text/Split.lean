/-
# Cutting texts apart

A text is cut at the first separator, or nowhere if it holds none
(`splitAt?_eq_some_iff`), or else at the last one (`splitLast?_eq_some_iff`).
Cut at every separator it falls into parts that hold none
(`not_mem_of_mem_split`), and parts without a separator that are written with
one between them are cut apart again (`split_append`); so these are the only
parts that give the text back (`split_eq_iff`). What holds no separator stands in
the text if it stands in one of its parts (`infix_intercalate_iff`).

Cutting a text at carriage return and line feed pairs gives lines, none of
which holds such a pair (`oneLine_of_mem_splitCrlf`). Lines that are written
one after the other, each with its end, are cut apart again
(`splitCrlf_joinLines`), and these are the only lines that give the text back
with a line end between them (`splitCrlf_eq_iff`). A blank line in a text is an
empty line between others (`nil_mem_splitCrlf_of_infix`).

Key definitions: `OneLine`, `joinLines`.
Key theorems: `takeWhile_dropWhile_iff`, `dropWhile_beq_eq_iff`, `splitAt?_eq_some_iff`,
`splitLast?_eq_some_iff`, `split_append`, `not_mem_of_mem_split`, `split_eq_iff`,
`infix_intercalate_iff`, `splitCrlf_append_crlf`, `splitCrlf_of_oneLine`, `splitCrlf_joinLines`,
`oneLine_of_mem_splitCrlf`, `splitCrlf_eq_iff`, `nil_mem_splitCrlf_of_infix`.
-/
import Mathlib.Data.List.Chain
import Raop.Text.Split

namespace Raop.Text

/-! ### Behind a run -/

/-- The longest run at the front and what follows it: what follows begins otherwise. -/
theorem takeWhile_dropWhile_iff {α : Type} {p : α → Bool} {xs front back : List α} :
    xs.takeWhile p = front ∧ xs.dropWhile p = back ↔
      xs = front ++ back ∧ (∀ x ∈ front, p x = true) ∧ ∀ x ∈ back.head?, p x = false := by
  constructor
  · rintro ⟨rfl, rfl⟩
    refine ⟨List.takeWhile_append_dropWhile.symm, List.all_eq_true.1 List.all_takeWhile, ?_⟩
    intro x hx
    have := List.head?_dropWhile_not p xs
    rwa [hx] at this
  · rintro ⟨rfl, hfront, hback⟩
    rw [List.takeWhile_append_of_pos hfront, List.dropWhile_append_of_pos hfront]
    cases back with
    | nil => simp
    | cons x back => simp [hback x rfl]

/-- The copies of a character at the front are dropped, and all of them. -/
theorem dropWhile_beq_eq_iff {c : Char} {cs back : List Char} :
    cs.dropWhile (· == c) = back ↔
      ∃ n, cs = List.replicate n c ++ back ∧ back.head? ≠ some c := by
  constructor
  · intro h
    obtain ⟨hcs, hrun, hback⟩ := takeWhile_dropWhile_iff.1 ⟨(rfl : cs.takeWhile (· == c) = _), h⟩
    have hall : cs.takeWhile (· == c) = List.replicate (cs.takeWhile (· == c)).length c :=
      List.eq_replicate_of_mem fun d hd => beq_iff_eq.1 (hrun d hd)
    refine ⟨_, hall ▸ hcs, fun hc => ?_⟩
    simpa using hback c hc
  · rintro ⟨n, rfl, hback⟩
    refine (takeWhile_dropWhile_iff.2 ⟨rfl, fun d hd => ?_, fun d hd => ?_⟩).2
    · simp [List.eq_of_mem_replicate hd]
    · rw [beq_eq_false_iff_ne]
      rintro rfl
      exact hback hd

/-! ### At a separator -/

theorem splitAt?_append {sep : Char} {before : List Char} (after : List Char) (h : sep ∉ before) :
    splitAt? sep (before ++ sep :: after) = some (before, after) := by
  have hb : ∀ c ∈ before, (c != sep) = true := fun c hc => by
    simp only [bne_iff_ne]
    exact fun he => h (he ▸ hc)
  rw [splitAt?, List.dropWhile_append_of_pos hb, List.takeWhile_append_of_pos hb]
  simp

/-- A text is cut around its first separator. -/
theorem splitAt?_eq_some_iff {sep : Char} {cs before after : List Char} :
    splitAt? sep cs = some (before, after) ↔ cs = before ++ sep :: after ∧ sep ∉ before := by
  constructor
  · intro h
    unfold splitAt? at h
    split at h
    · cases h
    · next c rest hd =>
      cases h
      obtain ⟨hcs, hrun, hend⟩ := takeWhile_dropWhile_iff.1 ⟨rfl, hd⟩
      have hc : c = sep := by simpa using hend c rfl
      refine ⟨hc ▸ hcs, fun hm => ?_⟩
      simpa using hrun sep hm
  · rintro ⟨rfl, h⟩
    exact splitAt?_append after h

theorem splitAt?_eq_none {sep : Char} {cs : List Char} (h : sep ∉ cs) : splitAt? sep cs = none := by
  rw [Option.eq_none_iff_forall_ne_some]
  rintro ⟨before, after⟩ hs
  obtain ⟨rfl, -⟩ := splitAt?_eq_some_iff.1 hs
  simp at h

/-- A text is cut around its last separator. -/
theorem splitLast?_eq_some_iff {sep : Char} {cs before after : List Char} :
    splitLast? sep cs = some (before, after) ↔ cs = before ++ sep :: after ∧ sep ∉ after := by
  have hreverse : cs.reverse = after.reverse ++ sep :: before.reverse ↔ cs = before ++ sep :: after := by
    rw [List.reverse_eq_iff]
    simp
  have hcut : splitAt? sep cs.reverse = some (after.reverse, before.reverse) ↔
      cs = before ++ sep :: after ∧ sep ∉ after := by
    rw [splitAt?_eq_some_iff, hreverse, List.mem_reverse]
  rw [splitLast?, Option.map_eq_some_iff, ← hcut]
  constructor
  · rintro ⟨⟨back, front⟩, hsplit, heq⟩
    obtain ⟨rfl, rfl⟩ := Prod.mk.inj heq
    rw [hsplit, List.reverse_reverse, List.reverse_reverse]
  · intro hsplit
    exact ⟨_, hsplit, by simp only [List.reverse_reverse]⟩

/-! ### At every separator -/

theorem split_cons_self (sep : Char) (cs : List Char) : split sep (sep :: cs) = [] :: split sep cs := by
  simp [split]

/-- A character that is no separator belongs to the first part. -/
theorem split_cons_of_ne {sep c : Char} {cs first : List Char} {rest : List (List Char)}
    (hc : c ≠ sep) (h : split sep cs = first :: rest) :
    split sep (c :: cs) = (c :: first) :: rest := by
  simp only [split, List.foldr_cons, if_neg hc] at h ⊢
  obtain ⟨rfl, rfl⟩ := List.cons.inj h
  rfl

theorem split_of_not_mem {sep : Char} {cs : List Char} (h : sep ∉ cs) : split sep cs = [cs] := by
  induction cs with
  | nil => rfl
  | cons c cs ih =>
    obtain ⟨hc, hcs⟩ := not_or.1 (List.mem_cons.not.1 h)
    exact split_cons_of_ne (Ne.symm hc) (ih hcs)

/-- A part without a separator is cut off where one follows. -/
theorem split_append {sep : Char} {before : List Char} (after : List Char) (h : sep ∉ before) :
    split sep (before ++ sep :: after) = before :: split sep after := by
  induction before with
  | nil => exact split_cons_self sep after
  | cons c cs ih =>
    obtain ⟨hc, hcs⟩ := not_or.1 (List.mem_cons.not.1 h)
    exact split_cons_of_ne (Ne.symm hc) (ih hcs)

/-- No part holds a separator. -/
theorem not_mem_of_mem_split {sep : Char} {cs part : List Char} (h : part ∈ split sep cs) :
    sep ∉ part := by
  induction cs generalizing part with
  | nil =>
    obtain rfl := List.mem_singleton.1 h
    simp
  | cons c cs ih =>
    by_cases hc : c = sep
    · rw [hc, split_cons_self] at h
      rcases List.mem_cons.1 h with rfl | h
      · simp
      · exact ih h
    · obtain ⟨first, rest, hs⟩ := List.exists_cons_of_ne_nil (split_ne_nil sep cs)
      rw [hs] at ih
      rw [split_cons_of_ne hc hs] at h
      rcases List.mem_cons.1 h with rfl | h
      · exact List.mem_cons.not.2 (not_or.2 ⟨Ne.symm hc, ih List.mem_cons_self⟩)
      · exact ih (List.mem_cons_of_mem _ h)

/-- A text is cut into parts that give it back with a separator between them, and hold none. -/
theorem split_eq_iff {sep : Char} {cs : List Char} {parts : List (List Char)} (hne : parts ≠ []) :
    split sep cs = parts ↔ cs = [sep].intercalate parts ∧ ∀ part ∈ parts, sep ∉ part := by
  constructor
  · rintro rfl
    refine ⟨?_, fun part hp => not_mem_of_mem_split hp⟩
    induction cs with
    | nil => rfl
    | cons c cs ih =>
      have ih := ih (split_ne_nil sep cs)
      obtain ⟨first, rest, hs⟩ := List.exists_cons_of_ne_nil (split_ne_nil sep cs)
      by_cases hc : c = sep
      · rw [hc, split_cons_self, List.intercalate_cons_of_ne_nil (split_ne_nil sep cs), ← ih]
        rfl
      · rw [split_cons_of_ne hc hs]
        rw [hs] at ih
        conv_lhs => rw [ih]
        cases rest with
        | nil => simp
        | cons part rest => simp [List.intercalate_cons_cons]
  · rintro ⟨rfl, hparts⟩
    induction parts with
    | nil => exact absurd rfl hne
    | cons part parts ih =>
      have hpart := hparts part List.mem_cons_self
      by_cases hnil : parts = []
      · rw [hnil, List.intercalate_singleton, split_of_not_mem hpart]
      · rw [List.intercalate_cons_of_ne_nil hnil, List.append_assoc, List.singleton_append,
          split_append _ hpart, ih hnil fun p hp => hparts p (List.mem_cons_of_mem _ hp)]

/-! ### Within the parts -/

/-- A text that does not hold a separator begins in front of it or not at all. -/
theorem prefix_append_cons_iff {sep : Char} {part : List Char} (before after : List Char)
    (h : sep ∉ part) : part <+: before ++ sep :: after ↔ part <+: before := by
  refine ⟨fun hpart => ?_, fun hpart => hpart.trans (List.prefix_append _ _)⟩
  have hcut : before ++ [sep] <+: before ++ sep :: after := by simp
  rcases List.prefix_or_prefix_of_prefix hpart hcut with hshort | hlong
  · rcases List.prefix_concat_iff.1 hshort with rfl | hbefore
    · simp at h
    · exact hbefore
  · exact absurd (hlong.subset (by simp)) h

/-- A text that does not hold a separator stands on one side of it. -/
theorem infix_append_cons_iff {sep : Char} {part before after : List Char} (h : sep ∉ part) :
    part <:+: before ++ sep :: after ↔ part <:+: before ∨ part <:+: after := by
  induction before with
  | nil =>
    have hstart : part <+: sep :: after ↔ part = [] := by
      simpa using prefix_append_cons_iff [] after h
    rw [List.nil_append, List.infix_cons_iff, hstart, List.infix_nil]
  | cons c before ih =>
    have hstart : part <+: c :: (before ++ sep :: after) ↔ part <+: c :: before :=
      prefix_append_cons_iff (c :: before) after h
    rw [List.cons_append, List.infix_cons_iff, List.infix_cons_iff, hstart, ih, or_assoc]

/-- A text that does not hold the separator stands in one of the parts. -/
theorem infix_intercalate_iff {sep : Char} {part : List Char} (h : sep ∉ part) (hne : part ≠ []) :
    ∀ {parts : List (List Char)}, part <:+: [sep].intercalate parts ↔ ∃ p ∈ parts, part <:+: p
  | [] => by simpa using hne
  | [p] => by simp
  | p :: q :: parts => by
    rw [List.intercalate_cons_cons, List.append_assoc, List.singleton_append, infix_append_cons_iff h,
      infix_intercalate_iff h hne, ← List.exists_mem_cons_iff]

/-! ### At line ends -/

/-- A text without a line end in it. -/
def OneLine (cs : List Char) : Prop := cs.IsChain fun a b => ¬ (a = '\r' ∧ b = '\n')

/-- Lines written one after the other, each with its end. -/
def joinLines (ls : List (List Char)) : List Char := ls.flatMap (· ++ ['\r', '\n'])

theorem joinLines_cons (l : List Char) (ls : List (List Char)) :
    joinLines (l :: ls) = l ++ '\r' :: '\n' :: joinLines ls := by
  simp [joinLines]

theorem joinLines_append (ks ls : List (List Char)) :
    joinLines (ks ++ ls) = joinLines ks ++ joinLines ls := by
  simp [joinLines]

theorem OneLine.of_part {cs ds : List Char} (h : OneLine ds) (hi : cs <:+: ds) : OneLine cs := by
  obtain ⟨front, rest, rfl⟩ := hi
  exact (List.isChain_append.1 (List.isChain_append.1 h).1).2.1

/-- Two lines with a character between them that is no part of a line end. -/
theorem OneLine.append_cons {cs ds : List Char} {c : Char} (hr : c ≠ '\r') (hn : c ≠ '\n')
    (hcs : OneLine cs) (hds : OneLine ds) : OneLine (cs ++ c :: ds) := by
  refine List.isChain_append.2 ⟨hcs, ?_, ?_⟩
  · cases ds with
    | nil => exact List.isChain_singleton _
    | cons d ds => exact List.isChain_cons_cons.2 ⟨fun h => hr h.1, hds⟩
  · intro a _ b hb h
    simp only [List.head?_cons, Option.mem_def, Option.some.injEq] at hb
    exact hn (hb.trans h.2)

theorem splitCrlf_nil : splitCrlf [] = [[]] := rfl

/-- A line end that is completed cuts. -/
theorem splitCrlf_of_lf {cs after : List Char} {rest : List (List Char)}
    (h : splitCrlf cs = ('\n' :: after) :: rest) : splitCrlf ('\r' :: cs) = [] :: after :: rest := by
  simp only [splitCrlf, List.foldr_cons] at h ⊢
  generalize List.foldr _ _ cs = parts at h ⊢
  obtain ⟨h1, h2⟩ := List.cons.inj h
  rw [h1, h2]
  rfl

/-- A character that does not complete a line end belongs to the first line. -/
theorem splitCrlf_of_ne {c : Char} {cs first : List Char} {rest : List (List Char)}
    (h : splitCrlf cs = first :: rest) (hc : c = '\r' → first.head? ≠ some '\n') :
    splitCrlf (c :: cs) = (c :: first) :: rest := by
  simp only [splitCrlf, List.foldr_cons] at h ⊢
  generalize List.foldr _ _ cs = parts at h ⊢
  obtain ⟨rfl, rfl⟩ := List.cons.inj h
  split
  · next after heq =>
    rw [heq] at hc
    exact absurd rfl (hc rfl)
  · rfl

/-- A first line that begins with a line feed begins the text. -/
theorem head?_of_splitCrlf : ∀ {cs first : List Char} {rest : List (List Char)},
    splitCrlf cs = first :: rest → first.head? = some '\n' → cs.head? = some '\n'
  | [], first, rest, h, hf => by
    rw [splitCrlf_nil] at h
    obtain ⟨rfl, -⟩ := List.cons.inj h
    cases hf
  | c :: cs, first, rest, h, hf => by
    obtain ⟨f, r, hs⟩ := List.exists_cons_of_ne_nil (splitCrlf_ne_nil cs)
    by_cases hc : c = '\r' → f.head? ≠ some '\n'
    · rw [splitCrlf_of_ne hs hc] at h
      obtain ⟨rfl, -⟩ := List.cons.inj h
      exact hf
    · obtain ⟨rfl, hn⟩ := Classical.not_imp.1 hc
      obtain ⟨after, rfl⟩ := List.head?_eq_some_iff.1 (Classical.not_not.1 hn)
      rw [splitCrlf_of_lf hs] at h
      obtain ⟨rfl, -⟩ := List.cons.inj h
      cases hf

theorem splitCrlf_crlf (cs : List Char) : splitCrlf ('\r' :: '\n' :: cs) = [] :: splitCrlf cs := by
  obtain ⟨first, rest, h⟩ := List.exists_cons_of_ne_nil (splitCrlf_ne_nil cs)
  rw [splitCrlf_of_lf (splitCrlf_of_ne h (fun hc => absurd hc (by decide))), h]

theorem splitCrlf_cons {c : Char} {cs first : List Char} {rest : List (List Char)}
    (h : splitCrlf cs = first :: rest) (hc : c = '\r' → cs.head? ≠ some '\n') :
    splitCrlf (c :: cs) = (c :: first) :: rest :=
  splitCrlf_of_ne h fun hr hf => hc hr (head?_of_splitCrlf h hf)

/-- Induction along the cuts: a text is empty, begins with a line end, or with another character. -/
theorem crlf_induct {P : List Char → Prop} (nil : P [])
    (crlf : ∀ cs, P cs → P ('\r' :: '\n' :: cs))
    (char : ∀ c cs, (c = '\r' → cs.head? ≠ some '\n') → P cs → P (c :: cs)) : ∀ cs, P cs
  | [] => nil
  | [c] => char c [] (fun _ => by simp) nil
  | c :: d :: cs => by
    by_cases h : c = '\r' ∧ d = '\n'
    · rw [h.1, h.2]
      exact crlf cs (crlf_induct nil crlf char cs)
    · refine char c (d :: cs) (fun hc hd => h ⟨hc, ?_⟩) (crlf_induct nil crlf char (d :: cs))
      simpa using hd

/-- A text is cut at a line end, and its two sides are cut each by itself. -/
theorem splitCrlf_append_crlf (cs ds : List Char) :
    splitCrlf (cs ++ '\r' :: '\n' :: ds) = splitCrlf cs ++ splitCrlf ds := by
  induction cs using crlf_induct with
  | nil => exact splitCrlf_crlf ds
  | crlf cs ih =>
    rw [List.cons_append, List.cons_append, splitCrlf_crlf, splitCrlf_crlf, ih]
    rfl
  | char c cs hc ih =>
    obtain ⟨first, rest, h⟩ := List.exists_cons_of_ne_nil (splitCrlf_ne_nil cs)
    rw [h, List.cons_append] at ih
    rw [List.cons_append, splitCrlf_cons ih, splitCrlf_cons h hc, List.cons_append]
    intro hr
    cases cs with
    | nil => simp
    | cons d cs => exact hc hr

theorem oneLine_nil : OneLine [] := List.IsChain.nil

theorem oneLine_cons {c : Char} {cs : List Char} :
    OneLine (c :: cs) ↔ (c = '\r' → cs.head? ≠ some '\n') ∧ OneLine cs := by
  rw [OneLine, List.isChain_cons]
  refine and_congr_left fun _ => ⟨fun h hr hn => h '\n' hn ⟨hr, rfl⟩, ?_⟩
  rintro h y hy ⟨hr, rfl⟩
  exact h hr hy

/-- A line without a line end in it is not cut. -/
theorem splitCrlf_of_oneLine {cs : List Char} (h : OneLine cs) : splitCrlf cs = [cs] := by
  induction cs with
  | nil => exact splitCrlf_nil
  | cons c cs ih =>
    obtain ⟨hc, hcs⟩ := oneLine_cons.1 h
    exact splitCrlf_cons (ih hcs) hc

/-- **Lines that are written are cut apart again**, with what follows the last end. -/
theorem splitCrlf_joinLines {ls : List (List Char)} (h : ∀ l ∈ ls, OneLine l) (cs : List Char) :
    splitCrlf (joinLines ls ++ cs) = ls ++ splitCrlf cs := by
  induction ls with
  | nil => rfl
  | cons l ls ih =>
    rw [joinLines_cons, List.append_assoc, List.cons_append, List.cons_append,
      splitCrlf_append_crlf, splitCrlf_of_oneLine (h l List.mem_cons_self),
      ih fun l hl => h l (List.mem_cons_of_mem _ hl)]
    rfl

/-- No line has a line end in it. -/
theorem oneLine_of_mem_splitCrlf {cs l : List Char} (h : l ∈ splitCrlf cs) : OneLine l := by
  induction cs using crlf_induct generalizing l with
  | nil =>
    rw [splitCrlf_nil, List.mem_singleton] at h
    rw [h]
    exact oneLine_nil
  | crlf cs ih =>
    rw [splitCrlf_crlf, List.mem_cons] at h
    rcases h with rfl | h
    · exact oneLine_nil
    · exact ih h
  | char c cs hc ih =>
    obtain ⟨first, rest, hs⟩ := List.exists_cons_of_ne_nil (splitCrlf_ne_nil cs)
    rw [hs] at ih
    rw [splitCrlf_cons hs hc, List.mem_cons] at h
    rcases h with rfl | h
    · exact oneLine_cons.2 ⟨fun hr hf => hc hr (head?_of_splitCrlf hs hf), ih List.mem_cons_self⟩
    · exact ih (List.mem_cons_of_mem _ h)

/-- A text is cut into lines that give it back with a line end between them, and hold none. -/
theorem splitCrlf_eq_iff {cs : List Char} {ls : List (List Char)} (hne : ls ≠ []) :
    splitCrlf cs = ls ↔ cs = ['\r', '\n'].intercalate ls ∧ ∀ l ∈ ls, OneLine l := by
  constructor
  · rintro rfl
    refine ⟨?_, fun l hl => oneLine_of_mem_splitCrlf hl⟩
    induction cs using crlf_induct with
    | nil => rfl
    | crlf cs ih =>
      have ih := ih (splitCrlf_ne_nil cs)
      rw [splitCrlf_crlf, List.intercalate_cons_of_ne_nil (splitCrlf_ne_nil cs), ← ih]
      rfl
    | char c cs hc ih =>
      have ih := ih (splitCrlf_ne_nil cs)
      obtain ⟨first, rest, hs⟩ := List.exists_cons_of_ne_nil (splitCrlf_ne_nil cs)
      rw [hs] at ih
      rw [splitCrlf_cons hs hc]
      conv_lhs => rw [ih]
      cases rest with
      | nil => simp
      | cons l rest => simp [List.intercalate_cons_cons]
  · rintro ⟨rfl, hlines⟩
    induction ls with
    | nil => exact absurd rfl hne
    | cons l ls ih =>
      have hl := hlines l List.mem_cons_self
      by_cases hnil : ls = []
      · rw [hnil, List.intercalate_singleton, splitCrlf_of_oneLine hl]
      · rw [List.intercalate_cons_of_ne_nil hnil, List.append_assoc, List.cons_append,
          List.cons_append, List.nil_append, splitCrlf_append_crlf, splitCrlf_of_oneLine hl,
          ih hnil fun k hk => hlines k (List.mem_cons_of_mem _ hk)]
        rfl

/-- A blank line behind a line shows as an empty line. -/
theorem nil_mem_splitCrlf_of_infix {cs : List Char} (h : ['\r', '\n', '\r', '\n'] <:+: cs) :
    [] ∈ splitCrlf cs := by
  obtain ⟨front, rest, rfl⟩ := h
  have : front ++ ['\r', '\n', '\r', '\n'] ++ rest = front ++ '\r' :: '\n' :: '\r' :: '\n' :: rest := by
    simp
  rw [this, splitCrlf_append_crlf, splitCrlf_crlf]
  exact List.mem_append_right _ List.mem_cons_self

end Raop.Text
