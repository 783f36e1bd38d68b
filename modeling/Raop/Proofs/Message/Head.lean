/-
# Where a head ends

A head ends at the first blank line (`splitHead?_eq_some_iff`). More octets do
not move that place (`splitHead?_append`), and a place that more octets bring to
light lies behind everything that was there before
(`length_lt_of_splitHead?_append`). A head that is written as lines, none of
them empty, ends where the lines end, and is cut into these lines again
(`splitHead?_encode_joinLines`); such are a line and the lines of header fields
behind it (`splitHead?_encode_fields`).

Key theorems: `splitHead?_cons`, `splitHead?_append`, `splitHead?_of_first`,
`length_lt_of_splitHead?_append`, `splitHead?_eq_some_iff`, `splitHead?_encode_joinLines`,
`splitHead?_encode_fields`.
-/
import Raop.Message.Reader
import Raop.Proofs.Message.Headers
import Raop.Proofs.Text.Utf8

namespace Raop

theorem splitHeadAfter_eq (passed bs : Bytes) :
    splitHeadAfter passed bs = (splitHead? bs).map fun p => (passed.reverse ++ p.1, p.2) := by
  induction bs generalizing passed with
  | nil => rfl
  | cons b bs ih =>
    rw [splitHead?, splitHeadAfter, splitHeadAfter]
    split
    · simp
    · rw [ih, ih]
      cases splitHead? bs <;> simp

/-- A head is found here, or behind the first octet. -/
theorem splitHead?_cons (b : UInt8) (bs : Bytes) :
    splitHead? (b :: bs) =
      if blankLine.isPrefixOf (b :: bs) then some ([], (b :: bs).drop 4)
      else (splitHead? bs).map fun p => (b :: p.1, p.2) := by
  rw [splitHead?, splitHeadAfter]
  split
  · rfl
  · rw [splitHeadAfter_eq]
    simp

theorem splitHead?_blankLine (rest : Bytes) : splitHead? (blankLine ++ rest) = some ([], rest) := by
  rw [blankLine, List.cons_append, splitHead?_cons, if_pos (by simp [blankLine])]
  rfl

/-- Octets behind a head that was found go to the rest. -/
theorem splitHead?_append {bs head rest : Bytes} (more : Bytes)
    (h : splitHead? bs = some (head, rest)) :
    splitHead? (bs ++ more) = some (head, rest ++ more) := by
  induction bs generalizing head rest with
  | nil => cases h
  | cons b bs ih =>
    rw [splitHead?_cons] at h
    by_cases hp : blankLine.isPrefixOf (b :: bs)
    · rw [if_pos hp] at h
      cases h
      obtain ⟨t, ht⟩ := List.isPrefixOf_iff_prefix.1 hp
      rw [← ht, List.append_assoc, splitHead?_blankLine]
      rfl
    · rw [if_neg hp] at h
      obtain ⟨⟨front, rest⟩, hs, heq⟩ := Option.map_eq_some_iff.1 h
      cases heq
      have hlen := length_splitHead? hs
      have hp' : ¬ blankLine.isPrefixOf (b :: (bs ++ more)) := by
        intro hc
        -- the blank line would lie within what was there before
        refine hp (List.isPrefixOf_iff_prefix.2 ?_)
        rw [List.isPrefixOf_iff_prefix, ← List.cons_append] at hc
        refine List.prefix_of_prefix_length_le hc (List.prefix_append _ _) ?_
        simp only [blankLine, List.length_cons, List.length_nil]
        omega
      rw [List.cons_append, splitHead?_cons, if_neg hp', ih hs]
      rfl

/-- A blank line that does not begin before the end of `head` makes `head` the head. -/
theorem splitHead?_of_first {head rest : Bytes}
    (h : ¬ blankLine <:+: head ++ [13, 10, 13]) :
    splitHead? (head ++ blankLine ++ rest) = some (head, rest) := by
  induction head with
  | nil => exact splitHead?_blankLine rest
  | cons b head ih =>
    have hb : ¬ blankLine.isPrefixOf (b :: (head ++ blankLine ++ rest)) := by
      intro hc
      apply h
      rw [List.isPrefixOf_iff_prefix] at hc
      have hpre : b :: head ++ [13, 10, 13] <+: b :: (head ++ blankLine ++ rest) :=
        ⟨10 :: rest, by simp [blankLine]⟩
      exact (List.prefix_of_prefix_length_le hc hpre (by simp [blankLine])).isInfix
    have hi : ¬ blankLine <:+: head ++ [13, 10, 13] := fun hc => h (hc.trans (List.suffix_cons _ _).isInfix)
    rw [List.cons_append, List.cons_append, splitHead?_cons, if_neg hb, ih hi]
    rfl

/-- Where there is a blank line there is a head. -/
theorem splitHead?_ne_none (front rest : Bytes) : splitHead? (front ++ blankLine ++ rest) ≠ none := by
  induction front with
  | nil =>
    rw [List.nil_append, splitHead?_blankLine]
    simp
  | cons b front ih =>
    rw [List.cons_append, List.cons_append, splitHead?_cons]
    split
    · simp
    · simpa using ih

/-- A head that was not there before reaches beyond what was there. -/
theorem length_lt_of_splitHead?_append {bs more head rest : Bytes} (hn : splitHead? bs = none)
    (h : splitHead? (bs ++ more) = some (head, rest)) : bs.length < head.length + 4 := by
  refine Nat.lt_of_not_le fun hc => ?_
  have hbs : head ++ blankLine <+: bs := by
    refine List.prefix_of_prefix_length_le ⟨rest, (eq_of_splitHead? h).symm⟩
      (List.prefix_append bs more) ?_
    simpa [blankLine] using hc
  obtain ⟨t, rfl⟩ := hbs
  exact splitHead?_ne_none head t hn

/-- No blank line begins in front of the end of the head. -/
theorem length_le_of_splitHead? {bs head rest front back : Bytes}
    (h : splitHead? bs = some (head, rest)) (hbs : bs = front ++ blankLine ++ back) :
    head.length ≤ front.length := by
  cases hfront : splitHead? (front ++ blankLine) with
  | none =>
    rw [← List.append_nil (front ++ blankLine)] at hfront
    exact absurd hfront (splitHead?_ne_none front [])
  | some p =>
    obtain ⟨head', rest'⟩ := p
    have happ := splitHead?_append back hfront
    rw [← hbs, h] at happ
    cases happ
    have hlen := length_splitHead? hfront
    simp only [List.length_append, blankLine, List.length_cons, List.length_nil] at hlen
    omega

/-- The head is what stands in front of the first blank line. -/
theorem splitHead?_eq_some_iff {bs head rest : Bytes} :
    splitHead? bs = some (head, rest) ↔ bs = head ++ blankLine ++ rest ∧
      ∀ front back, bs = front ++ blankLine ++ back → head.length ≤ front.length := by
  constructor
  · intro h
    exact ⟨eq_of_splitHead? h, fun front back hbs => length_le_of_splitHead? h hbs⟩
  · rintro ⟨rfl, hfirst⟩
    cases hs : splitHead? (head ++ blankLine ++ rest) with
    | none => exact absurd hs (splitHead?_ne_none head rest)
    | some p =>
      obtain ⟨head', rest'⟩ := p
      have heq := eq_of_splitHead? hs
      have hlen : head.length = head'.length :=
        Nat.le_antisymm (hfirst head' rest' heq) (length_le_of_splitHead? hs rfl)
      rw [List.append_assoc, List.append_assoc] at heq
      obtain ⟨rfl, hbehind⟩ := List.append_inj heq hlen
      rw [List.append_cancel_left hbehind]

/-! ### Heads that are written -/

/-- The octets of lines and an empty line, with anything behind them: the head is the lines without
the last line end, whatever the octets behind are. -/
theorem splitHead?_encode_joinLines {ls : List (List Char)} (hne : ls ≠ [])
    (hl : ∀ l ∈ ls, Text.OneLine l ∧ l ≠ []) (rest : Bytes) :
    ∃ head, Text.splitCrlf head = ls ∧
      splitHead? (Text.encodeChars (Text.joinLines ls ++ ['\r', '\n']) ++ rest) =
        some (Text.encodeChars head, rest) := by
  obtain ⟨front, last, rfl⟩ : ∃ front last, ls = front ++ [last] :=
    ⟨_, _, (List.dropLast_concat_getLast hne).symm⟩
  have hfront : ∀ l ∈ front, Text.OneLine l := fun l h => (hl l (List.mem_append_left _ h)).1
  have hlast := hl last (List.mem_append_right _ (List.mem_singleton_self _))
  have hcut : Text.splitCrlf (Text.joinLines front ++ last) = front ++ [last] := by
    rw [Text.splitCrlf_joinLines hfront, Text.splitCrlf_of_oneLine hlast.1]
  refine ⟨Text.joinLines front ++ last, hcut, ?_⟩
  have htext : Text.joinLines (front ++ [last]) ++ ['\r', '\n'] =
      (Text.joinLines front ++ last) ++ ['\r', '\n', '\r', '\n'] := by
    rw [Text.joinLines_append, Text.joinLines_cons]
    simp [Text.joinLines]
  have hend : Text.encodeChars ['\r', '\n', '\r', '\n'] = blankLine := by decide
  have hpart : Text.encodeChars ['\r', '\n', '\r'] = [13, 10, 13] := by decide
  rw [htext, Text.encodeChars_append, hend]
  refine splitHead?_of_first fun hc => ?_
  -- an earlier blank line would show as an empty line
  rw [← hpart, ← Text.encodeChars_append, ← hend] at hc
  have hmem := Text.nil_mem_splitCrlf_of_infix (Text.infix_of_encodeChars (by simp) hc)
  rw [Text.splitCrlf_append_crlf, hcut] at hmem
  rcases List.mem_append.1 hmem with h | h
  · exact (hl [] h).2 rfl
  · exact absurd h (by decide)

/-- A first line and header fields, with anything behind the empty line: the head is cut into the first
line and the lines of the fields. -/
theorem splitHead?_encode_fields {first : List Char} {es : List (String × String)}
    (hfirst : Text.OneLine first) (hne : first ≠ []) (hf : ∀ e ∈ es, Headers.Field e) (rest : Bytes) :
    ∃ head, Text.splitCrlf head = first :: es.map Headers.fieldLine ∧
      splitHead? (Text.encodeChars
          (Text.joinLines (first :: es.map Headers.fieldLine) ++ ['\r', '\n']) ++ rest) =
        some (Text.encodeChars head, rest) := by
  refine splitHead?_encode_joinLines (List.cons_ne_nil _ _) (fun l hl => ?_) rest
  rcases List.mem_cons.1 hl with rfl | hl
  · exact ⟨hfirst, hne⟩
  · obtain ⟨e, he, rfl⟩ := List.mem_map.1 hl
    exact ⟨(hf e he).oneLine_fieldLine, Headers.fieldLine_ne_nil e⟩

end Raop
