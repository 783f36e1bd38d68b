/-
# Trimmed texts and words

Trimming takes a text out of its middle and changes nothing the second time:
what is left neither begins nor ends with white space, and there is nothing but
white space around it (`trimChars_eq_iff`).

Words hold no white space, and words that are written with white space between
them are read back (`wordsChars_append_blank`), so that the words of a text are
what is left without the white space (`wordsChars_eq_iff`).

Key definitions: `Trailed`, `Padded`, `Word`, `WordsOf`.
Key theorems: `dropEndWhile_eq_iff`, `trimEndOf_eq_iff`, `trimChars_eq_iff`,
`trimChars_eq_self_iff`, `trimChars_trimChars`, `trimChars_of_word`, `word_of_mem_wordsChars`,
`wordsChars_append_blank`, `wordsChars_of_word`, `wordsChars_eq_iff`.
-/
import Mathlib.Data.List.DropRight
import Raop.Proofs.Text.Split

namespace Raop.Text

theorem dropEndWhile_eq {α : Type} (p : α → Bool) (xs : List α) :
    dropEndWhile p xs = xs.rdropWhile p := rfl

/-- What is dropped at the end is all that satisfies `p` there, and no more. -/
theorem dropEndWhile_eq_iff {α : Type} {p : α → Bool} {xs ys : List α} :
    dropEndWhile p xs = ys ↔
      ∃ ts, xs = ys ++ ts ∧ (∀ t ∈ ts, p t = true) ∧ ∀ y ∈ ys.getLast?, p y = false := by
  rw [dropEndWhile_eq]
  constructor
  · rintro rfl
    refine ⟨xs.rtakeWhile p, List.rdropWhile_append_rtakeWhile.symm,
      fun t ht => List.mem_rtakeWhile_imp ht, fun y hy => ?_⟩
    obtain ⟨hne, rfl⟩ := List.mem_getLast?_eq_getLast hy
    exact Bool.eq_false_iff.2 (List.rdropWhile_last_not p xs hne)
  · rintro ⟨ts, rfl, hts, hlast⟩
    induction ts using List.reverseRecOn with
    | nil =>
      rw [List.append_nil, List.rdropWhile_eq_self_iff]
      exact fun hne => by simp [hlast _ (List.getLast?_eq_getLast_of_ne_nil hne)]
    | append_singleton ts t ih =>
      rw [← List.append_assoc, List.rdropWhile_concat_pos p _ t (hts t (by simp))]
      exact ih fun u hu => hts u (List.mem_append_left _ hu)

/-- A text with copies of a character behind its front, which does not end with one. -/
def Trailed (c : Char) (text front : List Char) : Prop :=
  ∃ n, text = front ++ List.replicate n c ∧ front.getLast? ≠ some c

/-- The copies of a character at the end are dropped, and all of them. -/
theorem trimEndOf_eq_iff {c : Char} {cs front : List Char} :
    trimEndOf c cs = front ↔ Trailed c cs front := by
  rw [trimEndOf, dropEndWhile_eq_iff]
  constructor
  · rintro ⟨ts, rfl, hts, hlast⟩
    have hall : ts = List.replicate ts.length c :=
      List.eq_replicate_of_mem fun d hd => beq_iff_eq.1 (hts d hd)
    refine ⟨ts.length, by rw [← hall], fun hc => ?_⟩
    simpa using hlast c hc
  · rintro ⟨n, rfl, hlast⟩
    refine ⟨_, rfl, fun d hd => by simp [List.eq_of_mem_replicate hd], fun d hd => ?_⟩
    rw [beq_eq_false_iff_ne]
    rintro rfl
    exact hlast hd

theorem trimEndOf_eq_self_iff {c : Char} {cs : List Char} : trimEndOf c cs = cs ↔ cs.getLast? ≠ some c := by
  rw [trimEndOf_eq_iff]
  exact ⟨fun ⟨_, _, hlast⟩ => hlast, fun hlast => ⟨0, by simp, hlast⟩⟩

/-- Copies of a character behind another one are dropped as they are by themselves. -/
theorem trimEndOf_append_cons {c d : Char} (h : d ≠ c) (front cs : List Char) :
    trimEndOf c (front ++ d :: cs) = front ++ d :: trimEndOf c cs := by
  obtain ⟨n, hcs, hlast⟩ := trimEndOf_eq_iff.1 (rfl : trimEndOf c cs = _)
  refine trimEndOf_eq_iff.2 ⟨n, ?_, ?_⟩
  · rw [List.append_assoc, List.cons_append, ← hcs]
  · rw [List.getLast?_append_of_ne_nil _ (List.cons_ne_nil _ _)]
    cases hrest : trimEndOf c cs with
    | nil => simpa using h
    | cons e rest =>
      rw [List.getLast?_cons_cons, ← hrest]
      exact hlast

/-- One more copy at the end makes no difference. -/
theorem trimEndOf_concat (c : Char) (cs : List Char) : trimEndOf c (cs ++ [c]) = trimEndOf c cs := by
  obtain ⟨n, hcs, hlast⟩ := trimEndOf_eq_iff.1 (rfl : trimEndOf c cs = _)
  refine trimEndOf_eq_iff.2 ⟨n + 1, ?_, hlast⟩
  conv_lhs => rw [hcs]
  rw [List.append_assoc, ← List.replicate_succ']

/-! ### Trimming -/

/-- A text with white space around its middle, which neither begins nor ends with any. -/
def Padded (text middle : List Char) : Prop :=
  ∃ lead trail, text = lead ++ (middle ++ trail) ∧ (∀ c ∈ lead, isBlank c = true) ∧
    (∀ c ∈ trail, isBlank c = true) ∧ (∀ c ∈ middle.head?, isBlank c = false) ∧
    ∀ c ∈ middle.getLast?, isBlank c = false

/-- Trimming leaves the middle of a text. -/
theorem trimChars_eq_iff {text middle : List Char} : trimChars text = middle ↔ Padded text middle := by
  constructor
  · rintro rfl
    obtain ⟨htext, hlead, hhead⟩ :=
      takeWhile_dropWhile_iff.1 ⟨(rfl : text.takeWhile isBlank = _), rfl⟩
    obtain ⟨trail, hbody, htrail, hlast⟩ :=
      dropEndWhile_eq_iff.1 (rfl : dropEndWhile isBlank (text.dropWhile isBlank) = _)
    refine ⟨_, trail, htext.trans (congrArg _ hbody), hlead, htrail, fun c hc => hhead c ?_, hlast⟩
    -- what is left begins as what stood behind the lead
    obtain ⟨rest, hrest⟩ := List.head?_eq_some_iff.1 hc
    rw [hbody, show dropEndWhile isBlank (text.dropWhile isBlank) = c :: rest from hrest]
    rfl
  · rintro ⟨lead, trail, rfl, hlead, htrail, hhead, hlast⟩
    rw [trimChars, List.dropWhile_append_of_pos hlead]
    cases middle with
    | nil =>
      have hnil : trail.dropWhile isBlank = [] := List.dropWhile_eq_nil_iff.2 htrail
      rw [List.nil_append, hnil]
      rfl
    | cons c middle =>
      have hc : ¬ isBlank c = true := by simp [hhead c rfl]
      rw [List.cons_append, List.dropWhile_cons_of_neg hc]
      exact dropEndWhile_eq_iff.2 ⟨trail, rfl, htrail, hlast⟩

theorem trimChars_part (cs : List Char) : trimChars cs <:+: cs := by
  have hend : trimChars cs <+: cs.dropWhile isBlank := List.rdropWhile_prefix isBlank _
  exact hend.isInfix.trans (List.dropWhile_suffix isBlank).isInfix

theorem trimChars_cons_blank {c : Char} (cs : List Char) (h : isBlank c = true) :
    trimChars (c :: cs) = trimChars cs := by
  rw [trimChars, trimChars, List.dropWhile_cons_of_pos h]

/-- A text is trimmed just if it neither begins nor ends with white space. -/
theorem trimChars_eq_self_iff {cs : List Char} :
    trimChars cs = cs ↔
      (∀ c ∈ cs.head?, isBlank c = false) ∧ ∀ c ∈ cs.getLast?, isBlank c = false := by
  rw [trimChars_eq_iff]
  constructor
  · rintro ⟨-, -, -, -, -, hhead, hlast⟩
    exact ⟨hhead, hlast⟩
  · rintro ⟨hhead, hlast⟩
    exact ⟨[], [], by simp, by simp, by simp, hhead, hlast⟩

/-- Trimming twice is trimming once. -/
theorem trimChars_trimChars (cs : List Char) : trimChars (trimChars cs) = trimChars cs := by
  obtain ⟨-, -, -, -, -, hhead, hlast⟩ := trimChars_eq_iff.1 (rfl : trimChars cs = trimChars cs)
  exact trimChars_eq_self_iff.2 ⟨hhead, hlast⟩

/-! ### Words -/

/-- A nonempty text without white space. -/
def Word (cs : List Char) : Prop := cs ≠ [] ∧ ∀ c ∈ cs, isBlank c = false

instance (cs : List Char) : Decidable (Word cs) :=
  decidable_of_iff (cs ≠ [] ∧ cs.all fun c => !isBlank c) (by simp [Word])

/-- A visible ASCII character is no white space. -/
theorem isBlank_of_visible {c : Char} (h : 33 ≤ c.toNat ∧ c.toNat ≤ 126) : isBlank c = false := by
  simp only [isBlank, Bool.or_eq_false_iff, Bool.and_eq_false_iff, decide_eq_false_iff_not]
  omega

theorem isBlank_of_isDigit {c : Char} (h : c.isDigit = true) : isBlank c = false := by
  obtain ⟨hlo, hhi⟩ := Char.isDigit_iff_toNat.mp h
  exact isBlank_of_visible ⟨Nat.le_trans (by decide) hlo, Nat.le_trans hhi (by decide)⟩

theorem isBlank_of_isNameChar {c : Char} (h : isNameChar c = true) : isBlank c = false := by
  have hcases : (((c.isUpper || c.isLower) || c.isDigit) || c == '_') || c == '-' := h
  simp only [Bool.or_eq_true, beq_iff_eq] at hcases
  rcases hcases with (((h | h) | h) | rfl) | rfl
  · have hupper : 'A'.val ≤ c.val ∧ c.val ≤ 'Z'.val := of_decide_eq_true h
    simp only [UInt32.le_iff_toNat_le] at hupper
    exact isBlank_of_visible ⟨Nat.le_trans (by decide) hupper.1, Nat.le_trans hupper.2 (by decide)⟩
  · have hlower : (decide ('a'.val ≤ c.val) && decide (c.val ≤ 'z'.val)) = true := h
    simp only [Bool.and_eq_true, decide_eq_true_eq, UInt32.le_iff_toNat_le] at hlower
    exact isBlank_of_visible ⟨Nat.le_trans (by decide) hlower.1, Nat.le_trans hlower.2 (by decide)⟩
  · exact isBlank_of_isDigit h
  · decide
  · decide

/-- A name is a word. -/
theorem word_of_isName {cs : List Char} (h : isName cs = true) : Word cs := by
  simp only [isName, Bool.and_eq_true, Bool.not_eq_true', List.isEmpty_eq_false_iff,
    List.all_eq_true] at h
  exact ⟨h.1, fun c hc => isBlank_of_isNameChar (h.2 c hc)⟩

theorem trimChars_of_word {cs : List Char} (h : Word cs) : trimChars cs = cs :=
  trimChars_eq_self_iff.2 ⟨fun c hc => h.2 c (List.mem_of_mem_head? hc),
    fun c hc => h.2 c (List.mem_of_getLast? hc)⟩

theorem wordsChars_cons_blank {c : Char} (cs : List Char) (h : isBlank c = true) :
    wordsChars (c :: cs) = wordsChars cs := by
  simp only [wordsChars, List.foldr_cons, h, if_true, List.isEmpty_nil]

/-- A character in front of white space, or at the end, is a word. -/
theorem wordsChars_cons_end {c : Char} {cs : List Char} (h : isBlank c = false)
    (hcs : ∀ d ∈ cs.head?, isBlank d = true) : wordsChars (c :: cs) = [c] :: wordsChars cs := by
  cases cs with
  | nil => simp [wordsChars, h]
  | cons d cs =>
    have hd := hcs d rfl
    rw [wordsChars_cons_blank cs hd]
    simp [wordsChars, h, hd]

/-- A character in front of a word belongs to it. -/
theorem wordsChars_cons_word {c d : Char} {cs w : List Char} {ws : List (List Char)}
    (h : isBlank c = false) (hd : isBlank d = false) (hw : wordsChars (d :: cs) = w :: ws) :
    wordsChars (c :: d :: cs) = (c :: w) :: ws := by
  simp only [wordsChars, List.foldr_cons, h, hd, Bool.false_eq_true, if_false, List.isEmpty_cons] at hw ⊢
  obtain ⟨rfl, rfl⟩ := List.cons.inj hw
  rfl

/-- A word in front of white space, or at the end, is read back. -/
theorem wordsChars_append {w cs : List Char} (h : Word w)
    (hcs : ∀ d ∈ cs.head?, isBlank d = true) : wordsChars (w ++ cs) = w :: wordsChars cs := by
  obtain ⟨hne, hb⟩ := h
  induction w with
  | nil => exact absurd rfl hne
  | cons c w ih =>
    have hc := hb c List.mem_cons_self
    cases w with
    | nil => exact wordsChars_cons_end hc hcs
    | cons d w =>
      have hd := hb d (List.mem_cons_of_mem _ List.mem_cons_self)
      exact wordsChars_cons_word hc hd (ih (by simp) fun x hx => hb x (List.mem_cons_of_mem _ hx))

/-- A word with white space behind it is read, and the words behind it. -/
theorem wordsChars_append_blank {w : List Char} {b : Char} (cs : List Char) (h : Word w)
    (hb : isBlank b = true) : wordsChars (w ++ b :: cs) = w :: wordsChars cs := by
  rw [wordsChars_append h (by simpa using hb), wordsChars_cons_blank cs hb]

theorem wordsChars_of_word {w : List Char} (h : Word w) : wordsChars w = [w] := by
  have happ : wordsChars (w ++ []) = w :: wordsChars [] := wordsChars_append h (by simp)
  rwa [List.append_nil] at happ

/-- Words hold no white space. -/
theorem word_of_mem_wordsChars {cs w : List Char} (h : w ∈ wordsChars cs) : Word w := by
  induction cs generalizing w with
  | nil => cases h
  | cons c cs ih =>
    cases hc : isBlank c with
    | true =>
      rw [wordsChars_cons_blank cs hc] at h
      exact ih h
    | false =>
      by_cases hd : ∀ d ∈ cs.head?, isBlank d = true
      · rw [wordsChars_cons_end hc hd, List.mem_cons] at h
        rcases h with rfl | h
        · exact ⟨by simp, by simpa using hc⟩
        · exact ih h
      · cases cs with
        | nil => exact absurd (by simp) hd
        | cons d cs =>
          have hd : isBlank d = false := by simpa using hd
          have hne : wordsChars (d :: cs) ≠ [] := by
            by_cases he : ∀ e ∈ cs.head?, isBlank e = true
            · simp [wordsChars_cons_end hd he]
            · simp [wordsChars, hd]
          obtain ⟨v, vs, hv⟩ := List.exists_cons_of_ne_nil hne
          rw [hv] at ih
          rw [wordsChars_cons_word hc hd hv, List.mem_cons] at h
          rcases h with rfl | h
          · have hword := ih List.mem_cons_self
            refine ⟨by simp, ?_⟩
            rw [List.forall_mem_cons]
            exact ⟨hc, hword.2⟩
          · exact ih (List.mem_cons_of_mem _ h)

/-- The words of a text, with white space in front of them, between them and behind them. -/
inductive WordsOf : List Char → List (List Char) → Prop
  | none {gap : List Char} : (∀ c ∈ gap, isBlank c = true) → WordsOf gap []
  | word {gap w rest : List Char} {ws : List (List Char)} :
    (∀ c ∈ gap, isBlank c = true) → Word w → (∀ c ∈ rest.head?, isBlank c = true) →
      WordsOf rest ws → WordsOf (gap ++ (w ++ rest)) (w :: ws)

theorem wordsChars_append_gap {gap : List Char} (cs : List Char) (h : ∀ c ∈ gap, isBlank c = true) :
    wordsChars (gap ++ cs) = wordsChars cs := by
  induction gap with
  | nil => rfl
  | cons c gap ih =>
    rw [List.cons_append, wordsChars_cons_blank _ (h c List.mem_cons_self)]
    exact ih fun d hd => h d (List.mem_cons_of_mem _ hd)

theorem WordsOf.eq {cs : List Char} {ws : List (List Char)} (h : WordsOf cs ws) :
    wordsChars cs = ws := by
  induction h with
  | @none gap hgap =>
    have := wordsChars_append_gap [] hgap
    rwa [List.append_nil] at this
  | word hgap hw hrest _ ih => rw [wordsChars_append_gap _ hgap, wordsChars_append hw hrest, ih]

/-- Every text falls into words. -/
theorem exists_wordsOf (cs : List Char) : ∃ ws, WordsOf cs ws := by
  induction hn : cs.length using Nat.strongRecOn generalizing cs with
  | ind n ih =>
    cases hbody : cs.dropWhile isBlank with
    | nil =>
      obtain ⟨hcs, hgap, -⟩ := takeWhile_dropWhile_iff.1 ⟨rfl, hbody⟩
      rw [List.append_nil] at hcs
      exact ⟨[], hcs ▸ .none hgap⟩
    | cons c body =>
      obtain ⟨hcs, hgap, hc⟩ := takeWhile_dropWhile_iff.1 ⟨rfl, hbody⟩
      have hc : isBlank c = false := hc c rfl
      -- the first word ends at the next white space
      generalize hword : body.takeWhile (fun d => !isBlank d) = word
      generalize hrest : body.dropWhile (fun d => !isBlank d) = rest
      obtain ⟨hb, hrun, hend⟩ := takeWhile_dropWhile_iff.1 ⟨hword, hrest⟩
      have hw : Word (c :: word) :=
        ⟨List.cons_ne_nil _ _, List.forall_mem_cons.2 ⟨hc, fun d hd => by simpa using hrun d hd⟩⟩
      have hblank : ∀ d ∈ rest.head?, isBlank d = true := fun d hd => by simpa using hend d hd
      have hlt : rest.length < n := by
        have hlen := congrArg List.length hcs
        rw [hb, List.length_append, List.length_cons, List.length_append] at hlen
        omega
      obtain ⟨ws, hws⟩ := ih _ hlt rest rfl
      refine ⟨(c :: word) :: ws, ?_⟩
      rw [hcs, hb]
      exact .word hgap hw hblank hws

theorem wordsChars_eq_iff {cs : List Char} {ws : List (List Char)} :
    wordsChars cs = ws ↔ WordsOf cs ws := by
  refine ⟨?_, WordsOf.eq⟩
  rintro rfl
  obtain ⟨ws, h⟩ := exists_wordsOf cs
  rwa [h.eq]

end Raop.Text
