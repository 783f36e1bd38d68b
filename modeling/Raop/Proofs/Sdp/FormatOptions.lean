/-
# Where the options of a stream come from

The scan of a description takes the format index from the last options line and
the options from the last options line that has some. These need not be the
same line: the options of another format stay in force when the line of the
announced format has none. So an accepted description has a line of options of
its own exactly when the line its options were taken from is of its own format,
or when an earlier line of its own format happens to have the same options.

Key definitions: `SdpLine.formatOptions?`, `Scan.optionLines`, `Scan.note`.
Key theorems: `Scan.addAttribute_cases`, `Scan.add_cases`, `Scan.foldlM_add`,
`Scan.options_foldl_note`, `StreamDescription.source_of_options`.
-/
import Mathlib.Control.Monad.Basic
import Mathlib.Data.List.Induction
import Raop.Sdp.Stream

namespace Raop

/-- The format index and the options of a line, if it is an options line. -/
def SdpLine.formatOptions? (line : SdpLine) : Option (UInt32 × List String) :=
  if line.kind = 'a' then
    match SdpLine.splitAttribute line.value with
    | .ok (name, value) => if name = "fmtp" then (SdpLine.fmtp value).toOption else none
    | .error _ => none
  else none

namespace Scan

/-- The options lines of a body, in order. -/
def optionLines (body : String) : List (UInt32 × List String) :=
  match SdpLine.parseAll body with
  | .ok lines => lines.filterMap SdpLine.formatOptions?
  | .error _ => []

/-- What an options line does to the index and the options that count. -/
def note (counted : Option UInt32 × Option (List String)) (line : UInt32 × List String) :
    Option UInt32 × Option (List String) :=
  (some line.1, if line.2.isEmpty then counted.2 else some line.2)

theorem snd_note (counted : Option UInt32 × Option (List String)) (line : UInt32 × List String) :
    (note counted line).2 = if line.2.isEmpty then counted.2 else some line.2 := rfl

/-! ### One line and all lines -/

/-- What an attribute that is taken does: an options line counts, a key is kept, and any other leaves both
as they are. -/
theorem addAttribute_cases {s s' : Scan} {name : String} {value : List Char}
    (h : s.addAttribute name value = .ok s') :
    (name = "fmtp" ∧ ∃ line, SdpLine.fmtp value = .ok line ∧ s' = { s with
        fmtp := (note (s.fmtp, s.options) line).1, options := (note (s.fmtp, s.options) line).2 }) ∨
    (name = "rsaaeskey" ∧ s' = { s with wrappedKey := some (String.ofList value) }) ∨
    name ≠ "fmtp" ∧ name ≠ "rsaaeskey" ∧
      ∃ lossless iv minLatency, s' = { s with lossless, iv, minLatency } := by
  unfold addAttribute at h
  split at h
  · next hn =>
    refine .inr (.inr ⟨by simp [hn], by simp [hn], ?_⟩)
    split at h
    · cases h
    · obtain rfl := Except.ok.inj h
      split <;> exact ⟨_, _, _, rfl⟩
  · split at h
    · next hn =>
      split at h
      · cases h
      · next index options hline =>
        obtain rfl := Except.ok.inj h
        exact .inl ⟨hn, _, hline, rfl⟩
    · next hfmtp =>
      split at h
      · next hn => exact .inr (.inl ⟨hn, (Except.ok.inj h).symm⟩)
      · next hkey =>
        refine .inr (.inr ⟨hfmtp, hkey, ?_⟩)
        -- the attributes that are left have fields of their own
        split at h
        · obtain rfl := Except.ok.inj h
          exact ⟨_, _, _, rfl⟩
        · split at h <;> obtain rfl := Except.ok.inj h <;> exact ⟨_, _, _, rfl⟩

/-- What a line that is taken does: an attribute as it says, and any other line nothing but to the index
of the audio. -/
theorem add_cases {s s' : Scan} {line : SdpLine} (h : s.add line = .ok s') :
    (line.kind = 'a' ∧ ∃ name value, SdpLine.splitAttribute line.value = .ok (name, value) ∧
      s.addAttribute name value = .ok s') ∨
    line.kind ≠ 'a' ∧ ∃ audio, s' = { s with audio } := by
  unfold add at h
  split at h
  · next hm =>
    refine .inr ⟨by simp [hm], ?_⟩
    cases hmedia : SdpLine.media line.value with
    | error e => simp [hmedia, Except.map] at h
    | ok index =>
      rw [hmedia] at h
      exact ⟨_, (Except.ok.inj h).symm⟩
  · split at h
    · next ha =>
      split at h
      · cases h
      · next name value hsplit => exact .inl ⟨ha, name, value, hsplit, h⟩
    · next ha => exact .inr ⟨ha, s.audio, (Except.ok.inj h).symm⟩

theorem add_eq_note {s s' : Scan} {line : SdpLine} (h : s.add line = .ok s') :
    (s'.fmtp, s'.options) = (line.formatOptions?.toList).foldl note (s.fmtp, s.options) := by
  unfold SdpLine.formatOptions?
  rcases add_cases h with ⟨ha, name, value, hsplit, hadd⟩ | ⟨ha, audio, rfl⟩
  · rw [if_pos ha, hsplit]
    rcases addAttribute_cases hadd with
      ⟨rfl, entry, hentry, rfl⟩ | ⟨rfl, rfl⟩ | ⟨hfmtp, -, _, _, _, rfl⟩
    · simp [hentry, Except.toOption]
    · rfl
    · simp [hfmtp]
  · rw [if_neg ha]
    rfl

/-- The index and the options of a scan are what its options lines make of them. -/
theorem foldlM_add : ∀ {lines : List SdpLine} {s s' : Scan}, lines.foldlM add s = .ok s' →
    (s'.fmtp, s'.options) =
      (lines.filterMap SdpLine.formatOptions?).foldl note (s.fmtp, s.options)
  | [], s, s', h => by
    obtain rfl := Except.ok.inj h
    rfl
  | line :: lines, s, s', h => by
    rw [List.foldlM_cons] at h
    cases hadd : s.add line with
    | error e =>
      rw [hadd] at h
      exact absurd h (by simp [bind, Except.bind])
    | ok s₁ =>
      rw [hadd] at h
      have hline := add_eq_note hadd
      have hrest := foldlM_add h
      rw [hrest, hline, ← List.foldl_append]
      cases hl : line.formatOptions? <;> simp [hl]

/-! ### The last line counts, and the last with options -/

theorem index_foldl_note (l : List (UInt32 × List String)) :
    (l.foldl note (none, none)).1 = l.getLast?.map (·.1) := by
  induction l using List.reverseRecOn with
  | nil => rfl
  | append_singleton l e _ => simp [note]

theorem options_foldl_note (l : List (UInt32 × List String)) {options : List String}
    (h : (l.foldl note (none, none)).2 = some options) :
    ∃ before index after, l = before ++ (index, options) :: after ∧ options ≠ [] ∧
      ∀ e ∈ after, e.2 = [] := by
  induction l using List.reverseRecOn with
  | nil => simp at h
  | append_singleton l e ih =>
    rw [List.foldl_append, List.foldl_cons, List.foldl_nil, snd_note] at h
    by_cases he : e.2 = []
    · obtain ⟨before, index, after, rfl, hne, hafter⟩ := ih (by simpa [he] using h)
      refine ⟨before, index, after ++ [e], by simp, hne, ?_⟩
      intro x hx
      rcases List.mem_append.mp hx with hx | hx
      · exact hafter x hx
      · rw [List.mem_singleton.mp hx]
        exact he
    · have hoptions : e.2 = options := by simpa [he] using h
      refine ⟨l, e.1, [], by simp [← hoptions], hoptions ▸ he, by simp⟩

theorem format_eq_ok {s : Scan} {index : UInt32} {options : List String}
    (h : s.format = .ok (index, options)) : s.fmtp = some index ∧ s.options = some options := by
  unfold format at h
  split at h
  · simp at h
  · split at h
    · simp at h
    · rename_i hfmtp
      split at h
      · rename_i i o haudio hoptions
        simp only [Except.ok.injEq, Prod.mk.injEq] at h
        obtain ⟨rfl, rfl⟩ := h
        exact ⟨(not_not.mp hfmtp).symm.trans haudio, hoptions⟩
      · simp at h

end Scan

namespace StreamDescription

open Scan

theorem format_of_parse {body : String} {key : Option PrivateKey} {d : StreamDescription}
    (h : parse body key = .ok d) :
    ∃ s, ofBody body = .ok s ∧ s.format = .ok (d.formatIndex, d.options) := by
  unfold parse at h
  split at h
  · simp at h
  · rename_i s hscan
    split at h
    · simp at h
    · rename_i index options hformat
      refine ⟨s, hscan, ?_⟩
      cases hkeys : s.keys key with
      | error e => simp [hkeys, Except.map] at h
      | ok keys =>
        rw [hkeys] at h
        obtain rfl := Except.ok.inj h
        exact hformat

/-- **The options are those of the last options line that has some.** Its index is not looked at: the
format index is that of the last options line of all. So the options belong to the announced format
exactly if that line is of this format, or repeats the options of an earlier line that is. -/
theorem source_of_options {body : String} {key : Option PrivateKey} {d : StreamDescription}
    (h : parse body key = .ok d) :
    ∃ before index after, optionLines body = before ++ (index, d.options) :: after ∧
      d.options ≠ [] ∧ (∀ e ∈ after, e.2 = []) ∧
      (optionLines body).getLast?.map (·.1) = some d.formatIndex ∧
      ((d.formatIndex, d.options) ∈ optionLines body ↔
        index = d.formatIndex ∨ (d.formatIndex, d.options) ∈ before) := by
  obtain ⟨s, hscan, hformat⟩ := format_of_parse h
  obtain ⟨hfmtp, hoptions⟩ := format_eq_ok hformat
  have hnote : (s.fmtp, s.options) = (optionLines body).foldl note (none, none) := by
    unfold ofBody at hscan
    unfold optionLines
    split at hscan
    · simp at hscan
    · rename_i lines hlines
      rw [hlines]
      exact foldlM_add hscan
  have hindex : (optionLines body).getLast?.map (·.1) = some d.formatIndex := by
    rw [← index_foldl_note, ← hnote, ← hfmtp]
  obtain ⟨before, index, after, hlines, hne, hafter⟩ :=
    options_foldl_note (optionLines body) (by rw [← hnote, ← hoptions])
  refine ⟨before, index, after, hlines, hne, hafter, hindex, ?_⟩
  have hout : (d.formatIndex, d.options) ∉ after := fun hm => hne (hafter _ hm)
  rw [hlines, List.mem_append, List.mem_cons, Prod.mk.injEq]
  constructor
  · rintro (hm | ⟨hi, -⟩ | hm)
    · exact Or.inr hm
    · exact Or.inl hi.symm
    · exact absurd hm hout
  · rintro (hi | hm)
    · exact Or.inr (Or.inl ⟨hi.symm, rfl⟩)
    · exact Or.inl hm

/-- The line of the announced format has no options, that of another format has some. -/
def strayOptions : String :=
  "m=audio 0 RTP/AVP 97\r\na=rtpmap:97 AppleLossless\r\na=fmtp:96 352\r\na=fmtp:97\r\n"

def strayDescription : StreamDescription :=
  { formatIndex := 97, options := ["352"], keys := none, minLatency := none }

theorem source_of_strayOptions :
    parse strayOptions none = .ok strayDescription ∧
      ∃ before index after,
        optionLines strayOptions = before ++ (index, strayDescription.options) :: after ∧
        strayDescription.options ≠ [] ∧ (∀ e ∈ after, e.2 = []) ∧
        (optionLines strayOptions).getLast?.map (·.1) = some strayDescription.formatIndex ∧
        ((strayDescription.formatIndex, strayDescription.options) ∈ optionLines strayOptions ↔
          index = strayDescription.formatIndex ∨
            (strayDescription.formatIndex, strayDescription.options) ∈ before) := by
  have hparse : parse strayOptions none = .ok strayDescription := by decide +kernel
  exact ⟨hparse, source_of_options hparse⟩

/-- A stream is accepted with options that no line of its format has. -/
theorem options_of_another_format :
    ¬ ∀ (body : String) (key : Option PrivateKey) (d : StreamDescription),
      parse body key = .ok d → (d.formatIndex, d.options) ∈ optionLines body := by
  intro hall
  have hmem := hall strayOptions none strayDescription (by decide +kernel)
  revert hmem
  decide +kernel

end StreamDescription
end Raop
