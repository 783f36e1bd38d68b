/-
# Header fields and the log of their edits

Fields are stored and removed one by one, and collected or read anew. The log
of the edits forgets what was done before the fields began anew, and nothing
else (`Headers.logOf`). What the fields are can be read off the log alone: there
is one for each name whose last edit stored it, spelled and with the value as
that edit has it, and they stand in the order in which their names were first
stored since they were last removed.

The invariant says just that (`Headers.Follows`). Every edit keeps it for the log
with the edit at its end, and collecting or reading is storing one by one.

Key definitions: `HeaderCall`, `HeaderEdit`, `Headers.logOf`, `Headers.ofCalls`, `Headers.latest`,
`Headers.entered`, `Headers.Follows`, `Headers.others`.
Key theorems: `Headers.entered_concat`, `Headers.entered_lt_iff`, `Headers.Follows.insert`,
`Headers.Follows.erase`, `Headers.ofCalls_eq`, `Headers.fields_as_logged`.
-/
import Mathlib.Data.List.DropRight
import Raop.Proofs.Lists
import Raop.Proofs.Message.Headers

namespace Raop

/-- What is done to header fields. -/
inductive HeaderCall where
  | insert (name value : String)
  | erase (name : String)
  /-- They are collected anew. -/
  | ofList (fields : List (String × String))
  /-- They are read anew, if every line is a field. -/
  | ofLines (lines : List (List Char))
  deriving DecidableEq, Repr

/-- What is done to one field. -/
inductive HeaderEdit where
  | store (name value : String)
  | remove (name : String)
  deriving DecidableEq, Repr

namespace HeaderEdit

/-- The name of the field, in lower case. -/
def key : HeaderEdit → List Char
  | store name _ => foldCase name
  | remove name => foldCase name

/-- A field of a name is stored. -/
def stores (k : List Char) : HeaderEdit → Bool
  | store name _ => foldCase name = k
  | remove _ => false

/-- The field of a name is removed. -/
def removes (k : List Char) : HeaderEdit → Bool
  | store _ _ => false
  | remove name => foldCase name = k

variable (k : List Char) (name value : String)

@[simp] theorem key_store : (store name value).key = foldCase name := rfl

@[simp] theorem key_remove : (remove name).key = foldCase name := rfl

@[simp] theorem stores_store : (store name value).stores k = decide (foldCase name = k) := rfl

@[simp] theorem stores_remove : (remove name).stores k = false := rfl

@[simp] theorem removes_store : (store name value).removes k = false := rfl

@[simp] theorem removes_remove : (remove name).removes k = decide (foldCase name = k) := rfl

end HeaderEdit

namespace Headers

variable {k : List Char} {log : List HeaderEdit} {name value : String}

/-! ### The log -/

/-- The last edit of a name. -/
def latest (k : List Char) (log : List HeaderEdit) : Option HeaderEdit :=
  (log.filter fun e => e.key = k).getLast?

/-- The place in a log at which a name was first stored since it was last removed; the end of the log, if
it was not. -/
def entered (k : List Char) (log : List HeaderEdit) : Nat :=
  let since := log.rtakeWhile fun e => !e.removes k
  log.length - since.length + since.findIdx fun e => e.stores k

theorem latest_concat (k : List Char) (log : List HeaderEdit) (e : HeaderEdit) :
    latest k (log ++ [e]) = if e.key = k then some e else latest k log := by
  simp only [latest, getLast?_filter_concat, decide_eq_true_eq]

theorem key_of_latest {e : HeaderEdit} (h : latest k log = some e) : e.key = k :=
  of_decide_eq_true (of_getLast?_filter h).2

theorem entered_concat (k : List Char) (log : List HeaderEdit) (e : HeaderEdit) :
    entered k (log ++ [e]) =
      if e.removes k then log.length + 1
      else if entered k log < log.length then entered k log
      else if e.stores k then log.length else log.length + 1 := by
  unfold entered
  cases hremoves : e.removes k with
  | true =>
    rw [List.rtakeWhile_concat_neg _ _ _ (by simp [hremoves])]
    simp
  | false =>
    have hle : (log.rtakeWhile fun e => !e.removes k).length ≤ log.length :=
      (List.rtakeWhile_suffix _ log).length_le
    rw [List.rtakeWhile_concat_pos _ _ _ (by simp [hremoves])]
    generalize log.rtakeWhile (fun e => !e.removes k) = since at hle ⊢
    simp only [List.length_append, List.length_singleton, List.findIdx_append, List.findIdx_singleton,
      Bool.false_eq_true, if_false]
    by_cases hheld : since.findIdx (fun e => e.stores k) < since.length
    · rw [if_pos hheld, if_pos (by omega)]
      omega
    · have hend : since.findIdx (fun e => e.stores k) = since.length :=
        Nat.le_antisymm List.findIdx_le_length (Nat.not_lt.1 hheld)
      have hnot : ¬log.length - since.length + since.length < log.length := by omega
      rw [if_neg hheld, hend, if_neg hnot]
      split <;> omega

/-- The names that have entered the log are those whose last edit stored them. -/
theorem entered_lt_iff : entered k log < log.length ↔
    ∃ name value, latest k log = some (.store name value) := by
  induction log using List.reverseRecOn with
  | nil => simp [latest, entered]
  | append_singleton log e ih =>
    rw [entered_concat, latest_concat, List.length_append, List.length_singleton]
    cases e with
    | store name value =>
      by_cases hk : foldCase name = k
      · simp [hk]
        split <;> omega
      · simp [hk, ← ih]
        split <;> omega
    | remove name =>
      by_cases hk : foldCase name = k
      · simp [hk]
      · simp [hk, ← ih]
        split <;> omega

/-! ### Fields of other names -/

/-- A field has another name. -/
def isOther (name : String) (e : String × String) : Bool := !sameName e.1 name

theorem isOther_iff {e : String × String} : isOther name e = true ↔ foldCase e.1 ≠ foldCase name := by
  rw [isOther, Bool.not_eq_true', ← Bool.not_eq_true, sameName_iff]

/-- The fields of other names. -/
def others (h : Headers) (name : String) : List (String × String) := h.entries.filter (isOther name)

theorem filter_store (name value : String) : ∀ es : List (String × String),
    (store name value es).filter (isOther name) = es.filter (isOther name)
  | [] => by simp [store, isOther_iff]
  | e :: es => by
    rw [store]
    by_cases h : sameName e.1 name = true
    · rw [if_pos h, List.filter_cons_of_neg (by simp [isOther_iff]),
        List.filter_cons_of_neg (by simp [isOther, h])]
    · have hother : isOther name e = true := by simpa [isOther] using h
      rw [if_neg h, List.filter_cons_of_pos hother, List.filter_cons_of_pos hother, filter_store]

theorem filter_discard (name : String) : ∀ es : List (String × String),
    (discard name es).filter (isOther name) = es.filter (isOther name)
  | [] => rfl
  | e :: es => by
    rw [discard]
    by_cases h : sameName e.1 name = true
    · rw [if_pos h, List.filter_cons_of_neg (by simp [isOther, h])]
    · have hother : isOther name e = true := by simpa [isOther] using h
      rw [if_neg h, List.filter_cons_of_pos hother, List.filter_cons_of_pos hother, filter_discard]

/-- Storing a field leaves those of other names as they are, in their order. -/
theorem others_insert (h : Headers) (name value : String) :
    (h.insert name value).others name = h.others name := filter_store name value h.entries

/-- Removing a field leaves those of other names as they are, in their order. -/
theorem others_erase (h : Headers) (name : String) : (h.erase name).others name = h.others name :=
  filter_discard name h.entries

/-- Of the names one is removed, and the others keep their order. -/
theorem names_discard (name : String) : ∀ es : List (String × String),
    names (discard name es) = (names es).erase (foldCase name)
  | [] => rfl
  | e :: es => by
    have hcons : names (e :: es) = foldCase e.1 :: names es := rfl
    rw [discard, hcons]
    by_cases h : sameName e.1 name = true
    · rw [if_pos h, sameName_iff.1 h, List.erase_cons_head]
    · rw [if_neg h, List.erase_cons_tail (by simpa [sameName] using h), ← names_discard name es]
      rfl

section Members

variable {e : String × String} {es fs : List (String × String)}

theorem mem_iff_of_filter (h : es.filter (isOther name) = fs.filter (isOther name))
    (hne : foldCase e.1 ≠ foldCase name) : e ∈ es ↔ e ∈ fs := by
  have hother := isOther_iff.2 hne
  have hmem : e ∈ es.filter (isOther name) ↔ e ∈ fs.filter (isOther name) :=
    iff_of_eq (congrArg (e ∈ ·) h)
  rwa [List.mem_filter, List.mem_filter, and_iff_left hother, and_iff_left hother] at hmem

/-- A field is stored instead of the one of its name. -/
theorem mem_store_iff (h : (names es).Nodup) :
    e ∈ store name value es ↔ e = (name, value) ∨ e ∈ es ∧ foldCase e.1 ≠ foldCase name := by
  have hself : (name, value) ∈ store name value es :=
    List.mem_of_find?_eq_some (find?_store_self name value es)
  by_cases hname : foldCase e.1 = foldCase name
  · rw [or_iff_left fun hold => hold.2 hname]
    refine ⟨fun he => ?_, fun he => he ▸ hself⟩
    exact List.inj_on_of_nodup_map (nodup_store name value h) he hself hname
  · rw [mem_iff_of_filter (filter_store name value es) hname, and_iff_left hname, or_iff_right]
    rintro rfl
    exact hname rfl

theorem mem_discard_iff (h : (names es).Nodup) :
    e ∈ discard name es ↔ e ∈ es ∧ foldCase e.1 ≠ foldCase name := by
  by_cases hname : foldCase e.1 = foldCase name
  · refine ⟨fun he => ?_, fun he => absurd hname he.2⟩
    have hkey : foldCase e.1 ∈ names (discard name es) := List.mem_map_of_mem he
    rw [names_discard, hname] at hkey
    exact absurd hkey h.not_mem_erase
  · rw [mem_iff_of_filter (filter_discard name es) hname, and_iff_left hname]

end Members

/-! ### The fields -/

/-- Fields are what the log of their edits says: their names stand in the order in which they entered
it, and each field is as its last edit stored it. -/
structure Follows (h : Headers) (log : List HeaderEdit) : Prop where
  ordered : (names h.entries).Pairwise fun a b => entered a log < entered b log
  mem_iff : ∀ e, e ∈ h.entries ↔ latest (foldCase e.1) log = some (.store e.1 e.2)

namespace Follows

variable {h : Headers}

theorem empty : Follows Headers.empty [] where
  ordered := List.Pairwise.nil
  mem_iff e := by simp [Headers.empty, latest]

theorem nodup (hf : h.Follows log) : (names h.entries).Nodup :=
  hf.ordered.imp fun hlt heq => absurd (heq ▸ hlt) (Nat.lt_irrefl _)

/-- There is a field of a name just if the name has entered the log. -/
theorem mem_names_iff (hf : h.Follows log) : k ∈ names h.entries ↔ entered k log < log.length := by
  rw [entered_lt_iff, names, List.mem_map]
  constructor
  · rintro ⟨e, he, rfl⟩
    exact ⟨e.1, e.2, (hf.mem_iff e).1 he⟩
  · rintro ⟨name, value, hlatest⟩
    have hname : foldCase name = k := key_of_latest hlatest
    exact ⟨(name, value), (hf.mem_iff _).2 (hname ▸ hlatest), hname⟩

/-- A name that is there keeps its place, unless it is removed. -/
theorem entered_concat (hf : h.Follows log) {e : HeaderEdit} (hk : k ∈ names h.entries)
    (he : e.removes k = false) : entered k (log ++ [e]) = entered k log := by
  simp [Headers.entered_concat, he, hf.mem_names_iff.1 hk]

/-- Storing a field keeps the fields what their log says. -/
theorem insert (hf : h.Follows log) (name value : String) :
    (h.insert name value).Follows (log ++ [.store name value]) where
  ordered := by
    have hold : (names h.entries).Pairwise fun a b =>
        entered a (log ++ [.store name value]) < entered b (log ++ [.store name value]) := by
      refine hf.ordered.imp_of_mem fun ha hb hlt => ?_
      rwa [hf.entered_concat ha rfl, hf.entered_concat hb rfl]
    show (names (store name value h.entries)).Pairwise _
    rw [names_store]
    split
    · exact hold
    · next hnew =>
      -- a new name enters where the log ended, behind all that were there
      have hend : entered (foldCase name) (log ++ [.store name value]) = log.length := by
        rw [hf.mem_names_iff] at hnew
        simp [Headers.entered_concat, hnew]
      refine List.pairwise_append.2 ⟨hold, List.pairwise_singleton _ _, fun a ha b hb => ?_⟩
      rw [List.mem_singleton.1 hb, hend, hf.entered_concat ha rfl]
      exact hf.mem_names_iff.1 ha
  mem_iff e := by
    have hstore : e ∈ (h.insert name value).entries ↔
        e = (name, value) ∨ e ∈ h.entries ∧ foldCase e.1 ≠ foldCase name := mem_store_iff hf.nodup
    rw [hstore, latest_concat, hf.mem_iff]
    obtain ⟨n, v⟩ := e
    by_cases hname : foldCase n = foldCase name
    · simp [hname, eq_comm]
    · have hne : (n, v) ≠ (name, value) := fun he => hname (congrArg foldCase (Prod.mk.inj he).1)
      have hkey : (HeaderEdit.store name value).key ≠ foldCase n := Ne.symm hname
      rw [if_neg hkey, or_iff_right hne, and_iff_left hname]

/-- Removing a field keeps the fields what their log says. -/
theorem erase (hf : h.Follows log) (name : String) :
    (h.erase name).Follows (log ++ [.remove name]) where
  ordered := by
    show (names (discard name h.entries)).Pairwise _
    rw [names_discard]
    refine (hf.ordered.sublist List.erase_sublist).imp_of_mem fun ha hb hlt => ?_
    obtain ⟨hane, ha⟩ := hf.nodup.mem_erase_iff.1 ha
    obtain ⟨hbne, hb⟩ := hf.nodup.mem_erase_iff.1 hb
    have hkept {k : List Char} (hk : k ≠ foldCase name) : (HeaderEdit.remove name).removes k = false :=
      decide_eq_false hk.symm
    rwa [hf.entered_concat ha (hkept hane), hf.entered_concat hb (hkept hbne)]
  mem_iff e := by
    have hdiscard : e ∈ (h.erase name).entries ↔ e ∈ h.entries ∧ foldCase e.1 ≠ foldCase name :=
      mem_discard_iff hf.nodup
    rw [hdiscard, latest_concat, hf.mem_iff]
    by_cases hname : foldCase e.1 = foldCase name
    · simp [hname]
    · have hkey : (HeaderEdit.remove name).key ≠ foldCase e.1 := Ne.symm hname
      rw [if_neg hkey, and_iff_left hname]

/-- What is found under a name, in any spelling, is what its last edit stored. -/
theorem get?_eq_some_iff (hf : h.Follows log) :
    h.get? name = some value ↔ ∃ spelling, latest (foldCase name) log = some (.store spelling value) := by
  rw [get?, Option.map_eq_some_iff]
  constructor
  · rintro ⟨e, hfound, rfl⟩
    have hname : foldCase e.1 = foldCase name := by
      simpa [sameName_iff] using List.find?_some hfound
    refine ⟨e.1, ?_⟩
    rw [← hname, ← hf.mem_iff]
    exact List.mem_of_find?_eq_some hfound
  · rintro ⟨spelling, hlatest⟩
    have hname : foldCase spelling = foldCase name := key_of_latest hlatest
    have hmem : (spelling, value) ∈ h.entries := (hf.mem_iff _).2 (hname ▸ hlatest)
    refine ⟨(spelling, value), find?_of_nodup hf.nodup hmem fun e => ?_, rfl⟩
    rw [sameName_iff, hname]

end Follows

/-! ### Calls -/

/-- The fields after an edit. -/
def edit (h : Headers) : HeaderEdit → Headers
  | .store name value => h.insert name value
  | .remove name => h.erase name

/-- The fields after the edits of a log. -/
def ofLog (log : List HeaderEdit) : Headers := log.foldl edit empty

theorem follows_ofLog (log : List HeaderEdit) : (ofLog log).Follows log := by
  induction log using List.reverseRecOn with
  | nil => exact Follows.empty
  | append_singleton log e ih =>
    rw [ofLog, List.foldl_concat]
    cases e with
    | store name value => exact ih.insert name value
    | remove name => exact ih.erase name

/-- The fields after a call; lines that are refused change nothing. -/
def call (h : Headers) : HeaderCall → Headers
  | .insert name value => h.insert name value
  | .erase name => h.erase name
  | .ofList fields => Headers.ofList fields
  | .ofLines lines =>
    match Headers.ofLines lines with
    | .ok read => read
    | .error _ => h

/-- The fields after some calls, of which there were none before. -/
def ofCalls (calls : List HeaderCall) : Headers := calls.foldl call empty

/-- Fields that are stored. -/
def stored (fields : List (String × String)) : List HeaderEdit := fields.map fun f => .store f.1 f.2

/-- The fields of lines, blank ones aside, if every other line is one. -/
def fieldsOf? (lines : List (List Char)) : Option (List (String × String)) :=
  (lines.filter (· ≠ [])).mapM fieldOfLine?

/-- The log after a call: one edit more, or the edits by which fields that are collected or read anew are
stored. -/
def logAfter (log : List HeaderEdit) : HeaderCall → List HeaderEdit
  | .insert name value => log ++ [.store name value]
  | .erase name => log ++ [.remove name]
  | .ofList fields => stored fields
  | .ofLines lines => ((fieldsOf? lines).map stored).getD log

/-- The log of some calls. -/
def logOf (calls : List HeaderCall) : List HeaderEdit := calls.foldl logAfter []

theorem ofLog_stored (fields : List (String × String)) : ofLog (stored fields) = ofList fields := by
  rw [ofLog, stored, List.foldl_map]
  rfl

theorem addLines_eq (h : Headers) (lines : List (List Char)) : (addLines h lines).toOption =
    (fieldsOf? lines).map fun fields => fields.foldl (fun h f => h.insert f.1 f.2) h := by
  induction lines generalizing h with
  | nil => rfl
  | cons line lines ih =>
    rw [addLines, fieldsOf?]
    cases line with
    | nil => exact ih h
    | cons c cs =>
      rw [if_neg (by simp), List.filter_cons_of_pos (by simp), List.mapM_cons]
      cases hfield : fieldOfLine? (c :: cs) with
      | none => rfl
      | some f =>
        show ((h.insert f.1 f.2).addLines lines).toOption = _
        rw [ih, fieldsOf?]
        cases (lines.filter (· ≠ [])).mapM fieldOfLine? <;> rfl

/-- The fields after some calls are those of the log. -/
theorem ofCalls_eq (calls : List HeaderCall) : ofCalls calls = ofLog (logOf calls) := by
  induction calls using List.reverseRecOn with
  | nil => rfl
  | append_singleton calls c ih =>
    rw [ofCalls, logOf, List.foldl_concat, List.foldl_concat, ← ofCalls, ← logOf, ih]
    cases c with
    | insert name value => rw [logAfter, ofLog, ofLog, List.foldl_concat]; rfl
    | erase name => rw [logAfter, ofLog, ofLog, List.foldl_concat]; rfl
    | ofList fields => exact (ofLog_stored fields).symm
    | ofLines lines =>
      have hread := addLines_eq empty lines
      rw [call, logAfter, Headers.ofLines]
      cases hlines : addLines empty lines with
      | error line =>
        rw [hlines] at hread
        rw [Option.map_eq_none_iff.1 hread.symm]
        rfl
      | ok read =>
        rw [hlines] at hread
        obtain ⟨fields, hfields, rfl⟩ := Option.map_eq_some_iff.1 hread.symm
        rw [hfields]
        exact (ofLog_stored fields).symm

/-- **Header fields are an insertion-ordered map.** After any calls no two names are equal up to case, and
the fields stand in the order in which their names were first stored since they were last removed; each
field is spelled and has the value as it was stored last, and is found so in every spelling. Storing or
removing a field changes neither the fields of other names nor their order. -/
theorem fields_as_logged (calls : List HeaderCall) :
    (names (ofCalls calls).entries).Nodup ∧
    ((names (ofCalls calls).entries).Pairwise fun a b =>
      entered a (logOf calls) < entered b (logOf calls)) ∧
    (∀ e, e ∈ (ofCalls calls).entries ↔
      latest (foldCase e.1) (logOf calls) = some (.store e.1 e.2)) ∧
    (∀ name value, (ofCalls calls).get? name = some value ↔
      ∃ spelling, latest (foldCase name) (logOf calls) = some (.store spelling value)) ∧
    ∀ name, (∀ value, ((ofCalls calls).insert name value).others name = (ofCalls calls).others name) ∧
      ((ofCalls calls).erase name).others name = (ofCalls calls).others name := by
  have hfollows : (ofCalls calls).Follows (logOf calls) := by
    rw [ofCalls_eq]
    exact follows_ofLog (logOf calls)
  exact ⟨hfollows.nodup, hfollows.ordered, hfollows.mem_iff,
    fun name value => hfollows.get?_eq_some_iff,
    fun name => ⟨fun value => others_insert _ name value, others_erase _ name⟩⟩

/-- A name that is stored again keeps its place, and one that was removed comes last. -/
example : (ofCalls [.ofList [("CSeq", "1"), ("Range", "npt=0-")], .insert "Session" "1", .erase "range",
      .insert "cseq" "2", .insert "RANGE" "npt=1-"]).entries =
    [("cseq", "2"), ("Session", "1"), ("RANGE", "npt=1-")] := by
  decide

end Headers
end Raop
