/-
# Which descriptions are accepted

The scan of a body takes its lines one after the other. What it does with a line
depends on nothing but what the line says (`Scan.added`): it refuses a line that
says nothing, and each part of what it knows of the format is what the last line
said that speaks of this part (`Scan.eq_lastSaid`). So the order of the lines
matters only where a part is spoken of twice.

In a body that has no media line, no options line and no line of the lossless
format twice, the three of them must be there with one index, the options must
not be empty, and every line must say something. Then the body is accepted with
this index, and only then (`StreamDescription.validate_eq_ok_iff`).

Key definitions: `Sdp.AtMostOne`, `Sdp.OnceEach`, `Sdp.Announces`, `Sdp.lastSaid`, `Scan.Takes`,
`Scan.Added`.
Key theorems: `Sdp.lastSaid_eq_some_iff`, `Scan.added`, `Scan.eq_lastSaid`,
`Scan.format_eq_ok_iff`, `StreamDescription.validate_of_linesOf`,
`StreamDescription.validate_eq_ok_iff`, `StreamDescription.validate_of_perm`.
-/
import Raop.Proofs.Sdp.FormatOptions
import Raop.Proofs.Sdp.Grammar

namespace Raop

namespace Sdp

/-! ### What is announced -/

/-- No two places of a list have the property. -/
def AtMostOne {α : Type} (p : α → Prop) (xs : List α) : Prop := xs.Pairwise fun a b => ¬ (p a ∧ p b)

/-- Each of the lines that the format depends on is there at most once. A malformed line is none of
them, as it says nothing. -/
structure OnceEach (lines : List (List Char)) : Prop where
  media : AtMostOne (fun line => ∃ n, Says line (.media n)) lines
  lossless : AtMostOne (fun line => ∃ n, Says line (.lossless n)) lines
  format : AtMostOne (fun line => ∃ n options, Says line (.format n options)) lines

/-- Well-formed lines that announce one format of the lossless encoding, with its options. -/
structure Announces (lines : List (List Char)) (index : UInt32) : Prop where
  formed : ∀ line ∈ lines, ∃ e, Says line e
  media : ∃ line ∈ lines, Says line (.media index)
  lossless : ∃ line ∈ lines, Says line (.lossless index)
  format : ∃ line ∈ lines, ∃ options, options ≠ [] ∧ Says line (.format index options)

theorem AtMostOne.imp {α : Type} {p q : α → Prop} {xs : List α} (h : AtMostOne p xs)
    (hpq : ∀ a, q a → p a) : AtMostOne q xs :=
  List.Pairwise.imp (fun hab hq => hab ⟨hpq _ hq.1, hpq _ hq.2⟩) h

theorem AtMostOne.eq {α : Type} {p : α → Prop} {xs : List α} (h : AtMostOne p xs) {a b : α}
    (ha : a ∈ xs) (hb : b ∈ xs) (hpa : p a) (hpb : p b) : a = b := by
  by_contra hne
  have : Std.Symm fun a b => ¬ (p a ∧ p b) := ⟨fun _ _ hab hba => hab ⟨hba.2, hba.1⟩⟩
  exact List.Pairwise.forall h ha hb hne ⟨hpa, hpb⟩

theorem AtMostOne.perm {α : Type} {p : α → Prop} {xs ys : List α} (h : AtMostOne p xs)
    (hperm : xs.Perm ys) : AtMostOne p ys :=
  List.Perm.pairwise hperm h fun hab hba => hab ⟨hba.2, hba.1⟩

/-- Where there is one value at most, it is the last. -/
theorem AtMostOne.getLast?_filterMap {α β : Type} {g : α → Option β} {xs : List α}
    (h : AtMostOne (fun a => (g a).isSome = true) xs) {b : β} :
    (xs.filterMap g).getLast? = some b ↔ ∃ a ∈ xs, g a = some b := by
  have hone : (xs.filterMap g).Pairwise fun _ _ => False :=
    List.Pairwise.filterMap g (fun a a' hne b hb b' hb' => hne (by simp [hb, hb'])) h
  rw [← List.mem_filterMap]
  generalize xs.filterMap g = ys at hone ⊢
  cases ys with
  | nil => simp
  | cons y ys =>
    cases ys with
    | nil => simp [eq_comm]
    | cons z ys => exact ((List.pairwise_cons.1 hone).1 z List.mem_cons_self).elim

/-! ### The last line that speaks of a part -/

namespace Entry

def media? : Entry → Option UInt32
  | media n => some n
  | _ => none

def lossless? : Entry → Option UInt32
  | lossless n => some n
  | _ => none

def index? : Entry → Option UInt32
  | format n _ => some n
  | _ => none

/-- The options of a format, if there are any. -/
def options? : Entry → Option (List String)
  | format _ options => if options.isEmpty then none else some options
  | _ => none

theorem media?_eq_some_iff {e : Entry} {n : UInt32} : e.media? = some n ↔ e = .media n := by
  cases e <;> simp [media?]

theorem lossless?_eq_some_iff {e : Entry} {n : UInt32} : e.lossless? = some n ↔ e = .lossless n := by
  cases e <;> simp [lossless?]

theorem index?_eq_some_iff {e : Entry} {n : UInt32} :
    e.index? = some n ↔ ∃ options, e = .format n options := by
  cases e <;> simp [index?]

theorem options?_eq_some_iff {e : Entry} {options : List String} :
    e.options? = some options ↔ ∃ n, e = .format n options ∧ options ≠ [] := by
  cases e with
  | format n os =>
    by_cases hos : os = []
    · rw [options?, hos]
      constructor
      · intro h
        cases h
      · rintro ⟨m, hm, hne⟩
        cases hm
        exact absurd rfl hne
    · rw [options?, List.isEmpty_eq_false_iff.2 hos]
      constructor
      · intro h
        cases h
        exact ⟨n, rfl, hos⟩
      · rintro ⟨m, hm, -⟩
        cases hm
        rfl
  | _ => simp [options?]

end Entry

/-- What the last line says that speaks of a part. -/
def lastSaid {α : Type} (said : Entry → Option α) (lines : List (List Char)) : Option α :=
  (lines.filterMap fun line => (said? line).bind said).getLast?

/-- Where the lines that speak of a part are of a kind that is there at most once, the last one is
any. -/
theorem lastSaid_eq_some_iff {α : Type} {said : Entry → Option α} {p : List Char → Prop}
    {lines : List (List Char)} (once : AtMostOne p lines)
    (hp : ∀ line e a, Says line e → said e = some a → p line) {a : α} :
    lastSaid said lines = some a ↔ ∃ line ∈ lines, ∃ e, Says line e ∧ said e = some a := by
  have hone : AtMostOne (fun line => ((said? line).bind said).isSome = true) lines := by
    refine once.imp fun line h => ?_
    obtain ⟨b, hb⟩ := Option.isSome_iff_exists.1 h
    obtain ⟨e, he, hb⟩ := Option.bind_eq_some_iff.1 hb
    exact hp line e b (said?_eq_some_iff.1 he) hb
  rw [lastSaid, hone.getLast?_filterMap]
  simp only [Option.bind_eq_some_iff, said?_eq_some_iff]

namespace OnceEach

variable {lines : List (List Char)}

theorem lastSaid_media (once : OnceEach lines) {n : UInt32} :
    lastSaid Entry.media? lines = some n ↔ ∃ line ∈ lines, Says line (.media n) := by
  have hp : ∀ line e m, Says line e → e.media? = some m → ∃ n, Says line (.media n) :=
    fun _ _ m he hm => ⟨m, Entry.media?_eq_some_iff.1 hm ▸ he⟩
  rw [lastSaid_eq_some_iff once.media hp]
  simp only [Entry.media?_eq_some_iff, exists_eq_right]

theorem lastSaid_lossless (once : OnceEach lines) {n : UInt32} :
    lastSaid Entry.lossless? lines = some n ↔ ∃ line ∈ lines, Says line (.lossless n) := by
  have hp : ∀ line e m, Says line e → e.lossless? = some m → ∃ n, Says line (.lossless n) :=
    fun _ _ m he hm => ⟨m, Entry.lossless?_eq_some_iff.1 hm ▸ he⟩
  rw [lastSaid_eq_some_iff once.lossless hp]
  simp only [Entry.lossless?_eq_some_iff, exists_eq_right]

theorem lastSaid_index (once : OnceEach lines) {n : UInt32} :
    lastSaid Entry.index? lines = some n ↔
      ∃ line ∈ lines, ∃ options, Says line (.format n options) := by
  have hp : ∀ line e m, Says line e → e.index? = some m → ∃ n options, Says line (.format n options) := by
    intro line e m he hm
    obtain ⟨options, rfl⟩ := Entry.index?_eq_some_iff.1 hm
    exact ⟨m, options, he⟩
  rw [lastSaid_eq_some_iff once.format hp]
  refine exists_congr fun line => and_congr_right fun _ => ⟨?_, ?_⟩
  · rintro ⟨e, he, hn⟩
    obtain ⟨options, rfl⟩ := Entry.index?_eq_some_iff.1 hn
    exact ⟨options, he⟩
  · rintro ⟨options, he⟩
    exact ⟨_, he, rfl⟩

theorem lastSaid_options (once : OnceEach lines) {options : List String} :
    lastSaid Entry.options? lines = some options ↔
      options ≠ [] ∧ ∃ line ∈ lines, ∃ n, Says line (.format n options) := by
  have hp : ∀ line e xs, Says line e → e.options? = some xs →
      ∃ n options, Says line (.format n options) := by
    intro line e xs he hxs
    obtain ⟨n, rfl, -⟩ := Entry.options?_eq_some_iff.1 hxs
    exact ⟨n, xs, he⟩
  rw [lastSaid_eq_some_iff once.format hp]
  constructor
  · rintro ⟨line, hline, e, he, hoptions⟩
    obtain ⟨n, rfl, hne⟩ := Entry.options?_eq_some_iff.1 hoptions
    exact ⟨hne, line, hline, n, he⟩
  · rintro ⟨hne, line, hline, n, he⟩
    exact ⟨line, hline, _, he, Entry.options?_eq_some_iff.2 ⟨n, rfl, hne⟩⟩

/-- Index and options come from one line, as there is only one. -/
theorem format_eq (once : OnceEach lines) {a b : List Char} (ha : a ∈ lines) (hb : b ∈ lines)
    {m n : UInt32} {xs ys : List String} (hx : Says a (.format m xs)) (hy : Says b (.format n ys)) :
    m = n ∧ xs = ys := by
  obtain rfl := once.format.eq ha hb ⟨m, xs, hx⟩ ⟨n, ys, hy⟩
  have hentry : some (Entry.format m xs) = some (Entry.format n ys) :=
    (said?_eq_some_iff.2 hx).symm.trans (said?_eq_some_iff.2 hy)
  cases hentry
  exact ⟨rfl, rfl⟩

theorem perm {lines' : List (List Char)} (once : OnceEach lines) (h : lines.Perm lines') :
    OnceEach lines' :=
  ⟨once.media.perm h, once.lossless.perm h, once.format.perm h⟩

end OnceEach

theorem Announces.perm {lines lines' : List (List Char)} {index : UInt32}
    (ann : Announces lines index) (h : lines.Perm lines') : Announces lines' index where
  formed line hline := ann.formed line (h.mem_iff.2 hline)
  media := ann.media.imp fun _ hl => ⟨h.mem_iff.1 hl.1, hl.2⟩
  lossless := ann.lossless.imp fun _ hl => ⟨h.mem_iff.1 hl.1, hl.2⟩
  format := ann.format.imp fun _ hl => ⟨h.mem_iff.1 hl.1, hl.2⟩

/-! ### Descriptions can be checked -/

instance (body : List Char) (lines : List (List Char)) : Decidable (LinesOf body lines) :=
  decidable_of_iff _ SdpLine.rawLines_eq_iff

instance (line : List Char) (e : Entry) : Decidable (Says line e) :=
  decidable_of_iff _ said?_eq_some_iff

instance (line : List Char) : Decidable (∃ e, Says line e) :=
  decidable_of_iff ((said? line).isSome = true) <| by
    simp only [Option.isSome_iff_exists, said?_eq_some_iff]

/-- A line is of one kind if what is read of it is. -/
theorem exists_says_iff {α : Type} {said : Entry → Option α} {line : List Char} :
    ((said? line).bind said).isSome = true ↔ ∃ a e, Says line e ∧ said e = some a := by
  simp only [Option.isSome_iff_exists, Option.bind_eq_some_iff, said?_eq_some_iff]

instance (line : List Char) : Decidable (∃ n, Says line (.media n)) :=
  decidable_of_iff (((said? line).bind Entry.media?).isSome = true) <| by
    simp only [exists_says_iff, Entry.media?_eq_some_iff, exists_eq_right]

instance (line : List Char) : Decidable (∃ n, Says line (.lossless n)) :=
  decidable_of_iff (((said? line).bind Entry.lossless?).isSome = true) <| by
    simp only [exists_says_iff, Entry.lossless?_eq_some_iff, exists_eq_right]

instance (line : List Char) : Decidable (∃ n options, Says line (.format n options)) :=
  decidable_of_iff (((said? line).bind Entry.index?).isSome = true) <| by
    rw [exists_says_iff]
    refine exists_congr fun n => ⟨?_, fun ⟨options, h⟩ => ⟨_, h, rfl⟩⟩
    rintro ⟨e, he, hn⟩
    obtain ⟨options, rfl⟩ := Entry.index?_eq_some_iff.1 hn
    exact ⟨options, he⟩

instance {α : Type} (p : α → Prop) [DecidablePred p] (xs : List α) : Decidable (AtMostOne p xs) :=
  inferInstanceAs (Decidable (xs.Pairwise fun a b => ¬ (p a ∧ p b)))

theorem onceEach_iff {lines : List (List Char)} :
    OnceEach lines ↔ AtMostOne (fun line => ∃ n, Says line (.media n)) lines ∧
      AtMostOne (fun line => ∃ n, Says line (.lossless n)) lines ∧
      AtMostOne (fun line => ∃ n options, Says line (.format n options)) lines :=
  ⟨fun h => ⟨h.media, h.lossless, h.format⟩, fun h => ⟨h.1, h.2.1, h.2.2⟩⟩

instance (lines : List (List Char)) : Decidable (OnceEach lines) :=
  decidable_of_iff _ onceEach_iff.symm

end Sdp

namespace Scan

/-! ### One line -/

/-- What is known of the format when a line was taken. -/
structure Takes (s : Scan) (e : Sdp.Entry) (s' : Scan) : Prop where
  audio : s'.audio = e.media?.or s.audio
  lossless : s'.lossless = e.lossless?.or s.lossless
  fmtp : s'.fmtp = e.index?.or s.fmtp
  options : s'.options = e.options?.or s.options

/-- A line is taken for what it says, and refused if it says nothing. -/
inductive Added (s : Scan) : Option Sdp.Entry → Except SdpError Scan → Prop
  | refused (err : SdpError) : Added s none (.error err)
  | taken {e : Sdp.Entry} {s' : Scan} : Takes s e s' → Added s (some e) (.ok s')

/-- The attributes that are left leave the format as it is. -/
theorem added_named {s : Scan} {name : String} {value : List Char} (hr : name ≠ "rtpmap")
    (hf : name ≠ "fmtp") : Added s (some .other) (s.addAttribute name value) := by
  unfold addAttribute
  rw [if_neg hr, if_neg hf]
  by_cases hkey : name = "rsaaeskey"
  · rw [if_pos hkey]
    exact .taken ⟨rfl, rfl, rfl, rfl⟩
  · rw [if_neg hkey]
    by_cases hiv : name = "aesiv"
    · rw [if_pos hiv]
      exact .taken ⟨rfl, rfl, rfl, rfl⟩
    · rw [if_neg hiv]
      by_cases hlatency : name = "min-latency"
      · rw [if_pos hlatency]
        exact .taken ⟨rfl, rfl, rfl, rfl⟩
      · rw [if_neg hlatency]
        exact .taken ⟨rfl, rfl, rfl, rfl⟩

theorem added_attribute (s : Scan) {text value : List Char} {name : String}
    (ha : Sdp.Attribute text name value) :
    Added s (SdpLine.said? ⟨'a', text⟩) (s.addAttribute name value) := by
  rw [Sdp.said?_attribute ha]
  by_cases hr : name = "rtpmap"
  · unfold addAttribute
    rw [if_pos hr, if_pos hr]
    cases SdpLine.rtpmap value with
    | error err => exact .refused err
    | ok entry =>
      obtain ⟨n, encoding⟩ := entry
      simp only [Except.toOption, Option.map_some]
      by_cases hl : encoding = losslessName.toList
      · rw [if_pos hl, if_pos hl]
        exact .taken ⟨rfl, rfl, rfl, rfl⟩
      · rw [if_neg hl, if_neg hl]
        exact .taken ⟨rfl, rfl, rfl, rfl⟩
  · rw [if_neg hr]
    by_cases hf : name = "fmtp"
    · unfold addAttribute
      rw [if_pos hf, if_neg hr, if_pos hf]
      cases SdpLine.fmtp value with
      | error err => exact .refused err
      | ok entry =>
        obtain ⟨n, options⟩ := entry
        have hoptions : (if options.isEmpty then s.options else some options) =
            (Sdp.Entry.format n options).options?.or s.options := by
          cases options <;> rfl
        exact .taken ⟨rfl, rfl, rfl, hoptions⟩
    · rw [if_neg hf]
      exact added_named hr hf

/-- **What a line does depends on nothing but what it says.** -/
theorem added (s : Scan) (line : SdpLine) : Added s line.said? (s.add line) := by
  obtain ⟨kind, value⟩ := line
  by_cases ha : kind = 'a'
  · subst ha
    have hm : ¬ 'a' = 'm' := by decide
    cases hs : SdpLine.splitAttribute value with
    | error err =>
      have hentry : SdpLine.said? ⟨'a', value⟩ = none := by
        rw [SdpLine.said?, if_neg hm, if_pos rfl, hs]
      rw [hentry, add, if_neg hm, if_pos rfl, hs]
      exact .refused err
    | ok p =>
      rw [add, if_neg hm, if_pos rfl, hs]
      exact added_attribute s (SdpLine.splitAttribute_eq_ok_iff.1 hs)
  · unfold add SdpLine.said?
    by_cases hm : kind = 'm'
    · rw [if_pos hm, if_pos hm]
      cases SdpLine.media value with
      | error err => exact .refused err
      | ok n => exact .taken ⟨rfl, rfl, rfl, rfl⟩
    · rw [if_neg hm, if_neg hm, if_neg ha, if_neg ha]
      exact .taken ⟨rfl, rfl, rfl, rfl⟩

/-- The same for a line that is still to be parsed. -/
def addText (s : Scan) (text : List Char) : Except SdpError Scan :=
  match SdpLine.parse text with
  | .error e => .error e
  | .ok line => s.add line

theorem added_text (s : Scan) (text : List Char) : Added s (Sdp.said? text) (s.addText text) := by
  unfold Sdp.said? addText
  cases SdpLine.parse text with
  | error err => exact .refused err
  | ok line => exact added s line

theorem takes_of_addText {s s' : Scan} {text : List Char} (h : s.addText text = .ok s') :
    ∃ e, Sdp.said? text = some e ∧ Takes s e s' := by
  have hadded := added_text s text
  rw [h] at hadded
  generalize Sdp.said? text = said at hadded
  cases hadded with
  | taken ht => exact ⟨_, rfl, ht⟩

theorem exists_addText {text : List Char} {e : Sdp.Entry} (h : Sdp.said? text = some e) (s : Scan) :
    ∃ s', s.addText text = .ok s' := by
  have hadded := added_text s text
  rw [h] at hadded
  generalize s.addText text = result at hadded
  cases hadded with
  | taken ht => exact ⟨_, rfl⟩

/-! ### All lines -/

/-- Parsing the lines first and taking them afterwards takes the same lines. -/
theorem foldlM_addText {lines : List (List Char)} {s s' : Scan} :
    lines.foldlM addText s = .ok s' ↔
      ∃ parsed, lines.mapM SdpLine.parse = .ok parsed ∧ parsed.foldlM add s = .ok s' := by
  induction lines generalizing s with
  | nil => simp [pure, Except.pure]
  | cons line lines ih =>
    rw [List.foldlM_cons, List.mapM_cons, addText]
    cases SdpLine.parse line with
    | error err => simp [bind, Except.bind]
    | ok l =>
      constructor
      · intro h
        cases hadd : s.add l with
        | error err => simp [hadd, bind, Except.bind] at h
        | ok s₁ =>
          simp only [hadd, bind, Except.bind] at h
          obtain ⟨parsed, hparsed, hfold⟩ := ih.1 h
          refine ⟨l :: parsed, ?_, ?_⟩
          · rw [hparsed]
            rfl
          · rw [List.foldlM_cons, hadd]
            exact hfold
      · rintro ⟨parsed, hparsed, hfold⟩
        cases hrest : lines.mapM SdpLine.parse with
        | error err => simp [hrest, bind, Except.bind] at hparsed
        | ok ls =>
          rw [hrest] at hparsed
          cases hparsed
          rw [List.foldlM_cons] at hfold
          cases hadd : s.add l with
          | error err => simp [hadd, bind, Except.bind] at hfold
          | ok s₁ =>
            rw [hadd] at hfold
            simp only [hadd, bind, Except.bind]
            exact ih.2 ⟨ls, hrest, hfold⟩

theorem ofBody_eq_ok_iff {body : String} {s : Scan} :
    ofBody body = .ok s ↔ (SdpLine.rawLines body.toList).foldlM addText {} = .ok s := by
  rw [foldlM_addText, ofBody, SdpLine.parseAll]
  cases (SdpLine.rawLines body.toList).mapM SdpLine.parse with
  | error err => simp
  | ok parsed => simp

/-- Lines that all say something are taken. -/
theorem exists_foldlM {lines : List (List Char)} (h : ∀ line ∈ lines, ∃ e, Sdp.Says line e)
    (s : Scan) : ∃ s', lines.foldlM addText s = .ok s' := by
  induction lines generalizing s with
  | nil => exact ⟨s, rfl⟩
  | cons line lines ih =>
    obtain ⟨e, he⟩ := h line List.mem_cons_self
    obtain ⟨s₁, hadd⟩ := exists_addText (Sdp.said?_eq_some_iff.2 he) s
    obtain ⟨s', hrest⟩ := ih (fun l hl => h l (List.mem_cons_of_mem _ hl)) s₁
    refine ⟨s', ?_⟩
    rw [List.foldlM_cons, hadd]
    exact hrest

/-- The first line is taken, and the others from there. -/
theorem foldlM_cons_eq_ok {line : List Char} {lines : List (List Char)} {s s' : Scan}
    (h : (line :: lines).foldlM addText s = .ok s') :
    ∃ s₁, s.addText line = .ok s₁ ∧ lines.foldlM addText s₁ = .ok s' := by
  rw [List.foldlM_cons] at h
  cases hadd : s.addText line with
  | error err =>
    rw [hadd] at h
    exact absurd h (by simp [bind, Except.bind])
  | ok s₁ =>
    rw [hadd] at h
    exact ⟨s₁, rfl, h⟩

/-- Lines that are taken all say something. -/
theorem said_of_foldlM {lines : List (List Char)} {s s' : Scan}
    (h : lines.foldlM addText s = .ok s') : ∀ line ∈ lines, ∃ e, Sdp.Says line e := by
  induction lines generalizing s with
  | nil => simp
  | cons line lines ih =>
    obtain ⟨s₁, hadd, hrest⟩ := foldlM_cons_eq_ok h
    obtain ⟨e, he, -⟩ := takes_of_addText hadd
    exact List.forall_mem_cons.2 ⟨⟨e, Sdp.said?_eq_some_iff.1 he⟩, ih hrest⟩

/-- **Of what the lines say the last counts**, for each part of the format by itself. -/
theorem eq_lastSaid {α : Type} {part : Scan → Option α} {said : Sdp.Entry → Option α}
    (step : ∀ s e s', Takes s e s' → part s' = (said e).or (part s)) {lines : List (List Char)}
    {s s' : Scan} (h : lines.foldlM addText s = .ok s') :
    part s' = (Sdp.lastSaid said lines).or (part s) := by
  induction lines generalizing s with
  | nil =>
    cases h
    rfl
  | cons line lines ih =>
    obtain ⟨s₁, hadd, hrest⟩ := foldlM_cons_eq_ok h
    obtain ⟨e, he, ht⟩ := takes_of_addText hadd
    have hline : Sdp.lastSaid said (line :: lines) = (Sdp.lastSaid said lines).or (said e) := by
      have hbind : (Sdp.said? line).bind said = said e := by rw [he, Option.bind_some]
      rw [Sdp.lastSaid, Sdp.lastSaid, List.filterMap_cons, hbind]
      cases said e with
      | none => simp
      | some a => rw [List.getLast?_cons]; cases (List.filterMap _ lines).getLast? <;> rfl
    rw [ih hrest, step _ _ _ ht, hline, Option.or_assoc]

/-- What is accepted. -/
theorem format_eq_ok_iff {s : Scan} {index : UInt32} {options : List String} :
    s.format = .ok (index, options) ↔ s.audio = some index ∧ s.lossless = some index ∧
      s.fmtp = some index ∧ s.options = some options := by
  constructor
  · intro h
    obtain ⟨hfmtp, hoptions⟩ := format_eq_ok h
    unfold format at h
    by_cases hl : s.lossless = s.audio
    · by_cases hf : s.audio = s.fmtp
      · have haudio := hf.trans hfmtp
        exact ⟨haudio, hl.trans haudio, hfmtp, hoptions⟩
      · simp [hl, hf] at h
    · simp [hl] at h
  · rintro ⟨haudio, hlossless, hfmtp, hoptions⟩
    simp [format, haudio, hlossless, hfmtp, hoptions]

end Scan

namespace StreamDescription

open Scan

theorem validate_eq_ok {body : String} {index : UInt32} :
    validate body = .ok index ↔ ∃ s options, ofBody body = .ok s ∧ s.format = .ok (index, options) := by
  unfold validate
  cases ofBody body with
  | error err => simp
  | ok s =>
    cases hf : s.format with
    | error err => simp [hf, Except.map]
    | ok p =>
      obtain ⟨n, options⟩ := p
      simp [hf, Except.map]

/-- The format that lines announce is the one that their scan has. -/
theorem format_of_foldlM {lines : List (List Char)} (once : Sdp.OnceEach lines) {s : Scan}
    (h : lines.foldlM addText {} = .ok s) {index : UInt32} {options : List String} :
    s.format = .ok (index, options) ↔
      (∃ line ∈ lines, Sdp.Says line (.media index)) ∧
      (∃ line ∈ lines, Sdp.Says line (.lossless index)) ∧
      options ≠ [] ∧ ∃ line ∈ lines, Sdp.Says line (.format index options) := by
  have haudio : s.audio = Sdp.lastSaid Sdp.Entry.media? lines := by
    rw [eq_lastSaid (fun _ _ _ t => t.audio) h, Option.or_none]
  have hlossless : s.lossless = Sdp.lastSaid Sdp.Entry.lossless? lines := by
    rw [eq_lastSaid (fun _ _ _ t => t.lossless) h, Option.or_none]
  have hfmtp : s.fmtp = Sdp.lastSaid Sdp.Entry.index? lines := by
    rw [eq_lastSaid (fun _ _ _ t => t.fmtp) h, Option.or_none]
  have hoptions : s.options = Sdp.lastSaid Sdp.Entry.options? lines := by
    rw [eq_lastSaid (fun _ _ _ t => t.options) h, Option.or_none]
  rw [format_eq_ok_iff, haudio, hlossless, hfmtp, hoptions, once.lastSaid_media,
    once.lastSaid_lossless, once.lastSaid_index, once.lastSaid_options]
  refine and_congr_right fun _ => and_congr_right fun _ => ?_
  constructor
  · rintro ⟨⟨a, ha, xs, hx⟩, hne, b, hb, n, hy⟩
    obtain ⟨rfl, rfl⟩ := once.format_eq ha hb hx hy
    exact ⟨hne, a, ha, hx⟩
  · rintro ⟨hne, line, hline, he⟩
    exact ⟨⟨line, hline, options, he⟩, hne, line, hline, index, he⟩

/-- A body is accepted with an index just in case its lines announce it. -/
theorem validate_of_linesOf {body : String} {lines : List (List Char)}
    (hlines : Sdp.LinesOf body.toList lines) (once : Sdp.OnceEach lines) (index : UInt32) :
    validate body = .ok index ↔ Sdp.Announces lines index := by
  rw [validate_eq_ok]
  simp only [ofBody_eq_ok_iff, SdpLine.rawLines_eq_iff.2 hlines]
  constructor
  · rintro ⟨s, options, hs, hformat⟩
    obtain ⟨hmedia, hlossless, hne, line, hline, hoptions⟩ := (format_of_foldlM once hs).1 hformat
    exact ⟨said_of_foldlM hs, hmedia, hlossless, line, hline, options, hne, hoptions⟩
  · intro h
    obtain ⟨s, hs⟩ := exists_foldlM h.formed {}
    obtain ⟨line, hline, options, hne, hoptions⟩ := h.format
    refine ⟨s, options, hs, (format_of_foldlM once hs).2 ?_⟩
    exact ⟨h.media, h.lossless, hne, line, hline, hoptions⟩

/-- **What is accepted.** Every body has its lines, and only one list of them. If each of the lines
that the format depends on is there at most once, the body is accepted with an index just in case
the lines are all well formed and announce this index, in whatever order. -/
theorem validate_eq_ok_iff (body : String) :
    ∃ lines, (∀ ls, Sdp.LinesOf body.toList ls ↔ ls = lines) ∧
      (Sdp.OnceEach lines → ∀ index, validate body = .ok index ↔ Sdp.Announces lines index) := by
  refine ⟨SdpLine.rawLines body.toList, fun ls => ?_, fun once index => ?_⟩
  · rw [← SdpLine.rawLines_eq_iff]
    exact eq_comm
  · exact validate_of_linesOf (SdpLine.rawLines_eq_iff.1 rfl) once index

/-- **The order of the lines does not show**, where each of these lines is there at most once. -/
theorem validate_of_perm {body body' : String} {lines lines' : List (List Char)}
    (hlines : Sdp.LinesOf body.toList lines) (hlines' : Sdp.LinesOf body'.toList lines')
    (hperm : lines.Perm lines') (once : Sdp.OnceEach lines) (index : UInt32) :
    validate body = .ok index ↔ validate body' = .ok index := by
  rw [validate_of_linesOf hlines once, validate_of_linesOf hlines' (once.perm hperm)]
  exact ⟨fun h => h.perm hperm, fun h => h.perm hperm.symm⟩

/-- A description with its lines in another order than usual, ended in three ways, with an encoding
that is not looked for and an index with a zero in front. -/
def shuffled : String :=
  "a=fmtp:96 352 0\r\r\na=min-latency:11025\nm=audio 0 RTP/AVP 096\r\ns=iTunes\r\n" ++
    "a=rtpmap:97 L16/44100\r\na=rtpmap:96 AppleLossless\r\n\r\n\r"

def shuffledLines : List (List Char) :=
  ["a=fmtp:96 352 0", "a=min-latency:11025", "m=audio 0 RTP/AVP 096", "s=iTunes",
    "a=rtpmap:97 L16/44100", "a=rtpmap:96 AppleLossless"].map String.toList

theorem validate_shuffled :
    Sdp.LinesOf shuffled.toList shuffledLines ∧ Sdp.OnceEach shuffledLines ∧
      validate shuffled = .ok 96 := by
  obtain ⟨lines, hlines, haccepted⟩ := validate_eq_ok_iff shuffled
  have hshuffled : Sdp.LinesOf shuffled.toList shuffledLines := by decide +kernel
  obtain rfl := (hlines _).1 hshuffled
  have once : Sdp.OnceEach shuffledLines := by decide +kernel
  have hoptions : Sdp.Says "a=fmtp:96 352 0".toList (.format 96 ["352", "0"]) := by decide +kernel
  have announced : Sdp.Announces shuffledLines 96 :=
    { formed := by decide +kernel
      media := by decide +kernel
      lossless := by decide +kernel
      format := ⟨_, by decide, ["352", "0"], by decide, hoptions⟩ }
  exact ⟨hshuffled, once, (haccepted once 96).2 announced⟩

end StreamDescription
end Raop
