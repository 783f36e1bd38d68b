/-
# Peers as texts

A peer is read from a text step by step: white space around it goes, the last
colon parts the host from the port, brackets around the host go, and the port is
a number that is not zero (`PeerAddress.parse?_eq_some_iff`). A peer is written with
brackets around its host only if a colon is in it. So a host that a text has in
brackets is written without them, and what is in them may be read as something
else: white space at its front goes, and so do brackets around it. The text of a
peer is read back exactly if there is neither, or a colon
(`PeerAddress.parse?_render_iff`).

Key definitions: `PeerAddress.Bare`.
Key theorems: `PeerAddress.parse?_eq_some_iff`, `PeerAddress.parse?_of_written`,
`PeerAddress.parse?_render_iff`, `PeerAddress.saved_iff`, `ProxyConfig.list?_peers_iff`.
-/
import Raop.Config.Proxy
import Raop.Proofs.Text.Numeral

namespace Raop

open Text

/-! ### Brackets -/

namespace Endpoint

theorem unbracket_bracketed (inner : List Char) : unbracket ('[' :: (inner ++ [']'])) = inner := by
  simp [unbracket]

/-- Brackets around a host go, and nothing else does. -/
theorem unbracket_cases (host : List Char) :
    (∃ inner, host = '[' :: (inner ++ [']']) ∧ unbracket host = inner) ∨ unbracket host = host := by
  unfold unbracket
  split
  · next rest =>
    by_cases hlast : rest.getLast? = some ']'
    · obtain ⟨inner, rfl⟩ := List.getLast?_eq_some_iff.1 hlast
      exact Or.inl ⟨inner, rfl, by simp⟩
    · exact Or.inr (if_neg hlast)
  · exact Or.inr rfl

theorem length_unbracket_le (host : List Char) : (unbracket host).length ≤ host.length := by
  rcases unbracket_cases host with ⟨inner, rfl, hinner⟩ | hsame
  · rw [hinner, List.length_cons, List.length_append]
    omega
  · rw [hsame]

end Endpoint

namespace PeerAddress

open Endpoint (unbracket)

variable {text : String} {a : PeerAddress}

/-- A host that stands for itself: no white space is in front, and no brackets are around it. -/
def Bare (host : List Char) : Prop :=
  (∀ c ∈ host.head?, isBlank c = false) ∧ unbracket host = host

instance (host : List Char) : Decidable (Bare host) :=
  decidable_of_iff (host.head?.all (fun c => !isBlank c) = true ∧ unbracket host = host)
    (by simp [Bare, Option.all_eq_true])

/-- What comes in front of the last colon of a text, white space around it left out, and what comes
behind it. -/
theorem splitLast?_trimChars_iff {cs host port : List Char} :
    splitLast? ':' (trimChars cs) = some (host, port) ↔ Padded cs (host ++ ':' :: port) ∧ ':' ∉ port := by
  rw [splitLast?_eq_some_iff, trimChars_eq_iff]

/-- **What a peer is read from.** -/
theorem parse?_eq_some_iff : parse? text = some a ↔
    a.host ≠ "" ∧ a.port ≠ 0 ∧ ∃ host port, Padded text.toList (host ++ ':' :: port) ∧ ':' ∉ port ∧
      unbracket host = a.host.toList ∧ readU16? port = some a.port := by
  simp only [parse?, Option.bind_eq_bind, Option.bind_eq_some_iff, Prod.exists,
    splitLast?_trimChars_iff]
  constructor
  · rintro ⟨host, port, ⟨hpadded, hcolon⟩, n, hport, ha⟩
    by_cases hnone : (unbracket host).isEmpty = true ∨ n = 0
    · rw [if_pos hnone] at ha
      cases ha
    · rw [if_neg hnone, Option.pure_def, Option.some.injEq] at ha
      subst ha
      simp only [not_or, List.isEmpty_iff] at hnone
      refine ⟨fun hempty => hnone.1 ?_, hnone.2, host, port, hpadded, hcolon,
        (String.toList_ofList ..).symm, hport⟩
      have htext : String.ofList (unbracket host) = "" := hempty
      rw [← String.toList_ofList (l := unbracket host), htext]
      rfl
  · rintro ⟨hhost, hzero, host, port, hpadded, hcolon, hunbracket, hport⟩
    have hsome : ¬((unbracket host).isEmpty = true ∨ a.port = 0) := by
      rw [hunbracket, List.isEmpty_iff, String.toList_eq_nil_iff]
      exact not_or.2 ⟨hhost, hzero⟩
    refine ⟨host, port, ⟨hpadded, hcolon⟩, a.port, hport, ?_⟩
    rw [if_neg hsome, hunbracket, String.ofList_toList]
    rfl

/-! ### The text of a peer -/

/-- A host as it stands in the text of a peer. -/
def written (host : List Char) : List Char :=
  if ':' ∈ host then '[' :: (host ++ [']']) else host

theorem toList_render (a : PeerAddress) :
    a.render.toList = written a.host.toList ++ ':' :: (natText a.port.toNat).toList := by
  unfold render written
  by_cases hcolon : ':' ∈ a.host.toList
  · simp [hcolon]
  · simp [hcolon]

/-- White space in front is left out, the port is read back. -/
theorem padded_of_written (front : List Char) (n : Nat) :
    Padded (front ++ ':' :: (natText n).toList)
      (front.dropWhile isBlank ++ ':' :: (natText n).toList) := by
  obtain ⟨hne, hdigits⟩ := word_natText n
  obtain ⟨hfront, hlead, hhead⟩ :=
    takeWhile_dropWhile_iff.1 ⟨(rfl : front.takeWhile isBlank = _), rfl⟩
  refine ⟨front.takeWhile isBlank, [], ?_, hlead, by simp, fun c hc => ?_, fun c hc => ?_⟩
  · rw [List.append_nil, ← List.append_assoc, ← hfront]
  · cases hrest : front.dropWhile isBlank with
    | nil =>
      rw [hrest, List.nil_append, List.head?_cons, Option.mem_some_iff] at hc
      subst hc
      decide
    | cons d rest =>
      rw [hrest, List.cons_append, List.head?_cons, Option.mem_some_iff] at hc
      subst hc
      exact hhead _ (by rw [hrest]; rfl)
  · have hlast : c ∈ (natText n).toList := by
      rw [List.getLast?_append_of_ne_nil _ (List.cons_ne_nil _ _), List.getLast?_cons_of_ne_nil hne] at hc
      exact List.mem_of_getLast? hc
    exact hdigits c hlast

theorem colon_not_mem_natText (n : Nat) : ':' ∉ (natText n).toList := by
  intro hcolon
  rw [natText, String.toList_ofList] at hcolon
  exact absurd (isDigit_of_mem_natChars hcolon) (by decide)

/-- What is read from a host and a port that are written one after the other. -/
theorem parse?_of_written {front : List Char} {port : UInt16}
    (h : text.toList = front ++ ':' :: (natText port.toNat).toList) :
    parse? text = if unbracket (front.dropWhile isBlank) = [] ∨ port = 0 then none
      else some ⟨String.ofList (unbracket (front.dropWhile isBlank)), port⟩ := by
  have hsplit : splitLast? ':' (trimChars text.toList) =
      some (front.dropWhile isBlank, (natText port.toNat).toList) := by
    rw [splitLast?_trimChars_iff, h]
    exact ⟨padded_of_written front port.toNat, colon_not_mem_natText port.toNat⟩
  simp [parse?, hsplit, readU16?_natText]

/-- A host that is written is read back if it has brackets of its own, or needs none. -/
theorem unbracket_written_iff (host : List Char) :
    unbracket ((written host).dropWhile isBlank) = host ↔ ':' ∈ host ∨ Bare host := by
  by_cases hcolon : ':' ∈ host
  · have hbracket : ¬isBlank '[' = true := by decide
    simp only [written, hcolon, if_true, List.dropWhile_cons_of_neg hbracket,
      Endpoint.unbracket_bracketed, true_or]
  · simp only [written, hcolon, if_false, false_or]
    constructor
    · intro hread
      -- nothing can have been left out, since nothing is added
      have hlength := Endpoint.length_unbracket_le (host.dropWhile isBlank)
      have hsuffix : host.dropWhile isBlank <:+ host := List.dropWhile_suffix isBlank
      have hsame : host.dropWhile isBlank = host := by
        refine hsuffix.eq_of_length (le_antisymm hsuffix.length_le ?_)
        rwa [hread] at hlength
      rw [hsame] at hread
      refine ⟨fun c hc => ?_, hread⟩
      obtain ⟨-, -, hhead⟩ := takeWhile_dropWhile_iff.1 ⟨(rfl : host.takeWhile isBlank = _), hsame⟩
      simpa using hhead c hc
    · rintro ⟨hhead, hread⟩
      have hsame : host.dropWhile isBlank = host := by
        cases host with
        | nil => rfl
        | cons c host => exact List.dropWhile_cons_of_neg (by simp [hhead c rfl])
      rw [hsame, hread]

/-- **A peer is read back from its text** just if its host stands for itself or holds a colon. -/
theorem parse?_render_iff (a : PeerAddress) : parse? a.render = some a ↔
    a.host ≠ "" ∧ a.port ≠ 0 ∧ (':' ∈ a.host.toList ∨ Bare a.host.toList) := by
  rw [parse?_of_written (toList_render a), ← unbracket_written_iff]
  generalize unbracket ((written a.host.toList).dropWhile isBlank) = host
  constructor
  · intro h
    by_cases hnone : host = [] ∨ a.port = 0
    · rw [if_pos hnone] at h
      cases h
    · rw [if_neg hnone, Option.some.injEq] at h
      have hhost : a.host = String.ofList host := congrArg PeerAddress.host h.symm
      rw [not_or] at hnone
      rw [hhost, String.toList_ofList]
      exact ⟨fun hempty => hnone.1 (by simpa using hempty), hnone.2, rfl⟩
  · rintro ⟨hhost, hport, rfl⟩
    have hsome : ¬(a.host.toList = [] ∨ a.port = 0) := by
      rw [String.toList_eq_nil_iff]
      exact not_or.2 ⟨hhost, hport⟩
    rw [if_neg hsome, String.ofList_toList]

theorem parse_eq_ok_iff : parse text = .ok a ↔ parse? text = some a := by
  unfold parse
  cases parse? text with
  | none => simp
  | some p => simp

/-- **A peer that was read survives being written** and read again just if its host stands for itself or
holds a colon. It does unless the text had the host in brackets. -/
theorem saved_iff (h : parse text = .ok a) :
    (parse a.render = .ok a ↔ ':' ∈ a.host.toList ∨ Bare a.host.toList) ∧
    (parse a.render ≠ .ok a →
      ∃ port, Padded text.toList ('[' :: (a.host.toList ++ ']' :: ':' :: port))) := by
  obtain ⟨hhost, hport, host, port, hpadded, -, hread, -⟩ := parse?_eq_some_iff.1 (parse_eq_ok_iff.1 h)
  have hiff : parse a.render = .ok a ↔ ':' ∈ a.host.toList ∨ Bare a.host.toList := by
    rw [parse_eq_ok_iff, parse?_render_iff, and_iff_right hhost, and_iff_right hport]
  refine ⟨hiff, fun hlost => ⟨port, ?_⟩⟩
  rcases Endpoint.unbracket_cases host with ⟨inner, rfl, hinner⟩ | hsame
  · rw [← hread, hinner]
    simpa using hpadded
  · -- a host that was not in brackets stands for itself
    obtain rfl : host = a.host.toList := hsame.symm.trans hread
    refine absurd (hiff.2 (Or.inr ⟨fun c hc => ?_, hsame⟩)) hlost
    obtain ⟨-, -, -, -, -, hhead, -⟩ := hpadded
    obtain ⟨rest, hrest⟩ := List.head?_eq_some_iff.1 hc
    exact hhead c (by rw [hrest]; rfl)

/-- A host that stands for itself is read back. -/
theorem saved_named : parse " kitchen.local:5000 " = .ok ⟨"kitchen.local", 5000⟩ ∧
    parse (PeerAddress.render ⟨"kitchen.local", 5000⟩) = .ok ⟨"kitchen.local", 5000⟩ := by
  have hread : parse " kitchen.local:5000 " = .ok ⟨"kitchen.local", 5000⟩ := by decide
  exact ⟨hread, (saved_iff hread).1.2 (by decide)⟩

/-- Of two pairs of brackets one is left in the host, and gone when its text is read. -/
theorem lost_in_brackets : parse "[[x]]:5000" = .ok ⟨"[x]", 5000⟩ ∧
    parse (PeerAddress.render ⟨"[x]", 5000⟩) = .ok ⟨"x", 5000⟩ := by
  decide

end PeerAddress

/-- **A list of peers survives in a configuration** just if every one of them is read back. -/
theorem ProxyConfig.list?_peers_iff (peers : List PeerAddress) :
    Value.list? (fun v => v.text?.bind PeerAddress.parse?) (.list (peers.map fun a => .text a.render)) =
        some peers ↔
      ∀ a ∈ peers, PeerAddress.parse? a.render = some a := by
  show (peers.map fun a => Value.text a.render).mapM (fun v => v.text?.bind PeerAddress.parse?) =
    some peers ↔ _
  induction peers with
  | nil => simp
  | cons a peers ih =>
    rw [List.forall_mem_cons, ← ih]
    simp [Value.text?, Option.bind_eq_some_iff]

end Raop
