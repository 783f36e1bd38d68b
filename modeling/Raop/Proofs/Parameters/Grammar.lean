/-
# The grammar of parameter bodies

What a body of parameters looks like, told by how its text is put together and
not by how it is read. A body is parts with a line feed between them; each part
is a line with any number of carriage returns behind it, and the lines that are
blank do not count (`LinesOf`). Every body has its lines in one way
(`existsUnique_linesOf`). A line is a parameter if a name and a colon begin it
(`Named`), and what it says is the name and the rest, without the spaces in
front (`Says`).

A body is read exactly if each of its lines is a parameter, and then as what the
lines say, in order; and what is written line by line is read back
(`reads_and_reads_back`).

Key definitions: `Parameters.LinesOf`, `Parameters.Named`, `Parameters.Says`.
Key theorems: `Parameters.lines_eq_iff`, `Parameters.parseLine_eq_ok_iff_said`,
`Parameters.named_iff`, `Parameters.reads_and_reads_back`.
-/
import Raop.Proofs.Parameters

namespace Raop
namespace Parameters

open Text

/-! ### Lines -/

/-- The lines of a body: there is a line feed between its parts, in each part there are carriage returns
behind a line, and the blank lines are left out. -/
def LinesOf (body : List Char) (ls : List (List Char)) : Prop :=
  ∃ parts all, body = ['\n'].intercalate parts ∧ (∀ part ∈ parts, '\n' ∉ part) ∧
    List.Forall₂ (Trailed '\r') parts all ∧ ls = all.filter (· ≠ [])

theorem lines_eq (body : List Char) :
    lines body = ((split '\n' body).map (trimEndOf '\r')).filter (· ≠ []) := by
  refine List.filter_congr fun line _ => ?_
  rw [Bool.eq_iff_iff]
  simp

/-- The lines of a body are those that it is put together from. -/
theorem lines_eq_iff {body : List Char} {ls : List (List Char)} : lines body = ls ↔ LinesOf body ls := by
  rw [lines_eq]
  constructor
  · rintro rfl
    obtain ⟨hbody, hfeed⟩ := (split_eq_iff (split_ne_nil '\n' body)).1 rfl
    exact ⟨_, _, hbody, hfeed, (map_eq_iff_forall₂ trimEndOf_eq_iff).1 rfl, rfl⟩
  · rintro ⟨parts, all, hbody, hfeed, hall, rfl⟩
    by_cases hparts : parts = []
    · -- the empty body is one blank line
      subst hparts hbody
      obtain rfl : all = [] := List.forall₂_nil_left_iff.1 hall
      rfl
    · rw [(split_eq_iff hparts).2 ⟨hbody, hfeed⟩, (map_eq_iff_forall₂ trimEndOf_eq_iff).2 hall]

/-- Every body falls into lines, in one way. -/
theorem existsUnique_linesOf (body : List Char) : ∃! ls, LinesOf body ls :=
  ⟨lines body, lines_eq_iff.1 rfl, fun _ h => (lines_eq_iff.2 h).symm⟩

/-! ### What a line says -/

/-- A line that is a parameter: a name, a colon, and anything. -/
def Named (line : List Char) : Prop :=
  ∃ name rest, line = name ++ ':' :: rest ∧ isName name = true

/-- What a parameter says: behind the name and the colon there are spaces, and the value begins with
another character. -/
def Says (line : List Char) (e : String × String) : Prop :=
  ∃ n, line = e.1.toList ++ ':' :: (List.replicate n ' ' ++ e.2.toList) ∧
    isName e.1.toList = true ∧ e.2.toList.head? ≠ some ' '

theorem parseLine_eq_ok_iff_said {line : List Char} {e : String × String} :
    parseLine line = .ok e ↔ Says line e := by
  rw [parseLine_eq_ok_iff]
  constructor
  · rintro ⟨rest, rfl, hname, hvalue⟩
    obtain ⟨n, rfl, hhead⟩ := dropWhile_beq_eq_iff.1 hvalue.symm
    exact ⟨n, rfl, hname, hhead⟩
  · rintro ⟨n, rfl, hname, hhead⟩
    exact ⟨_, rfl, hname, (dropWhile_beq_eq_iff.2 ⟨n, rfl, hhead⟩).symm⟩

/-- A parameter says something, and nothing else does. -/
theorem named_iff {line : List Char} : Named line ↔ ∃ e, Says line e := by
  constructor
  · rintro ⟨name, rest, rfl, hname⟩
    refine ⟨(String.ofList name, String.ofList (rest.dropWhile (· == ' '))), ?_⟩
    refine parseLine_eq_ok_iff_said.1 (parseLine_eq_ok_iff.2 ⟨rest, ?_, ?_, ?_⟩)
    · rw [String.toList_ofList]
    · rwa [String.toList_ofList]
    · rw [String.toList_ofList]
  · rintro ⟨e, n, rfl, hname, -⟩
    exact ⟨_, _, rfl, hname⟩

/-! ### What a body says -/

variable {body : String} {ls : List (List Char)} {ps : List (String × String)}

/-- A body is read as what its lines say. -/
theorem parse_eq_ok_iff_said (h : LinesOf body.toList ls) :
    parse body = .ok ps ↔ List.Forall₂ Says ls ps := by
  rw [parse_eq_ok_iff, lines_eq_iff.2 h]
  simp only [parseLine_eq_ok_iff_said]

/-- **A body is read exactly if each of its lines is a parameter**, as what the lines say, in order; and
the parameters that fit their lines are read back as they were written. -/
theorem reads_and_reads_back :
    (∀ (body : String) (ls : List (List Char)), LinesOf body.toList ls →
      ((∃ ps, parse body = .ok ps) ↔ ∀ line ∈ ls, Named line) ∧
      ∀ ps, parse body = .ok ps ↔ List.Forall₂ Says ls ps) ∧
    (∀ body : String, ∃! ls, LinesOf body.toList ls) ∧
    ∀ ps, (∀ e ∈ ps, Fits e) → parse (render ps) = .ok ps := by
  refine ⟨fun body ls h => ⟨?_, fun ps => parse_eq_ok_iff_said h⟩,
    fun body => existsUnique_linesOf body.toList, fun ps => parse_render⟩
  simp only [parse_eq_ok_iff_said h, exists_forall₂, named_iff]

/-- Blank lines, carriage returns and spaces go, and a value keeps its colon; with a line that has no
name nothing is read. -/
theorem parse_mixedBody :
    parse "\r\nvolume:  -3\r\r\n\nprogress:1: 2" = .ok [("volume", "-3"), ("progress", "1: 2")] ∧
      (¬∃ ps, parse "volume: -3\n: 2" = .ok ps) ∧
      parse (render [("volume", "-3"), ("progress", "1: 2")]) =
        .ok [("volume", "-3"), ("progress", "1: 2")] := by
  obtain ⟨hread, -, hwritten⟩ := reads_and_reads_back
  refine ⟨?_, ?_, hwritten _ (by decide)⟩
  · have hlines : LinesOf "\r\nvolume:  -3\r\r\n\nprogress:1: 2".toList
        ["volume:  -3".toList, "progress:1: 2".toList] := lines_eq_iff.1 (by decide)
    refine ((hread _ _ hlines).2 _).2 (.cons ?_ (.cons ?_ .nil))
    · exact ⟨2, by decide, by decide, by decide⟩
    · exact ⟨0, by decide, by decide, by decide⟩
  · have hlines : LinesOf "volume: -3\n: 2".toList ["volume: -3".toList, ": 2".toList] :=
      lines_eq_iff.1 (by decide)
    rw [(hread _ _ hlines).1]
    intro hall
    obtain ⟨e, he⟩ := named_iff.1 (hall ": 2".toList (by simp))
    rw [← parseLine_eq_ok_iff_said] at he
    cases he

end Parameters
end Raop
