/-
# How long a head can be

A reader looks at the length of a head only while the head has not ended. Where
it waits there, what it holds is within the limit; so a head that ends later is
beyond the limit by no more than was fed since (`Within`, kept by every feed
and every look). A request in front of the head makes no difference: the reader
waits for its body, but the octets behind it count from that wait on. So with
at most `burst` octets fed between two looks that wait, the heads that are
taken end within `maxHead + burst` octets, their blank line included
(`Reads.length_le`).

That much is reached: a request whose head is as long as one likes
(`longRequest`) is fed octet by octet up to the limit, and the rest at once
(`exists_reads`). So no head is beyond the limit when at most four octets, the
length of a blank line, come at once, and only then (`heads_within_iff` for an
`extra` of 0).

Key definitions: `RequestReader.Reads`, `RequestReader.Within`, `longRequest`.
Key theorems: `RequestReader.Reads.within`, `RequestReader.Reads.length_le`,
`RequestReader.exists_reads`, `RequestReader.heads_within_iff`.
-/
import Raop.Proofs.Message.RoundTrip

namespace Raop
namespace RequestReader

variable {burst fed : Nat} {r r' : RequestReader} {heads : List Bytes}

/-! ### Feeding and looking -/

/-- A reader after any feeds and looks, the octets fed since it last waited, which are never more than
`burst`, and the heads of the requests that were taken. -/
inductive Reads (burst : Nat) : RequestReader → Nat → List Bytes → Prop
  | start : Reads burst {} 0 []
  | feed {r : RequestReader} {fed : Nat} {heads : List Bytes} (data : Bytes) :
    Reads burst r fed heads → fed + data.length ≤ burst →
      Reads burst (r.feed data) (fed + data.length) heads
  | waits {r r' : RequestReader} {fed : Nat} {heads : List Bytes} :
    Reads burst r fed heads → r.next = (.ok none, r') → Reads burst r' 0 heads
  | refused {r r' : RequestReader} {fed : Nat} {heads : List Bytes} {e : RequestError} :
    Reads burst r fed heads → r.next = (.error e, r') → Reads burst r' fed heads
  | takes {r r' : RequestReader} {fed : Nat} {heads : List Bytes} {request : Request}
      {head rest : Bytes} :
    Reads burst r fed heads → splitHead? r.buffer = some (head, rest) →
      r.next = (.ok (some request), r') → Reads burst r' fed (heads ++ [head])

/-! ### What the limit leaves -/

/-- What is in the buffer when `fed` octets came since the reader waited: octets in front of a head's
end, and octets behind an acceptable request, are beyond the limit by no more than these. -/
structure Within (burst fed : Nat) (r : RequestReader) : Prop where
  unended : splitHead? r.buffer = none → r.buffer.length ≤ maxHead + fed
  ended : ∀ head rest, splitHead? r.buffer = some (head, rest) → head.length + 4 ≤ maxHead + burst
  behind : ∀ head rest preamble n, splitHead? r.buffer = some (head, rest) →
    readPreamble head = .ok (preamble, n) → rest.length ≤ n + (maxHead + fed)

/-- A buffer that is short as a whole. -/
theorem within_of_length_le (hfed : fed ≤ burst) (h : r.buffer.length ≤ maxHead + fed) :
    Within burst fed r where
  unended _ := h
  ended head rest hs := by
    have := length_splitHead? hs
    omega
  behind head rest preamble n hs _ := by
    have := length_splitHead? hs
    omega

theorem Within.feed (w : Within burst fed r) (data : Bytes) (hle : fed + data.length ≤ burst) :
    Within burst (fed + data.length) (r.feed data) := by
  cases hs : splitHead? r.buffer with
  | none =>
    have hlen : (r.feed data).buffer.length ≤ maxHead + (fed + data.length) := by
      have := w.unended hs
      rw [RequestReader.feed, List.length_append]
      omega
    exact within_of_length_le hle hlen
  | some p =>
    -- the head stays as it is, and what is fed is behind it
    obtain ⟨head, rest⟩ := p
    have happ : splitHead? (r.feed data).buffer = some (head, rest ++ data) :=
      splitHead?_append data hs
    refine ⟨fun hn => ?_, fun head' rest' hs' => ?_, fun head' rest' preamble n hs' hp => ?_⟩
    · rw [happ] at hn
      cases hn
    · rw [happ] at hs'
      cases hs'
      exact w.ended head rest hs
    · rw [happ] at hs'
      cases hs'
      have := w.behind head rest preamble n hs hp
      rw [List.length_append]
      omega

/-- Where the reader waits, the count begins again. -/
theorem Within.waits (w : Within burst fed r) (h : r.next = (.ok none, r')) : Within burst 0 r' := by
  obtain ⟨rfl, ⟨-, hl⟩ | ⟨head, rest, preamble, n, hs, hp, hn⟩⟩ := next_eq_waiting_iff.1 h
  · exact within_of_length_le (Nat.zero_le _) hl
  · refine ⟨fun hn => ?_, w.ended, fun head' rest' preamble' n' hs' hp' => ?_⟩
    · rw [hs] at hn
      cases hn
    · -- not even the body is there
      rw [hs] at hs'
      cases hs'
      rw [hp] at hp'
      cases hp'
      omega

theorem Within.refused {e : RequestError} (w : Within burst fed r) (h : r.next = (.error e, r')) :
    Within burst fed r' := by
  obtain ⟨rfl, -⟩ := next_eq_refused_iff.1 h
  exact w

/-- What is left behind a request that was taken. -/
theorem Within.takes {request : Request} (w : Within burst fed r) (hfed : fed ≤ burst)
    (h : r.next = (.ok (some request), r')) : Within burst fed r' := by
  obtain ⟨head, rest, preamble, n, hs, hp, -, -, rfl⟩ := next_eq_taken_iff.1 h
  have := w.behind head rest preamble n hs hp
  refine within_of_length_le hfed ?_
  rw [List.length_drop]
  omega

theorem Reads.fed_le (h : Reads burst r fed heads) : fed ≤ burst := by
  induction h with
  | start => exact Nat.zero_le _
  | feed data _ hle => exact hle
  | waits => exact Nat.zero_le _
  | refused _ _ ih => exact ih
  | takes _ _ _ ih => exact ih

/-- Whatever is fed and however often one looks, the buffer is within the limit and what was fed. -/
theorem Reads.within (h : Reads burst r fed heads) : Within burst fed r := by
  induction h with
  | start => exact within_of_length_le (Nat.zero_le _) (Nat.zero_le _)
  | feed data _ hle ih => exact ih.feed data hle
  | waits _ hn ih => exact ih.waits hn
  | refused _ hn ih => exact ih.refused hn
  | takes h _ hn ih => exact ih.takes h.fed_le hn

/-- **A head that is taken, with its blank line, is beyond the limit by at most one burst.** -/
theorem Reads.length_le (h : Reads burst r fed heads) {head : Bytes} (hmem : head ∈ heads) :
    head.length + 4 ≤ maxHead + burst := by
  induction h with
  | start => cases hmem
  | feed data _ _ ih => exact ih hmem
  | waits _ _ ih => exact ih hmem
  | refused _ _ ih => exact ih hmem
  | takes h hs _ ih =>
    rcases List.mem_append.1 hmem with hmem | hmem
    · exact ih hmem
    · rw [List.mem_singleton.1 hmem]
      exact h.within.ended _ _ hs

/-! ### A head of any length -/

/-- A request with a field of `n + 1` letters. -/
def longRequest (n : Nat) : Request where
  method := .options
  uri := "*"
  headers := ⟨[("X", String.ofList (List.replicate (n + 1) 'a'))]⟩

theorem sendable_longRequest (n : Nat) : (longRequest n).Sendable where
  method := by
    show Method.ofToken? Method.options.token = some .options
    decide
  uri := by
    show Text.Word "*".toList
    decide
  fields e he := by
    rw [List.mem_singleton.1 he]
    have hvalue : Text.Word (String.ofList (List.replicate (n + 1) 'a')).toList := by
      rw [String.toList_ofList]
      refine ⟨by simp, fun c hc => ?_⟩
      rw [List.eq_of_mem_replicate hc]
      decide
    exact Headers.field_of_word (by decide) (by decide) hvalue
  distinct := by simp [longRequest, Headers.names]
  body := Nat.zero_le _

/-- Its octets: the 23 in front of the letters, the letters, and the blank line. -/
theorem encode_longRequest (n : Nat) :
    (longRequest n).encode =
      Bytes.ofAscii "OPTIONS * RTSP/1.0\r\nX: " ++ List.replicate (n + 1) 97 ++ blankLine := by
  have hletters : Text.encodeChars (List.replicate (n + 1) 'a') = List.replicate (n + 1) 97 := by
    have ha : String.utf8EncodeChar 'a' = [97] := by decide
    rw [Text.encodeChars, List.flatMap_replicate, ha]
    simp
  have hfront : Text.encodeChars "OPTIONS * RTSP/1.0\r\nX: ".toList =
      Bytes.ofAscii "OPTIONS * RTSP/1.0\r\nX: " := by decide
  have hend : Text.encodeChars ['\r', '\n', '\r', '\n'] = blankLine := by decide
  have htext : (longRequest n).head.toList =
      "OPTIONS * RTSP/1.0\r\nX: ".toList ++ List.replicate (n + 1) 'a' ++ ['\r', '\n', '\r', '\n'] := by
    have hname : sameName "X" "Content-Length" = false := by decide
    have hkept : (longRequest n).keptFields = (longRequest n).headers.entries := by
      simp [Request.keptFields, longRequest, hname]
    rw [Request.toList_head, Request.wireFields_of_nil rfl, hkept]
    have hmethod : Method.options.token.toList = "OPTIONS".toList := by decide
    simp [longRequest, Request.requestLine, hmethod, Headers.fieldLine, Text.joinLines]
  rw [Request.encode, Text.encode, htext, Text.encodeChars_append, Text.encodeChars_append, hletters,
    hfront, hend]
  simp [longRequest]

theorem length_longRequest (n : Nat) : (longRequest n).encode.length = n + 28 := by
  have hfront : (Bytes.ofAscii "OPTIONS * RTSP/1.0\r\nX: ").length = 23 := by decide
  rw [encode_longRequest]
  simp only [List.length_append, List.length_replicate, hfront, blankLine, List.length_cons,
    List.length_nil]
  omega

/-- A look at its octets takes it; all of them but the last four are its head. -/
theorem next_longRequest (n : Nat) :
    ∃ request head, next ⟨(longRequest n).encode⟩ = (.ok (some request), {}) ∧
      splitHead? (longRequest n).encode = some (head, []) ∧ head.length = n + 24 := by
  have hnext := next_encode (sendable_longRequest n) []
  rw [List.append_nil] at hnext
  obtain ⟨head, rest, preamble, k, hs, -, hk, hrequest, hrest⟩ := next_eq_taken_iff.1 hnext
  -- the request has no body, so there is nothing behind its head
  have hbody : rest.take k = [] := (congrArg Request.body hrequest).symm
  have hdrop : rest.drop k = [] := (congrArg RequestReader.buffer hrest).symm
  have hnil : rest = [] := by rw [← List.take_append_drop k rest, hbody, hdrop]; rfl
  subst hnil
  have hlen := length_splitHead? hs
  rw [length_longRequest, List.length_nil] at hlen
  exact ⟨_, head, hnext, hs, by omega⟩

/-! ### The bound is reached -/

/-- Octets without the end of a head in them, and within the limit, are fed one by one. -/
theorem reads_octets (hb : 0 < burst) (front : Bytes) (hn : splitHead? front = none)
    (hl : front.length ≤ maxHead) : Reads burst ⟨front⟩ 0 [] := by
  induction front using List.reverseRecOn with
  | nil => exact .start
  | append_singleton front b ih =>
    have hlen : front.length ≤ maxHead := by
      rw [List.length_append] at hl
      omega
    have hnone : splitHead? front = none := by
      cases hs : splitHead? front with
      | none => rfl
      | some p =>
        rw [splitHead?_append [b] hs] at hn
        cases hn
    have hfed : Reads burst ⟨front ++ [b]⟩ (0 + 1) [] := (ih hnone hlen).feed [b] hb
    exact hfed.waits (next_eq_waiting_iff.2 ⟨rfl, .inl ⟨hn, hl⟩⟩)

/-- A head that is as far beyond the limit as one burst allows. -/
theorem exists_reads (hb : 4 < burst) :
    ∃ r fed heads head, Reads burst r fed heads ∧ head ∈ heads ∧
      head.length + 4 = maxHead + burst := by
  obtain ⟨request, head, hnext, hs, hlen⟩ := next_longRequest (maxHead + burst - 28)
  have htotal := length_longRequest (maxHead + burst - 28)
  generalize (longRequest (maxHead + burst - 28)).encode = octets at hnext hs htotal
  have hmax : maxHead = 65536 := rfl
  have hsplit : octets.take maxHead ++ octets.drop maxHead = octets := List.take_append_drop _ _
  have hback : (octets.drop maxHead).length = burst := by
    rw [List.length_drop]
    omega
  have hnone : splitHead? (octets.take maxHead) = none := by
    cases hfront : splitHead? (octets.take maxHead) with
    | none => rfl
    | some p =>
      -- what comes in the burst would be behind the head
      have happ := splitHead?_append (octets.drop maxHead) hfront
      rw [hsplit, hs] at happ
      have hnil := (List.append_eq_nil_iff.1 (congrArg Prod.snd (Option.some.inj happ)).symm).2
      rw [hnil] at hback
      simp at hback
      omega
  have hwaits : Reads burst ⟨octets.take maxHead⟩ 0 [] :=
    reads_octets (by omega) _ hnone (by rw [List.length_take]; omega)
  have hfed := hwaits.feed (octets.drop maxHead) (by omega)
  rw [feed, hsplit] at hfed
  exact ⟨_, _, _, head, hfed.takes hs hnext, List.mem_append_right _ (List.mem_singleton_self _),
    by omega⟩

/-- **How far heads are beyond the limit.** For any feeds and looks with at most `burst` octets fed
between two looks that wait: no head that is taken is more than `extra` octets beyond the limit just
in case a burst is at most `extra` octets and a blank line. -/
theorem heads_within_iff (burst extra : Nat) :
    (∀ r fed heads, Reads burst r fed heads → ∀ head ∈ heads, head.length ≤ maxHead + extra) ↔
      burst ≤ extra + 4 := by
  constructor
  · intro hwithin
    by_contra hlarge
    have hb : 4 < burst := by omega
    obtain ⟨r, fed, heads, head, hreads, hmem, hlen⟩ := exists_reads hb
    have := hwithin r fed heads hreads head hmem
    omega
  · intro hburst r fed heads hreads head hmem
    have := hreads.length_le hmem
    omega

/-- A request with a head that is one octet beyond the limit, fed at once, is taken at the first
look. -/
theorem head_beyond_limit :
    ∃ request head, (({} : RequestReader).feed (longRequest 65513).encode).next =
        (.ok (some request), {}) ∧
      splitHead? (longRequest 65513).encode = some (head, []) ∧ maxHead < head.length := by
  obtain ⟨request, head, hnext, hs, hlen⟩ := next_longRequest 65513
  refine ⟨request, head, ?_, hs, ?_⟩
  · rw [feed, List.nil_append]
    exact hnext
  · rw [hlen]
    decide

end RequestReader
end Raop
