/-
# Which packets the history drops

A history drops the number that came in first. A number that is recorded again
while it is there gets the new packet, but keeps its place in that order
(`History.keys_record`), so a packet that replaces another one is dropped when
the old one would have been. Hence a number stays until as many others have come
in behind it as the history has places.

A packet whose number is the last in the order can count on that: only other
numbers that are recorded after it can come in behind it. Of a packet whose
number has others behind it already, some way to go on drops it too early, as
long as there are numbers enough to fill the history (`History.kept_iff`).

Key definitions: `History.keys`, `History.numbers`, `History.Tidy`.
Key theorems: `History.keys_record`, `History.mem_keys_of_card_lt`, `History.exists_drop`,
`History.kept_iff`.
-/
import Mathlib.Data.Finset.Card
import Mathlib.Data.List.Perm.Subperm
import Raop.Proofs.Proxy.History

namespace Raop

/-- A packet of sound shows its sequence number. -/
theorem AudioPacket.peekSequence?_encode (p : AudioPacket) : peekSequence? p.encode = some p.sequence := by
  have hlong : headerSize ≤ p.encode.length := by
    simp only [encode, List.length_append, List.length_cons, List.length_nil, Bytes.length_be16,
      Bytes.length_be32, headerSize]
    omega
  rw [peekSequence?, if_pos hlong, encode]
  simp [Bytes.read16_be16, List.append_assoc]

namespace History

open AudioPacket

variable {h : History} {before after datagrams : List Bytes} {datagram : Bytes}
  {sequence other : UInt16} {front younger : List UInt16} {capacity : Nat}

/-- The sequence numbers that are kept, in the order in which they will be dropped. -/
def keys (h : History) : List UInt16 := h.packets.map (·.1)

/-- The sequence numbers that are recorded. -/
def numbers (datagrams : List Bytes) : Finset UInt16 := (datagrams.filterMap peekSequence?).toFinset

theorem numbers_cons_of_none (hnone : peekSequence? datagram = none) :
    numbers (datagram :: datagrams) = numbers datagrams := by
  rw [numbers, List.filterMap_cons_none hnone]
  rfl

theorem numbers_cons_of_some (hsome : peekSequence? datagram = some sequence) :
    numbers (datagram :: datagrams) = insert sequence (numbers datagrams) := by
  rw [numbers, List.filterMap_cons_some hsome, List.toFinset_cons]
  rfl

theorem card_numbers_le (datagrams : List Bytes) : (numbers datagrams).card ≤ datagrams.length :=
  (List.toFinset_card_le _).trans (List.length_filterMap_le _ _)

/-! ### There are 65536 sequence numbers -/

theorem length_le_of_nodup {numbers : List UInt16} (h : numbers.Nodup) : numbers.length ≤ 65536 := by
  have hnodup : (numbers.map UInt16.toNat).Nodup := h.map fun a b hab => UInt16.toNat_inj.1 hab
  have hsubset : numbers.map UInt16.toNat ⊆ List.range 65536 := by
    intro n hn
    obtain ⟨a, -, rfl⟩ := List.mem_map.1 hn
    exact List.mem_range.2 a.toNat_lt
  simpa using (List.subperm_of_subset hnodup hsubset).length_le

theorem exists_not_mem {numbers : List UInt16} (h : numbers.length < 65536) : ∃ n, n ∉ numbers := by
  by_contra hall
  push Not at hall
  have hnodup : ((List.range 65536).map UInt16.ofNat).Nodup := by
    refine List.Nodup.map_on (fun a ha b hb hab => ?_) List.nodup_range
    have hnat := congrArg UInt16.toNat hab
    rw [List.mem_range] at ha hb
    rw [UInt16.toNat_ofNat', UInt16.toNat_ofNat'] at hnat
    omega
  have hle := (List.subperm_of_subset hnodup fun n _ => hall n).length_le
  rw [List.length_map, List.length_range] at hle
  omega

/-! ### One datagram -/

/-- The numbers are distinct, and no more than there are places. -/
structure Tidy (h : History) : Prop where
  nodup : h.keys.Nodup
  length_le : h.keys.length ≤ h.capacity

theorem keys_record_of_none (hnone : peekSequence? datagram = none) :
    (h.record datagram).keys = h.keys := by
  unfold record
  split
  · rfl
  · rw [hnone]

/-- **What a datagram does to the order.** A number that is there keeps its place; a new one goes to the
end, and the first one is dropped for it if the history is full. -/
theorem keys_record (ht : h.Tidy) (hpos : 0 < h.capacity) (hsome : peekSequence? datagram = some sequence) :
    (h.record datagram).keys =
      if sequence ∈ h.keys then h.keys
      else if h.keys.length < h.capacity then h.keys ++ [sequence]
      else h.keys.tail ++ [sequence] := by
  have hlength : h.keys.length = h.packets.length := List.length_map ..
  have hkeys : (h.record datagram).keys =
      ((store sequence datagram h.packets).map (·.1)).drop
        ((store sequence datagram h.packets).length - h.capacity) := by
    unfold record
    rw [if_neg (Nat.ne_of_gt hpos), hsome]
    exact List.map_drop ..
  have hstore := map_fst_store sequence datagram h.packets
  have hcount := congrArg List.length hstore
  rw [List.length_map] at hcount
  rw [hkeys, hstore, hcount]
  have hle := ht.length_le
  change (if sequence ∈ h.keys then h.keys else h.keys ++ [sequence]).drop
    ((if sequence ∈ h.keys then h.keys else h.keys ++ [sequence]).length - h.capacity) = _
  by_cases hmem : sequence ∈ h.keys
  · rw [if_pos hmem, if_pos hmem, Nat.sub_eq_zero_of_le hle, List.drop_zero]
  · rw [if_neg hmem, if_neg hmem, List.length_append, List.length_singleton]
    by_cases hfull : h.keys.length < h.capacity
    · rw [if_pos hfull, Nat.sub_eq_zero_of_le hfull, List.drop_zero]
    · have hone : h.keys.length + 1 - h.capacity = 1 := by omega
      have hne : h.keys ≠ [] := List.ne_nil_of_length_pos (by omega)
      rw [if_neg hfull, hone, List.drop_one, List.tail_append_of_ne_nil hne]

theorem Tidy.record (ht : h.Tidy) (hpos : 0 < h.capacity) (datagram : Bytes) :
    (h.record datagram).Tidy := by
  have hle := ht.length_le
  cases hsequence : peekSequence? datagram with
  | none =>
    have hkeys := keys_record_of_none (h := h) hsequence
    exact ⟨hkeys ▸ ht.nodup, by rw [hkeys, capacity_record]; exact hle⟩
  | some sequence =>
    have hkeys := keys_record ht hpos hsequence
    by_cases hmem : sequence ∈ h.keys
    · rw [if_pos hmem] at hkeys
      exact ⟨hkeys ▸ ht.nodup, by rw [hkeys, capacity_record]; exact hle⟩
    · rw [if_neg hmem] at hkeys
      by_cases hfull : h.keys.length < h.capacity
      · rw [if_pos hfull] at hkeys
        refine ⟨?_, ?_⟩
        · rw [hkeys]
          exact ht.nodup.append (List.nodup_singleton _) (by simpa using hmem)
        · rw [hkeys, capacity_record, List.length_append]
          exact hfull
      · rw [if_neg hfull] at hkeys
        have hsub : h.keys.tail.Sublist h.keys := List.tail_sublist _
        refine ⟨?_, ?_⟩
        · rw [hkeys]
          refine (ht.nodup.sublist hsub).append (List.nodup_singleton _) ?_
          simpa using fun hin => hmem (hsub.subset hin)
        · rw [hkeys, capacity_record, List.length_append, List.length_tail, List.length_singleton]
          omega

theorem capacity_recorded : ∀ (datagrams : List Bytes) (h : History),
    (datagrams.foldl History.record h).capacity = h.capacity
  | [], _ => rfl
  | datagram :: datagrams, h => by
    rw [List.foldl_cons, capacity_recorded datagrams, capacity_record]

theorem Tidy.recorded (hpos : 0 < h.capacity) (ht : h.Tidy) : ∀ datagrams : List Bytes,
    (datagrams.foldl History.record h).Tidy := by
  intro datagrams
  induction datagrams generalizing h with
  | nil => exact ht
  | cons datagram datagrams ih =>
    exact ih (by rwa [capacity_record]) (ht.record hpos datagram)

theorem tidy_empty (capacity : Nat) : ({ capacity } : History).Tidy :=
  ⟨List.nodup_nil, Nat.zero_le _⟩

/-- A number comes in behind one that has places enough behind it. -/
theorem keys_record_behind (ht : h.Tidy) (hsome : peekSequence? datagram = some other)
    (hkeys : h.keys = front ++ sequence :: younger) (hnew : other ∉ h.keys)
    (hroom : younger.length + 1 < h.capacity) :
    ∃ front', (h.record datagram).keys = front' ++ sequence :: (younger ++ [other]) := by
  have hrecord := keys_record ht (by omega) hsome
  rw [if_neg hnew, hkeys] at hrecord
  by_cases hfull : (front ++ sequence :: younger).length < h.capacity
  · rw [if_pos hfull] at hrecord
    exact ⟨front, by rw [hrecord, List.append_assoc, List.cons_append]⟩
  · rw [if_neg hfull] at hrecord
    -- the history is full, so there is a number in front to be dropped
    have hfront : front ≠ [] := by
      rintro rfl
      simp only [List.nil_append, List.length_cons] at hfull
      omega
    refine ⟨front.tail, ?_⟩
    rw [hrecord, List.tail_append_of_ne_nil hfront, List.append_assoc, List.cons_append]

/-- The first number of a full history is dropped for one that comes in. -/
theorem not_mem_keys_record (ht : h.Tidy) (hsome : peekSequence? datagram = some other)
    (hkeys : h.keys = front ++ sequence :: younger) (hnew : other ∉ h.keys)
    (hfull : younger.length + 1 = h.capacity) : sequence ∉ (h.record datagram).keys := by
  have hle := ht.length_le
  have hnodup := ht.nodup
  have hrecord := keys_record ht (by omega) hsome
  rw [hkeys, List.length_append, List.length_cons] at hle
  obtain rfl : front = [] := List.length_eq_zero_iff.1 (by omega)
  rw [List.nil_append] at hkeys
  have hne : sequence ≠ other := by
    rintro rfl
    exact hnew (hkeys ▸ List.mem_cons_self)
  have hlength : ¬ h.keys.length < h.capacity := by
    rw [hkeys, List.length_cons]
    omega
  rw [if_neg hnew, if_neg hlength, hkeys, List.tail_cons] at hrecord
  rw [hkeys, List.nodup_cons] at hnodup
  rw [hrecord, List.mem_append, List.mem_singleton]
  rintro (hin | heq)
  · exact hnodup.1 hin
  · exact hne heq

/-! ### Many datagrams -/

/-- A number stays while the numbers behind it, and those that may still come in there, are fewer than
there are places. -/
theorem mem_keys_of_card_lt : ∀ {after : List Bytes} {h : History} {front younger : List UInt16}
    {seen : Finset UInt16}, h.Tidy → h.keys = front ++ sequence :: younger →
    (∀ n ∈ younger, n ∈ seen) → (∀ datagram ∈ after, peekSequence? datagram ≠ some sequence) →
    (seen ∪ numbers after).card < h.capacity → sequence ∈ (after.foldl record h).keys
  | [], h, front, younger, seen, _, hkeys, _, _, _ => by
    rw [List.foldl_nil, hkeys]
    simp
  | datagram :: after, h, front, younger, seen, ht, hkeys, hseen, hafter, hcard => by
    rw [List.foldl_cons]
    have hpos : 0 < h.capacity := Nat.zero_lt_of_lt hcard
    have ht' := ht.record hpos datagram
    have hrest := fun d hd => hafter d (List.mem_cons_of_mem datagram hd)
    cases hpeek : peekSequence? datagram with
    | none =>
      rw [numbers_cons_of_none hpeek] at hcard
      refine mem_keys_of_card_lt ht' ((keys_record_of_none hpeek).trans hkeys) hseen hrest ?_
      rwa [capacity_record]
    | some other =>
      have hunion : insert other seen ∪ numbers after = seen ∪ numbers (datagram :: after) := by
        rw [numbers_cons_of_some hpeek, Finset.insert_union, Finset.union_insert]
      have hcard' : (insert other seen ∪ numbers after).card < (h.record datagram).capacity := by
        rwa [hunion, capacity_record]
      by_cases hold : other ∈ h.keys
      · have hsame : (h.record datagram).keys = h.keys := by
          rw [keys_record ht hpos hpeek, if_pos hold]
        exact mem_keys_of_card_lt ht' (hsame.trans hkeys)
          (fun n hn => Finset.mem_insert_of_mem (hseen n hn)) hrest hcard'
      · have hbehind : (other :: younger).Nodup := by
          have hnodup := ht.nodup
          rw [hkeys] at hnodup hold
          refine List.nodup_cons.2 ⟨fun hin => hold ?_, ?_⟩
          · exact List.mem_append_right _ (List.mem_cons_of_mem _ hin)
          · exact (List.nodup_cons.1 (hnodup.sublist (List.sublist_append_right _ _))).2
        have hroom : younger.length + 1 < h.capacity := by
          have hsubset : (other :: younger).toFinset ⊆ insert other seen ∪ numbers after := by
            intro n hn
            rw [List.mem_toFinset, List.mem_cons] at hn
            refine Finset.mem_union_left _ ?_
            exact hn.elim (fun heq => heq ▸ Finset.mem_insert_self _ _)
              fun hin => Finset.mem_insert_of_mem (hseen n hin)
          have hle := Finset.card_le_card hsubset
          rw [List.toFinset_card_of_nodup hbehind, List.length_cons, hunion] at hle
          omega
        obtain ⟨front', hkeys'⟩ := keys_record_behind ht hpeek hkeys hold hroom
        refine mem_keys_of_card_lt ht' hkeys' (fun n hn => ?_) hrest hcard'
        rcases List.mem_append.1 hn with hn | hn
        · exact Finset.mem_insert_of_mem (hseen n hn)
        · rw [List.mem_singleton.1 hn]
          exact Finset.mem_insert_self _ _

/-- With a place for every number there is nothing is dropped. -/
theorem mem_keys_of_capacity (hcapacity : 65536 ≤ h.capacity) (ht : h.Tidy) (hmem : sequence ∈ h.keys) :
    ∀ after : List Bytes, sequence ∈ (after.foldl record h).keys := by
  intro after
  induction after generalizing h with
  | nil => exact hmem
  | cons datagram after ih =>
    have hpos : 0 < h.capacity := by omega
    refine ih (by rwa [capacity_record]) (ht.record hpos datagram) ?_
    cases hpeek : peekSequence? datagram with
    | none => rwa [keys_record_of_none hpeek]
    | some other =>
      rw [keys_record ht hpos hpeek]
      by_cases hold : other ∈ h.keys
      · rwa [if_pos hold]
      · have hle := length_le_of_nodup (List.nodup_cons.2 ⟨hold, ht.nodup⟩)
        rw [List.length_cons] at hle
        rw [if_neg hold, if_pos (by omega)]
        exact List.mem_append_left _ hmem

/-- A history with places for fewer than all numbers can be given one that is not there. -/
theorem exists_new (ht : h.Tidy) (hcapacity : h.capacity < 65536) :
    ∃ datagram other, peekSequence? datagram = some other ∧ other ∉ h.keys ∧
      ∀ n ∈ h.keys, peekSequence? datagram ≠ some n := by
  have hle := ht.length_le
  have hlt : h.keys.length < 65536 := by omega
  obtain ⟨other, hnew⟩ := exists_not_mem hlt
  have hpeek := peekSequence?_encode { sequence := other, timestamp := 0, ssrc := 0, payload := [] }
  refine ⟨_, other, hpeek, hnew, fun n hn hsame => ?_⟩
  obtain rfl : other = n := Option.some.inj (hpeek.symm.trans hsame)
  exact hnew hn

/-- Numbers that are not there can be recorded until a number is dropped: as many as there are places
left behind it. -/
theorem exists_drop : ∀ {n : Nat} {h : History} {front younger : List UInt16}, h.Tidy →
    h.capacity < 65536 → h.keys = front ++ sequence :: younger → younger.length + (n + 1) = h.capacity →
    ∃ after : List Bytes, after.length = n + 1 ∧
      (∀ datagram ∈ after, peekSequence? datagram ≠ some sequence) ∧
      sequence ∉ (after.foldl record h).keys := by
  intro n
  induction n with
  | zero =>
    intro h front younger ht hcapacity hkeys hlength
    obtain ⟨datagram, other, hpeek, hnew, hothers⟩ := exists_new ht hcapacity
    have hne : peekSequence? datagram ≠ some sequence := hothers sequence (by simp [hkeys])
    exact ⟨[datagram], rfl, by simpa using hne, not_mem_keys_record ht hpeek hkeys hnew hlength⟩
  | succ n ih =>
    intro h front younger ht hcapacity hkeys hlength
    obtain ⟨datagram, other, hpeek, hnew, hothers⟩ := exists_new ht hcapacity
    have hne : peekSequence? datagram ≠ some sequence := hothers sequence (by simp [hkeys])
    obtain ⟨front', hkeys'⟩ := keys_record_behind ht hpeek hkeys hnew (by omega)
    have hlength' : (younger ++ [other]).length + (n + 1) = (h.record datagram).capacity := by
      rw [capacity_record, List.length_append, List.length_singleton]
      omega
    obtain ⟨after, hcount, hafter, hdropped⟩ :=
      ih (ht.record (by omega) datagram) (by rwa [capacity_record]) hkeys' hlength'
    refine ⟨datagram :: after, by rw [List.length_cons, hcount], ?_, hdropped⟩
    exact List.forall_mem_cons.2 ⟨hne, hafter⟩

/-! ### What a packet can count on -/

theorem lastRecorded_of_last (before : List Bytes) (hsome : peekSequence? datagram = some sequence)
    (hafter : ∀ d ∈ after, peekSequence? d ≠ some sequence) :
    lastRecorded (before ++ datagram :: after) sequence = some datagram := by
  have hnone : after.reverse.find? (fun d => peekSequence? d = some sequence) = none := by
    simpa [List.find?_eq_none] using hafter
  rw [lastRecorded, List.reverse_append, List.reverse_cons, List.find?_append, List.find?_append, hnone]
  simp [hsome]

theorem isSome_get?_iff : (h.get? sequence).isSome ↔ sequence ∈ h.keys := by
  simp [get?, keys]

/-- A history gives the packet that was recorded last under a number, as long as the number is there. -/
theorem get?_eq_some_iff (hr : Recent datagrams h) (hlast : lastRecorded datagrams sequence = some datagram) :
    h.get? sequence = some datagram ↔ sequence ∈ h.keys := by
  constructor
  · intro hget
    rw [← isSome_get?_iff, hget]
    rfl
  · intro hmem
    obtain ⟨packet, hget⟩ := Option.isSome_iff_exists.1 (isSome_get?_iff.2 hmem)
    rw [hget, ← hr.get? hget, hlast]

/-- A number that was recorded is there, in front of those that came in after it. -/
theorem exists_keys_record (ht : h.Tidy) (hpos : 0 < h.capacity)
    (hsome : peekSequence? datagram = some sequence) :
    ∃ front younger, (h.record datagram).keys = front ++ sequence :: younger := by
  rw [keys_record ht hpos hsome]
  by_cases hmem : sequence ∈ h.keys
  · rw [if_pos hmem]
    exact List.append_of_mem hmem
  · rw [if_neg hmem]
    split
    · exact ⟨h.keys, [], rfl⟩
    · exact ⟨h.keys.tail, [], rfl⟩

/-- A number is the last in the order just if none came in after it. -/
theorem getLast?_eq_some_iff (hnodup : (front ++ sequence :: younger).Nodup) :
    (front ++ sequence :: younger).getLast? = some sequence ↔ younger = [] := by
  constructor
  · intro hlast
    induction younger using List.reverseRecOn with
    | nil => rfl
    | append_singleton rest last _ =>
      have hend : front ++ sequence :: (rest ++ [last]) = (front ++ sequence :: rest) ++ [last] := by
        simp
      rw [hend, List.getLast?_concat] at hlast
      -- the last number would be there twice
      have hbehind := List.nodup_cons.1 (List.nodup_append.1 hnodup).2.1
      exact absurd (by simp [Option.some.inj hlast]) hbehind.1
  · rintro rfl
    exact List.getLast?_concat ..

/-- **When a packet is kept as long as the history has places for other numbers.** Whatever is recorded
after it, it is given until as many other numbers were recorded as there are places, just if its number
is the last in the order when it is recorded, or no number is ever dropped. -/
theorem kept_iff (hpos : 0 < capacity) (before : List Bytes) (hsome : peekSequence? datagram = some sequence) :
    (∀ after : List Bytes, (∀ d ∈ after, peekSequence? d ≠ some sequence) →
        (numbers after).card < capacity →
        ((before ++ datagram :: after).foldl record { capacity }).get? sequence = some datagram) ↔
      ((before ++ [datagram]).foldl record { capacity }).keys.getLast? = some sequence ∨
        65536 ≤ capacity := by
  generalize hstart : before.foldl record { capacity } = start
  have hcapacity : start.capacity = capacity := by rw [← hstart, capacity_recorded]
  have htidy : start.Tidy := hstart ▸ (tidy_empty capacity).recorded hpos before
  have hrecorded (after : List Bytes) : (before ++ datagram :: after).foldl record { capacity } =
      after.foldl record (start.record datagram) := by
    rw [List.foldl_append, hstart, List.foldl_cons]
  have hkept (after : List Bytes) (hafter : ∀ d ∈ after, peekSequence? d ≠ some sequence) :
      (after.foldl record (start.record datagram)).get? sequence = some datagram ↔
        sequence ∈ (after.foldl record (start.record datagram)).keys := by
    have hempty : Recent [] { capacity } := .of_packets_eq_nil rfl
    have hrecent : Recent (before ++ datagram :: after) (after.foldl record (start.record datagram)) := by
      rw [← hrecorded after]
      exact hempty.recorded
    exact get?_eq_some_iff hrecent (lastRecorded_of_last before hsome hafter)
  have ht' : (start.record datagram).Tidy := htidy.record (by omega) datagram
  have hcapacity' : (start.record datagram).capacity = capacity := by rw [capacity_record, hcapacity]
  obtain ⟨front, younger, hkeys⟩ := exists_keys_record htidy (by omega) hsome
  have hlast : (start.record datagram).keys.getLast? = some sequence ↔ younger = [] := by
    rw [hkeys]
    exact getLast?_eq_some_iff (hkeys ▸ ht'.nodup)
  rw [hrecorded [], List.foldl_nil, hlast]
  constructor
  · intro hall
    by_contra hnot
    push Not at hnot
    obtain ⟨hyounger, hlt⟩ := hnot
    have hle := ht'.length_le
    have hlength := List.length_pos_of_ne_nil hyounger
    rw [hkeys, List.length_append, List.length_cons] at hle
    obtain ⟨after, hcount, hafter, hdropped⟩ :=
      exists_drop (n := capacity - younger.length - 1) ht' (by omega) hkeys (by omega)
    have hcard := card_numbers_le after
    have hget := hall after hafter (by omega)
    rw [hrecorded after, hkept after hafter] at hget
    exact hdropped hget
  · rintro (rfl | hmany) after hafter hcard
    · have hseen : ∀ n ∈ ([] : List UInt16), n ∈ (∅ : Finset UInt16) := by simp
      rw [hrecorded after, hkept after hafter]
      refine mem_keys_of_card_lt ht' hkeys hseen hafter ?_
      rwa [Finset.empty_union, hcapacity']
    · rw [hrecorded after, hkept after hafter]
      exact mem_keys_of_capacity (by omega) ht' (by simp [hkeys]) after

/-- A packet of sound of one octet. -/
def packetOf (sequence : UInt16) (sound : UInt8) : Bytes :=
  AudioPacket.encode { sequence, timestamp := 0, ssrc := 0, payload := [sound] }

/-- The second packet of two in a history with two places, after one more. -/
theorem kept_second : 0 < 2 ∧ peekSequence? (packetOf 2 7) = some 2 ∧
    (([packetOf 1 7] ++ packetOf 2 7 :: [packetOf 3 7]).foldl record { capacity := 2 }).get? 2 =
      some (packetOf 2 7) := by
  have hsome : peekSequence? (packetOf 2 7) = some 2 := by decide
  have hlast : (([packetOf 1 7] ++ [packetOf 2 7]).foldl record { capacity := 2 }).keys.getLast? = some 2 := by
    decide
  have hkept := (kept_iff (by decide) [packetOf 1 7] hsome).2 (.inl hlast)
  exact ⟨by decide, hsome, hkept [packetOf 3 7] (by decide) (by decide)⟩

/-- A packet that replaces one of its number is dropped for the next number, though the history has two
places. -/
theorem dropped_of_repeated :
    ¬ ∀ (capacity : Nat) (before after : List Bytes) (datagram : Bytes) (sequence : UInt16),
      0 < capacity → peekSequence? datagram = some sequence →
      (∀ d ∈ after, peekSequence? d ≠ some sequence) → (numbers after).card < capacity →
      ((before ++ datagram :: after).foldl record { capacity }).get? sequence = some datagram := by
  intro hall
  have hget := hall 2 [packetOf 1 7, packetOf 2 7] [packetOf 3 7] (packetOf 1 8) 1
    (by decide) (by decide) (by decide) (by decide)
  revert hget
  decide

end History
end Raop
