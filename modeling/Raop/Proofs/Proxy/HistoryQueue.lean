/-
# The queue and the table of a history

A history can be kept in two parts: a queue of the sequence numbers, oldest
first, and a table with the datagram of each number. A datagram goes into the
table first; its number goes to the end of the queue if the table had none under
it; then numbers leave the queue from its front, and the table with them, until
the queue fits (`QueuedHistory.dropOldest`). The parts are changed apart, and yet
they never part: `QueuedHistory.InStep` holds at first and is kept by every
datagram and by every emptying.

Where it holds, the queue and the table together are the history that has the
packets in one list (`QueuedHistory.toHistory_record`).

Key definitions: `QueuedHistory`, `QueuedHistory.dropOldest`, `QueuedHistory.record`,
`QueuedHistory.InStep`, `QueuedHistory.toHistory`, `History.Call`.
Key theorems: `QueuedHistory.InStep.record`, `QueuedHistory.toHistory_record`,
`History.queue_in_step`.
-/
import Mathlib.Data.Finmap
import Mathlib.Data.Set.Card
import Raop.Proofs.Lists
import Raop.Proxy.History

namespace Raop

theorem AudioPacket.headerSize_le_of_peekSequence? {datagram : Bytes} {sequence : UInt16}
    (h : peekSequence? datagram = some sequence) : headerSize ≤ datagram.length := by
  unfold peekSequence? at h
  split at h
  · assumption
  · cases h

/-- Datagrams by their sequence numbers. -/
abbrev PacketTable := Finmap fun _ : UInt16 => Bytes

/-- A history in two parts: the numbers kept, oldest first, and the datagram of each. -/
structure QueuedHistory where
  capacity : Nat
  order : List UInt16 := []
  packets : PacketTable := ∅

/-- What is done to a history. -/
inductive History.Call where
  | record (datagram : Bytes)
  | clear

/-- The history after a call. -/
def History.call (h : History) : Call → History
  | .record datagram => h.record datagram
  | .clear => h.clear

/-- The history of a capacity after some calls. -/
def History.ofCalls (capacity : Nat) (calls : List Call) : History := calls.foldl call { capacity }

namespace QueuedHistory

/-- The oldest numbers leave the queue and the table until the queue is no longer than the capacity. -/
def dropOldest (capacity : Nat) : List UInt16 → PacketTable → QueuedHistory
  | [], packets => { capacity, order := [], packets }
  | oldest :: order, packets =>
    if capacity < order.length + 1 then dropOldest capacity order (packets.erase oldest)
    else { capacity, order := oldest :: order, packets }

/-- The queue when a datagram is put into the table: with its number, if the table had none under it. -/
def enqueue (q : QueuedHistory) (sequence : UInt16) : List UInt16 :=
  if (q.packets.lookup sequence).isNone then q.order ++ [sequence] else q.order

/-- A datagram is put into the table and its number into the queue; then the oldest ones leave. -/
def record (q : QueuedHistory) (datagram : Bytes) : QueuedHistory :=
  if q.capacity = 0 then q
  else match AudioPacket.peekSequence? datagram with
    | none => q
    | some sequence =>
      dropOldest q.capacity (q.enqueue sequence) (q.packets.insert sequence datagram)

/-- The datagram kept under a sequence number. -/
def get? (q : QueuedHistory) (sequence : UInt16) : Option Bytes := q.packets.lookup sequence

/-- The number of datagrams kept. -/
def size (q : QueuedHistory) : Nat := q.order.length

/-- Nothing is kept. -/
def clear (q : QueuedHistory) : QueuedHistory := { q with order := [], packets := ∅ }

/-- The history after a call. -/
def call (q : QueuedHistory) : History.Call → QueuedHistory
  | .record datagram => q.record datagram
  | .clear => q.clear

/-- The history of a capacity after some calls. -/
def ofCalls (capacity : Nat) (calls : List History.Call) : QueuedHistory := calls.foldl call { capacity }

variable {q : QueuedHistory} {capacity : Nat} {order : List UInt16} {packets : PacketTable}
  {sequence : UInt16} {datagram : Bytes}

/-! ### The parts belong together -/

/-- The queue has the numbers of the table, each of them once, and no more of them than there are
places; a datagram of the table is under its own number. -/
structure InStep (q : QueuedHistory) : Prop where
  nodup : q.order.Nodup
  keys : q.order.toFinset = q.packets.keys
  length_le : q.order.length ≤ q.capacity
  own : ∀ sequence datagram, q.packets.lookup sequence = some datagram →
    AudioPacket.peekSequence? datagram = some sequence

theorem mem_packets_iff (hkeys : order.toFinset = packets.keys) : sequence ∈ packets ↔ sequence ∈ order := by
  rw [← Finmap.mem_keys, ← hkeys, List.mem_toFinset]

theorem InStep.empty (capacity : Nat) : InStep { capacity } where
  nodup := List.nodup_nil
  keys := rfl
  length_le := Nat.zero_le _
  own sequence datagram h := by simp at h

theorem inStep_clear (q : QueuedHistory) : q.clear.InStep := .empty q.capacity

/-- The numbers left in the queue are those left in the table, and what is left there is as it was. -/
theorem inStep_dropOldest (hnodup : order.Nodup) (hkeys : order.toFinset = packets.keys)
    (hown : ∀ sequence datagram, packets.lookup sequence = some datagram →
      AudioPacket.peekSequence? datagram = some sequence) :
    (dropOldest capacity order packets).InStep := by
  induction order generalizing packets with
  | nil => exact ⟨List.nodup_nil, hkeys, Nat.zero_le _, hown⟩
  | cons oldest order ih =>
    obtain ⟨hnew, hrest⟩ := List.nodup_cons.1 hnodup
    rw [dropOldest]
    split
    · refine ih hrest ?_ fun sequence datagram hlookup => ?_
      · rw [Finmap.keys_erase, ← hkeys, List.toFinset_cons,
          Finset.erase_insert (by rwa [List.mem_toFinset])]
      · by_cases heq : sequence = oldest
        · rw [heq, Finmap.lookup_erase] at hlookup
          cases hlookup
        · rw [Finmap.lookup_erase_ne heq] at hlookup
          exact hown sequence datagram hlookup
    · next hfits => exact ⟨hnodup, hkeys, Nat.le_of_not_lt hfits, hown⟩

@[simp] theorem capacity_dropOldest (capacity : Nat) (order : List UInt16) (packets : PacketTable) :
    (dropOldest capacity order packets).capacity = capacity := by
  induction order generalizing packets with
  | nil => rfl
  | cons oldest order ih =>
    rw [dropOldest]
    split
    · exact ih _
    · rfl

/-- A number goes to the end of the queue if it is not there. -/
theorem enqueue_eq (h : q.InStep) (sequence : UInt16) :
    q.enqueue sequence = if sequence ∈ q.order then q.order else q.order ++ [sequence] := by
  unfold enqueue
  by_cases hmem : sequence ∈ q.order
  · have hsome := Finmap.lookup_isSome.2 ((mem_packets_iff h.keys).2 hmem)
    rw [if_pos hmem, if_neg (by simpa [Option.isSome_iff_ne_none] using hsome)]
  · have hnone := Finmap.lookup_eq_none.2 fun hin => hmem ((mem_packets_iff h.keys).1 hin)
    rw [if_neg hmem, if_pos (by rw [hnone]; rfl)]

theorem nodup_enqueue (h : q.InStep) (sequence : UInt16) : (q.enqueue sequence).Nodup := by
  rw [enqueue_eq h]
  split
  · exact h.nodup
  · next hnew => exact h.nodup.append (List.nodup_singleton _) (by simpa using hnew)

/-- The queue and the table have one more number, the same one, or none more. -/
theorem keys_enqueue (h : q.InStep) (sequence : UInt16) (datagram : Bytes) :
    (q.enqueue sequence).toFinset = (q.packets.insert sequence datagram).keys := by
  ext number
  rw [Finmap.mem_keys, Finmap.mem_insert, mem_packets_iff h.keys, List.mem_toFinset, enqueue_eq h]
  split
  · next hmem =>
    refine ⟨Or.inr, ?_⟩
    rintro (rfl | hin)
    · exact hmem
    · exact hin
  · rw [List.mem_append, List.mem_singleton, or_comm]

theorem own_insert (h : q.InStep) (hpeek : AudioPacket.peekSequence? datagram = some sequence) :
    ∀ number data, (q.packets.insert sequence datagram).lookup number = some data →
      AudioPacket.peekSequence? data = some number := by
  intro number data hlookup
  by_cases heq : number = sequence
  · rw [heq, Finmap.lookup_insert] at hlookup
    rw [← Option.some.inj hlookup, heq, hpeek]
  · rw [Finmap.lookup_insert_of_ne _ heq] at hlookup
    exact h.own number data hlookup

theorem record_of_no_place (hzero : q.capacity = 0) : q.record datagram = q := if_pos hzero

theorem record_of_none (hpeek : AudioPacket.peekSequence? datagram = none) : q.record datagram = q := by
  unfold record
  split
  · rfl
  · rw [hpeek]

theorem record_of_some (hpos : q.capacity ≠ 0)
    (hpeek : AudioPacket.peekSequence? datagram = some sequence) :
    q.record datagram =
      dropOldest q.capacity (q.enqueue sequence) (q.packets.insert sequence datagram) := by
  unfold record
  rw [if_neg hpos, hpeek]

/-- **A datagram keeps queue and table in step.** -/
theorem InStep.record (h : q.InStep) (datagram : Bytes) : (q.record datagram).InStep := by
  by_cases hzero : q.capacity = 0
  · rwa [record_of_no_place hzero]
  · cases hpeek : AudioPacket.peekSequence? datagram with
    | none => rwa [record_of_none hpeek]
    | some sequence =>
      rw [record_of_some hzero hpeek]
      exact inStep_dropOldest (nodup_enqueue h sequence) (keys_enqueue h sequence datagram)
        (own_insert h hpeek)

theorem InStep.call (h : q.InStep) : ∀ call : History.Call, (q.call call).InStep
  | .record datagram => h.record datagram
  | .clear => inStep_clear q

@[simp] theorem capacity_record (q : QueuedHistory) (datagram : Bytes) :
    (q.record datagram).capacity = q.capacity := by
  unfold record
  split
  · rfl
  · split
    · rfl
    · exact capacity_dropOldest ..

theorem capacity_call (q : QueuedHistory) : ∀ call : History.Call, (q.call call).capacity = q.capacity
  | .record datagram => capacity_record q datagram
  | .clear => rfl

/-- As many numbers are in the queue as give a datagram. -/
theorem InStep.size_eq (h : q.InStep) :
    q.size = {sequence | (q.get? sequence).isSome = true}.ncard := by
  have hfound : {sequence | (q.get? sequence).isSome = true} = ↑q.order.toFinset := by
    ext sequence
    rw [Set.mem_ofPred_eq, get?, Finmap.lookup_isSome, mem_packets_iff h.keys, Finset.mem_coe,
      List.mem_toFinset]
  rw [hfound, Set.ncard_coe_finset, List.toFinset_card_of_nodup h.nodup, size]

/-! ### Both together are the history -/

/-- Numbers with their datagrams. -/
def entries (order : List UInt16) (packets : PacketTable) : List (UInt16 × Bytes) :=
  order.filterMap fun sequence => (packets.lookup sequence).map (sequence, ·)

/-- The history whose packets are those of the queue, in its order, as the table has them. -/
def toHistory (q : QueuedHistory) : History :=
  { capacity := q.capacity, packets := entries q.order q.packets }

theorem entries_cons_of_lookup (h : packets.lookup sequence = some datagram) :
    entries (sequence :: order) packets = (sequence, datagram) :: entries order packets :=
  List.filterMap_cons_some (by rw [h]; rfl)

/-- The table may differ in what is under other numbers. -/
theorem entries_congr {packets' : PacketTable}
    (h : ∀ sequence ∈ order, packets'.lookup sequence = packets.lookup sequence) :
    entries order packets' = entries order packets :=
  List.filterMap_congr fun sequence hin => by rw [h sequence hin]

theorem entries_insert_of_not_mem (hnew : sequence ∉ order) :
    entries order (packets.insert sequence datagram) = entries order packets :=
  entries_congr fun _ hin => Finmap.lookup_insert_of_ne _ fun heq => hnew (heq ▸ hin)

theorem exists_lookup (h : ∀ sequence ∈ order, sequence ∈ packets) (hin : sequence ∈ order) :
    ∃ datagram, packets.lookup sequence = some datagram := Finmap.mem_iff.1 (h sequence hin)

theorem map_fst_entries (h : ∀ sequence ∈ order, sequence ∈ packets) :
    (entries order packets).map (·.1) = order := by
  induction order with
  | nil => rfl
  | cons sequence order ih =>
    obtain ⟨datagram, hlookup⟩ := exists_lookup h List.mem_cons_self
    rw [entries_cons_of_lookup hlookup, List.map_cons,
      ih fun number hin => h number (List.mem_cons_of_mem _ hin)]

theorem length_entries (h : ∀ sequence ∈ order, sequence ∈ packets) :
    (entries order packets).length = order.length := by
  rw [← List.length_map (f := (·.1)), map_fst_entries h]

/-- Putting a datagram into the table is storing it in the list. -/
theorem store_entries (hnodup : order.Nodup) (h : ∀ number ∈ order, number ∈ packets) :
    History.store sequence datagram (entries order packets) =
      entries (if sequence ∈ order then order else order ++ [sequence])
        (packets.insert sequence datagram) := by
  have hself : (packets.insert sequence datagram).lookup sequence = some datagram :=
    Finmap.lookup_insert _
  induction order with
  | nil =>
    rw [if_neg List.not_mem_nil, List.nil_append, entries_cons_of_lookup hself]
    rfl
  | cons oldest order ih =>
    obtain ⟨hnew, hrest⟩ := List.nodup_cons.1 hnodup
    obtain ⟨data, hlookup⟩ := exists_lookup h List.mem_cons_self
    rw [entries_cons_of_lookup hlookup, History.store]
    by_cases heq : oldest = sequence
    · subst heq
      rw [if_pos rfl, if_pos List.mem_cons_self, entries_cons_of_lookup hself,
        entries_insert_of_not_mem hnew]
    · have hother : (packets.insert sequence datagram).lookup oldest = some data :=
        (Finmap.lookup_insert_of_ne _ heq).trans hlookup
      have hmem : sequence ∈ oldest :: order ↔ sequence ∈ order := by
        rw [List.mem_cons, or_iff_right (Ne.symm heq)]
      rw [if_neg heq, ih hrest fun number hin => h number (List.mem_cons_of_mem _ hin)]
      simp only [hmem]
      split
      · exact (entries_cons_of_lookup hother).symm
      · exact (entries_cons_of_lookup hother).symm

/-- Dropping numbers from the queue and the table is dropping packets from the list. -/
theorem toHistory_dropOldest (hnodup : order.Nodup) (h : ∀ number ∈ order, number ∈ packets) :
    (dropOldest capacity order packets).toHistory =
      { capacity, packets := History.evict capacity (entries order packets) } := by
  induction order generalizing packets with
  | nil => simp [dropOldest, toHistory, entries, History.evict]
  | cons oldest order ih =>
    obtain ⟨hnew, hrest⟩ := List.nodup_cons.1 hnodup
    obtain ⟨data, hlookup⟩ := exists_lookup h List.mem_cons_self
    have hlength := length_entries h
    have hrestLength := length_entries fun number hin => h number (List.mem_cons_of_mem _ hin)
    have herase : ∀ number ∈ order, (packets.erase oldest).lookup number = packets.lookup number :=
      fun number hin => Finmap.lookup_erase_ne fun heq => hnew (heq ▸ hin)
    rw [dropOldest]
    split
    · next hfull =>
      have hstay : ∀ number ∈ order, number ∈ packets.erase oldest := fun number hin =>
        Finmap.mem_erase.2 ⟨fun heq => hnew (heq ▸ hin), h number (List.mem_cons_of_mem _ hin)⟩
      have hcount : order.length + 1 - capacity = order.length - capacity + 1 := by omega
      rw [ih hrest hstay, entries_congr herase, History.evict, History.evict, hlength, hrestLength,
        List.length_cons, hcount, entries_cons_of_lookup hlookup, List.drop_succ_cons]
    · next hfits =>
      have hnone : (oldest :: order).length - capacity = 0 :=
        Nat.sub_eq_zero_of_le (Nat.le_of_not_lt hfits)
      rw [History.evict, hlength, hnone, List.drop_zero]
      rfl

/-- **A datagram does the same to the two parts as to the list.** -/
theorem toHistory_record (h : q.InStep) (datagram : Bytes) :
    (q.record datagram).toHistory = q.toHistory.record datagram := by
  by_cases hzero : q.capacity = 0
  · rw [record_of_no_place hzero]
    exact (if_pos hzero).symm
  · cases hpeek : AudioPacket.peekSequence? datagram with
    | none =>
      rw [record_of_none hpeek, History.record, hpeek]
      split <;> rfl
    | some sequence =>
      have hall : ∀ number ∈ q.enqueue sequence, number ∈ q.packets.insert sequence datagram :=
        fun number hin => (mem_packets_iff (keys_enqueue h sequence datagram)).2 hin
      rw [record_of_some hzero hpeek, toHistory_dropOldest (nodup_enqueue h sequence) hall,
        enqueue_eq h, ← store_entries h.nodup fun number hin => (mem_packets_iff h.keys).2 hin,
        History.record, if_neg (show q.toHistory.capacity ≠ 0 from hzero), hpeek]
      rfl

theorem toHistory_call (h : q.InStep) : ∀ call : History.Call,
    (q.call call).toHistory = q.toHistory.call call
  | .record datagram => toHistory_record h datagram
  | .clear => rfl

theorem InStep.get?_toHistory (h : q.InStep) (sequence : UInt16) :
    q.toHistory.get? sequence = q.get? sequence := by
  have hall : ∀ number ∈ q.order, number ∈ q.packets := fun number => (mem_packets_iff h.keys).2
  change ((entries q.order q.packets).find? fun e => e.1 == sequence).map (·.2) = q.packets.lookup sequence
  cases hlookup : q.packets.lookup sequence with
  | some datagram =>
    have hin : sequence ∈ q.order :=
      (mem_packets_iff h.keys).1 (Finmap.mem_of_lookup_eq_some hlookup)
    have hmem : (sequence, datagram) ∈ entries q.order q.packets :=
      List.mem_filterMap.2 ⟨sequence, hin, by rw [hlookup]; rfl⟩
    have hnodup : ((entries q.order q.packets).map (·.1)).Nodup := by
      rw [map_fst_entries hall]
      exact h.nodup
    rw [find?_of_nodup hnodup hmem fun e => beq_iff_eq]
    rfl
  | none =>
    rw [Option.map_eq_none_iff, List.find?_eq_none]
    intro e he
    obtain ⟨number, -, he⟩ := List.mem_filterMap.1 he
    obtain ⟨data, hdata, rfl⟩ := Option.map_eq_some_iff.1 he
    rw [beq_iff_eq]
    rintro rfl
    rw [hlookup] at hdata
    cases hdata

theorem InStep.size_toHistory (h : q.InStep) : q.toHistory.size = q.size :=
  length_entries fun _ => (mem_packets_iff h.keys).2

end QueuedHistory

namespace History

/-- What calls keep: the queue and the table are in step, and are the history. -/
theorem queue_of_calls (capacity : Nat) (calls : List Call) :
    (QueuedHistory.ofCalls capacity calls).InStep ∧
      (QueuedHistory.ofCalls capacity calls).capacity = capacity ∧
      (QueuedHistory.ofCalls capacity calls).toHistory = ofCalls capacity calls := by
  induction calls using List.reverseRecOn with
  | nil => exact ⟨.empty capacity, rfl, rfl⟩
  | append_singleton calls call ih =>
    obtain ⟨hstep, hcapacity, hhistory⟩ := ih
    have hlast : QueuedHistory.ofCalls capacity (calls ++ [call]) =
        (QueuedHistory.ofCalls capacity calls).call call := List.foldl_concat ..
    have hlast' : ofCalls capacity (calls ++ [call]) = (ofCalls capacity calls).call call :=
      List.foldl_concat ..
    rw [hlast, hlast', ← hhistory]
    exact ⟨hstep.call call, (QueuedHistory.capacity_call _ call).trans hcapacity,
      QueuedHistory.toHistory_call hstep call⟩

/-- **The queue and the table of a history stay in step.** After any calls, whatever the capacity, the
queue has no number twice, its numbers are those of the table, and there are no more of them than the
capacity; a datagram of the table is as long as a header at least and under the number that it shows. So
its size is the count of the numbers that give a datagram. The history of the same calls has these
numbers in this order with these datagrams, and gives the same for every number. -/
theorem queue_in_step (capacity : Nat) (calls : List Call) :
    let q := QueuedHistory.ofCalls capacity calls
    let h := ofCalls capacity calls
    q.order.Nodup ∧ q.order.toFinset = q.packets.keys ∧ q.order.length ≤ capacity ∧
      (∀ sequence datagram, q.packets.lookup sequence = some datagram →
        12 ≤ datagram.length ∧ AudioPacket.peekSequence? datagram = some sequence) ∧
      q.size = {sequence | (q.get? sequence).isSome = true}.ncard ∧
      h = q.toHistory ∧ h.size = q.size ∧ ∀ sequence, h.get? sequence = q.get? sequence := by
  intro q h
  obtain ⟨hstep, hcapacity, hhistory⟩ := queue_of_calls capacity calls
  have hown : ∀ sequence datagram, q.packets.lookup sequence = some datagram →
      12 ≤ datagram.length ∧ AudioPacket.peekSequence? datagram = some sequence := by
    intro sequence datagram hlookup
    have hpeek := hstep.own sequence datagram hlookup
    exact ⟨AudioPacket.headerSize_le_of_peekSequence? hpeek, hpeek⟩
  have hle : q.order.length ≤ capacity := hcapacity ▸ hstep.length_le
  refine ⟨hstep.nodup, hstep.keys, hle, hown, hstep.size_eq, hhistory.symm, ?_, fun sequence => ?_⟩
  · exact (congrArg size hhistory).symm.trans hstep.size_toHistory
  · exact (congrArg (get? · sequence) hhistory).symm.trans (hstep.get?_toHistory sequence)

end History
end Raop
