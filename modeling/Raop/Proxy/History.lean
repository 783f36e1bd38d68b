/-
# History of audio packets

The packets passed on last are kept under their sequence numbers, oldest first,
up to a capacity. A packet with a number that is there takes the place of the
old one and does not become younger.

Key definitions: `History`, `History.record`, `History.get?`, `History.retransmissions?`.
-/
import Raop.Datagram.Retransmit

namespace Raop

/-- The datagrams kept, oldest first, each with its sequence number. -/
structure History where
  capacity : Nat
  packets : List (UInt16 × Bytes) := []
  deriving DecidableEq, Repr, Inhabited

namespace History

/-- The packets with a datagram stored: in place of one of the same number, else at the end. -/
def store (sequence : UInt16) (datagram : Bytes) :
    List (UInt16 × Bytes) → List (UInt16 × Bytes)
  | [] => [(sequence, datagram)]
  | p :: ps => if p.1 = sequence then (sequence, datagram) :: ps else p :: store sequence datagram ps

/-- The youngest packets that the capacity admits. -/
def evict (capacity : Nat) (packets : List (UInt16 × Bytes)) : List (UInt16 × Bytes) :=
  packets.drop (packets.length - capacity)

/-- A datagram is kept, if it is long enough to have a sequence number. -/
def record (h : History) (datagram : Bytes) : History :=
  if h.capacity = 0 then h
  else match AudioPacket.peekSequence? datagram with
    | none => h
    | some sequence => { h with packets := evict h.capacity (store sequence datagram h.packets) }

@[simp] theorem capacity_record (h : History) (datagram : Bytes) :
    (h.record datagram).capacity = h.capacity := by
  unfold record
  split
  · rfl
  · split <;> rfl

/-- The datagram kept under a sequence number. -/
def get? (h : History) (sequence : UInt16) : Option Bytes :=
  (h.packets.find? fun p => p.1 == sequence).map (·.2)

/-- The number of datagrams kept. -/
def size (h : History) : Nat := h.packets.length

/-- Nothing is kept. -/
def clear (h : History) : History := { h with packets := [] }

/-- A response for each sequence number asked for; nothing if one of them is not kept. -/
def retransmissions? (h : History) (request : RetransmitRequest) : Option (List Bytes) :=
  request.sequences.mapM fun sequence =>
    (h.get? sequence).map (RetransmitResponse.encode sequence)

end History
end Raop
