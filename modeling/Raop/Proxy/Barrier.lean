/-
# Waiting for every peer

After a request went to all peers, the proxy waits until each of them has
answered with the request's sequence number or is gone, but no longer than a
limit. A peer shows the sequence number of its last answer; it counts as done
from the moment that number is the awaited one, whatever it answers later.
When time is up, those still there whose number is another one are pending.

Key definitions: `Cell`, `Barrier`, `Barrier.note`, `Barrier.reached`, `Barrier.pending`,
`Barrier.run`.
-/
namespace Raop

/-- What is known of a peer's answers. -/
structure Cell where
  /-- The sequence number of the last answer. -/
  seen : UInt32 := 0
  /-- The peer is still there. -/
  isOpen : Bool := true
  deriving DecidableEq, Repr, Inhabited

/-- What happens to a peer. -/
inductive CellChange where
  | answered (cseq : UInt32)
  | closed
  deriving DecidableEq, Repr, Inhabited

/-- The cell after a change. -/
def Cell.after (c : Cell) : CellChange → Cell
  | .answered cseq => if c.isOpen then { c with seen := cseq } else c
  | .closed => { c with isOpen := false }

/-- A wait for a sequence number: every peer's cell, and whether the peer is done. -/
structure Barrier where
  cseq : UInt32
  cells : List (Cell × Bool)
  deriving DecidableEq, Repr, Inhabited

namespace Barrier

/-- A peer with this cell is done. -/
def met (cseq : UInt32) (c : Cell) : Bool := !c.isOpen || c.seen = cseq

/-- The wait as it starts. -/
def start (cseq : UInt32) (cells : List Cell) : Barrier :=
  { cseq, cells := cells.map fun c => (c, met cseq c) }

/-- Something happens to the peer at a position. -/
def note (b : Barrier) (index : Nat) (change : CellChange) : Barrier :=
  { b with cells := b.cells.modify index fun (c, done) =>
      let c := c.after change
      (c, done || met b.cseq c) }

/-- Every peer is done. -/
def reached (b : Barrier) : Bool := b.cells.all (·.2)

/-- The peers that are there and whose last answer is another one. -/
def pending (b : Barrier) : Nat := (b.cells.filter fun p => !met b.cseq p.1).length

/-- The wait over timed changes in order, up to the limit: the number of pending peers and the
time that it took. -/
def run (b : Barrier) (limit now : Nat) : List (Nat × Nat × CellChange) → Nat × Nat
  | [] => if b.reached then (0, now) else (b.pending, limit)
  | (time, index, change) :: rest =>
    if b.reached then (0, now)
    else if limit < time then (b.pending, limit)
    else (b.note index change).run limit time rest

end Barrier
end Raop
