/-
# The SHA-1 digest

A message is filled up to blocks of sixty-four octets with a one bit, zeros and
its length in bits; each block turns the state of five words over eighty rounds.

Key definitions: `Sha1.digest`.
-/
import Raop.Bytes

namespace Raop.Sha1

/-- The state between blocks. -/
structure State where
  a : UInt32 := 0x67452301
  b : UInt32 := 0xEFCDAB89
  c : UInt32 := 0x98BADCFE
  d : UInt32 := 0x10325476
  e : UInt32 := 0xC3D2E1F0

/-- A word with its bits moved up by `n`, those beyond the end coming in again below. -/
def rotate (w : UInt32) (n : UInt32) : UInt32 := (w <<< n) ||| (w >>> (32 - n))

/-- The octets of a message with its filling. -/
def pad (message : Bytes) : Bytes :=
  let zeros := (119 - message.length % 64) % 64
  message ++ 0x80 :: List.replicate zeros 0 ++
    Bytes.be64 (UInt64.ofNat (message.length * 8))

/-- The big-endian words of octets. -/
def words : Bytes → List UInt32
  | a :: b :: c :: d :: rest =>
    UInt32.ofNat (((a.toNat * 256 + b.toNat) * 256 + c.toNat) * 256 + d.toNat) :: words rest
  | _ => []

/-- The eighty words of a block's schedule. -/
def schedule (block : Bytes) : Array UInt32 :=
  (List.range 64).foldl (fun w i =>
    w.push (rotate (w.getD (i + 13) 0 ^^^ w.getD (i + 8) 0 ^^^ w.getD (i + 2) 0 ^^^ w.getD i 0) 1))
    (words block).toArray

/-- One round with its number and its word. -/
def round (s : State) (i : Nat) (w : UInt32) : State :=
  let (f, k) : UInt32 × UInt32 :=
    if i < 20 then ((s.b &&& s.c) ||| (~~~s.b &&& s.d), 0x5A827999)
    else if i < 40 then (s.b ^^^ s.c ^^^ s.d, 0x6ED9EBA1)
    else if i < 60 then ((s.b &&& s.c) ||| (s.b &&& s.d) ||| (s.c &&& s.d), 0x8F1BBCDC)
    else (s.b ^^^ s.c ^^^ s.d, 0xCA62C1D6)
  { a := rotate s.a 5 + f + s.e + k + w, b := s.a, c := rotate s.b 30, d := s.c, e := s.d }

/-- The state after a block. -/
def compress (s : State) (block : Bytes) : State :=
  let w := schedule block
  let t := (List.range 80).foldl (fun t i => round t i (w.getD i 0)) s
  { a := s.a + t.a, b := s.b + t.b, c := s.c + t.c, d := s.d + t.d, e := s.e + t.e }

/-- The state after `n` blocks at the front of the octets. -/
def compressAll (s : State) (bs : Bytes) : Nat → State
  | 0 => s
  | n + 1 => compressAll (compress s (bs.take 64)) (bs.drop 64) n

/-- The twenty octets of a message's digest. -/
def digest (message : Bytes) : Bytes :=
  let padded := pad message
  let s := compressAll {} padded (padded.length / 64)
  Bytes.be32 s.a ++ Bytes.be32 s.b ++ Bytes.be32 s.c ++ Bytes.be32 s.d ++ Bytes.be32 s.e

end Raop.Sha1
