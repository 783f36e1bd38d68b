/-
# Octet strings and big-endian words

Everything on the wire is a list of octets. Numbers travel with the most
significant octet first; a reader of a word takes exactly as many octets as
the word has and hands back the rest, so a layout is read field by field.

Key definitions: `Bytes`, `be16`, `be32`, `be64`, `read16`, `read32`, `read64`.
Key theorems: `read16_be16`, `read32_be32`, `read64_be64`, `toNatBE_be16`, `toNatBE_be32`.
-/
namespace Raop

/-- A string of octets. -/
abbrev Bytes := List UInt8

namespace Bytes

/-- The octets of a text that holds ASCII characters only. -/
def ofAscii (s : String) : Bytes := s.toList.map fun c => UInt8.ofNat c.toNat

/-- A 16-bit word, most significant octet first. -/
def be16 (w : UInt16) : Bytes :=
  [UInt8.ofNat (w.toNat / 256), UInt8.ofNat w.toNat]

/-- A 32-bit word, most significant octet first. -/
def be32 (w : UInt32) : Bytes :=
  [UInt8.ofNat (w.toNat / 16777216), UInt8.ofNat (w.toNat / 65536),
   UInt8.ofNat (w.toNat / 256), UInt8.ofNat w.toNat]

/-- A 64-bit word, most significant octet first. -/
def be64 (w : UInt64) : Bytes :=
  be32 (UInt32.ofNat (w.toNat / 4294967296)) ++ be32 (UInt32.ofNat w.toNat)

/-- The 16-bit word at the front, with what follows it. -/
def read16 : Bytes → Option (UInt16 × Bytes)
  | a :: b :: rest => some (UInt16.ofNat (a.toNat * 256 + b.toNat), rest)
  | _ => none

/-- The 32-bit word at the front, with what follows it. -/
def read32 : Bytes → Option (UInt32 × Bytes)
  | a :: b :: c :: d :: rest =>
    some (UInt32.ofNat (((a.toNat * 256 + b.toNat) * 256 + c.toNat) * 256 + d.toNat), rest)
  | _ => none

/-- The 64-bit word at the front, with what follows it. -/
def read64 (bs : Bytes) : Option (UInt64 × Bytes) := do
  let (hi, bs) ← read32 bs
  let (lo, bs) ← read32 bs
  return (UInt64.ofNat (hi.toNat * 4294967296 + lo.toNat), bs)

/-- The number that the octets write in base 256, most significant first. -/
def toNatBE (bs : Bytes) : Nat := bs.foldl (fun n b => n * 256 + b.toNat) 0

/-- The `width` low octets of a number in base 256, most significant first. -/
def ofNatBE (width : Nat) (n : Nat) : Bytes :=
  (List.range width).foldl (fun (acc : Bytes × Nat) _ =>
    (UInt8.ofNat acc.2 :: acc.1, acc.2 / 256)) (([] : Bytes), n) |>.1

/-- Octets filled up with zeros to `width`; longer ones stay as they are. -/
def padTo (width : Nat) (bs : Bytes) : Bytes :=
  bs ++ List.replicate (width - bs.length) 0

theorem read16_be16 (w : UInt16) (rest : Bytes) : read16 (be16 w ++ rest) = some (w, rest) := by
  have h := w.toNat_lt
  simp only [be16, read16, List.cons_append, List.nil_append, Option.some.injEq, Prod.mk.injEq,
    and_true]
  apply UInt16.toNat_inj.1
  simp only [UInt16.toNat_ofNat', UInt8.toNat_ofNat']
  omega

theorem read32_be32 (w : UInt32) (rest : Bytes) : read32 (be32 w ++ rest) = some (w, rest) := by
  have h := w.toNat_lt
  simp only [be32, read32, List.cons_append, List.nil_append, Option.some.injEq, Prod.mk.injEq,
    and_true]
  apply UInt32.toNat_inj.1
  simp only [UInt32.toNat_ofNat', UInt8.toNat_ofNat']
  omega

theorem read64_be64 (w : UInt64) (rest : Bytes) : read64 (be64 w ++ rest) = some (w, rest) := by
  have h := w.toNat_lt
  simp only [be64, read64, List.append_assoc, read32_be32, Option.bind_eq_bind, Option.bind_some,
    Option.pure_def, Option.some.injEq, Prod.mk.injEq, and_true]
  apply UInt64.toNat_inj.1
  simp only [UInt64.toNat_ofNat', UInt32.toNat_ofNat']
  omega

@[simp] theorem length_be16 (w : UInt16) : (be16 w).length = 2 := rfl

@[simp] theorem length_be32 (w : UInt32) : (be32 w).length = 4 := rfl

@[simp] theorem length_be64 (w : UInt64) : (be64 w).length = 8 := rfl

@[simp] theorem toNatBE_singleton (b : UInt8) : toNatBE [b] = b.toNat := by simp [toNatBE]

@[simp] theorem toNatBE_be16 (w : UInt16) : toNatBE (be16 w) = w.toNat := by
  have h := w.toNat_lt
  simp only [toNatBE, be16, List.foldl_cons, List.foldl_nil, UInt8.toNat_ofNat']
  omega

@[simp] theorem toNatBE_be32 (w : UInt32) : toNatBE (be32 w) = w.toNat := by
  have h := w.toNat_lt
  simp only [toNatBE, be32, List.foldl_cons, List.foldl_nil, UInt8.toNat_ofNat']
  omega

end Bytes
end Raop
