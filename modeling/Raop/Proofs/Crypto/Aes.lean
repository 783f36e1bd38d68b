/-
# Encryption under AES-128, which decryption undoes

The steps of a round are undone one by one. An octet that is substituted is
found again in the inverse table (`look_invSbox_look_sbox`), as no two octets
have the same substitution. Rows that are moved are moved back. A column is
multiplied by the inverse of the mixing polynomial: products are additive
(`times_xor`), so eight elements decide each coefficient of the product of the
two polynomials (`coefficient`), which is one (`unmixed_mixed`). A round key is
added twice. So a block that is encrypted under round keys of sixteen octets is
decrypted under them again (`decryptWith_encryptWith`), and a key of sixteen
octets expands to such round keys (`isBlock_of_mem_roundKeys`).

Key definitions: `Aes.IsBlock`, `Aes.mixColumns`, `Aes.encryptWith`, `Aes.decipher`, `Aes.encipher`.
Key theorems: `Aes.look_invSbox_look_sbox`, `Aes.unmixColumns_mixColumns`,
`Aes.decryptWith_encryptWith`, `Aes.isBlock_of_mem_roundKeys`, `Aes.decipher_encipher`.
-/
import Mathlib.Data.FinEnum
import Mathlib.Data.Fintype.Card
import Raop.Crypto.Aes

namespace Raop.Aes

/-! ### Tables -/

/-- A table of all octets has what it was made from. -/
theorem look_table (f : Nat → UInt8) (a : UInt8) :
    look ((List.range 256).map f).toArray a = f a.toNat := by
  have ha : a.toNat < 256 := a.toNat_lt
  simp [look, Array.getD_eq_getD_getElem?, ha]

theorem look_sbox (a : UInt8) : look sbox a = substitute a := by
  rw [sbox, look_table, UInt8.ofNat_toNat]

theorem look_multiples (k a : UInt8) : look (multiples k) a = times k a := by
  rw [multiples, look_table, UInt8.ofNat_toNat]

/-! ### Substitution -/

/-- The bits that are set one after the other. -/
theorem testBit_foldl_or (f : Nat → Nat) (v : Nat) : ∀ (ns : List Nat) (m : Nat),
    (ns.foldl (fun m n => m ||| 2 ^ f n) m).testBit v = (m.testBit v || ns.any fun n => f n == v)
  | [], m => by simp
  | n :: ns, m => by
    rw [List.foldl_cons, testBit_foldl_or f v ns, Nat.testBit_or, Nat.testBit_two_pow, List.any_cons,
      Bool.or_assoc]
    rfl

/-- The substitutions of all octets, as bits of a number, leave none out. -/
theorem substitutions :
    (List.range 256).foldl (fun m n => m ||| 2 ^ (substitute (UInt8.ofNat n)).toNat) 0 = 2 ^ 256 - 1 := by
  decide +kernel

theorem substitute_surjective : Function.Surjective substitute := by
  intro b
  have hbit := congrArg (Nat.testBit · b.toNat) substitutions
  simp only [testBit_foldl_or, Nat.zero_testBit, Bool.false_or, Nat.testBit_two_pow_sub_one,
    show b.toNat < 256 from b.toNat_lt, decide_true, List.any_eq_true, beq_iff_eq] at hbit
  obtain ⟨n, -, hn⟩ := hbit
  exact ⟨UInt8.ofNat n, UInt8.toNat_inj.1 hn⟩

/-- There are as many substitutions as octets, so no two are the same. -/
theorem substitute_injective : Function.Injective substitute :=
  Finite.injective_iff_surjective.2 substitute_surjective

/-- Entries at different places are all found in a table that is filled one by one. -/
theorem getElem?_foldl_set {f : Nat → Nat} {g : Nat → UInt8} {t : Array UInt8} {n : Nat}
    (hf : ∀ i < n, f i < t.size) (hinj : ∀ i < n, ∀ j < n, f i = f j → i = j) {i : Nat} (hi : i < n) :
    ((List.range n).foldl (fun t i => t.setIfInBounds (f i) (g i)) t)[f i]? = some (g i) := by
  have hsize : ∀ n, ((List.range n).foldl (fun t i => t.setIfInBounds (f i) (g i)) t).size = t.size := by
    intro n
    induction n with
    | zero => rfl
    | succ n ih => rw [List.range_succ, List.foldl_append, List.foldl_cons, List.foldl_nil,
        Array.size_setIfInBounds, ih]
  induction n with
  | zero => omega
  | succ n ih =>
    rw [List.range_succ, List.foldl_append, List.foldl_cons, List.foldl_nil,
      Array.getElem?_setIfInBounds, hsize]
    by_cases hin : i = n
    · rw [hin, if_pos rfl, if_pos (hf n (Nat.lt_succ_self n))]
    · have hlt : i < n := by omega
      rw [if_neg fun heq => hin (hinj i hi n (Nat.lt_succ_self n) heq.symm)]
      exact ih (fun j hj => hf j (by omega)) (fun j hj k hk => hinj j (by omega) k (by omega)) hlt

/-- **The inverse table undoes the substitution.** -/
theorem look_invSbox_look_sbox (a : UInt8) : look invSbox (look sbox a) = a := by
  have hsbox : ∀ n < 256, (sbox.getD n 0) = substitute (UInt8.ofNat n) := by
    intro n hn
    have := look_sbox (UInt8.ofNat n)
    rwa [look, UInt8.toNat_ofNat', Nat.mod_eq_of_lt hn] at this
  have hfound := getElem?_foldl_set (n := 256) (f := fun n => (sbox.getD n 0).toNat) (g := UInt8.ofNat)
    (t := Array.replicate 256 0) (fun n _ => ?_) ?_ a.toNat_lt
  · rw [look, invSbox, Array.getD_eq_getD_getElem?]
    show (_[(sbox.getD a.toNat 0).toNat]?).getD 0 = a
    rw [hfound, Option.getD_some, UInt8.ofNat_toNat]
  · rw [Array.size_replicate]
    exact UInt8.toNat_lt _
  · intro i hi j hj heq
    simp only [hsbox i hi, hsbox j hj, UInt8.toNat_inj] at heq
    have := congrArg UInt8.toNat (substitute_injective heq)
    rwa [UInt8.toNat_ofNat', UInt8.toNat_ofNat', Nat.mod_eq_of_lt hi, Nat.mod_eq_of_lt hj] at this

/-! ### Products -/

/-- One bit of a product: the multiple so far is added if the bit is set, and doubled. -/
def addBit (b : UInt8) (acc : UInt8 × UInt8) (i : Nat) : UInt8 × UInt8 :=
  (if b.toNat.testBit i then acc.1 ^^^ acc.2 else acc.1, double acc.2)

theorem times_eq (a b : UInt8) : times a b = ((List.range 8).foldl (addBit b) (0, a)).1 := rfl

theorem foldl_addBit_xor (a b : UInt8) : ∀ (is : List Nat) (p q d : UInt8),
    (is.foldl (addBit (a ^^^ b)) (p ^^^ q, d)).1 =
      (is.foldl (addBit a) (p, d)).1 ^^^ (is.foldl (addBit b) (q, d)).1
  | [], _, _, _ => rfl
  | i :: is, p, q, d => by
    have hstep : addBit (a ^^^ b) (p ^^^ q, d) i =
        ((addBit a (p, d) i).1 ^^^ (addBit b (q, d) i).1, double d) := by
      simp only [addBit, UInt8.toNat_xor, Nat.testBit_xor]
      cases a.toNat.testBit i <;> cases b.toNat.testBit i
      · rfl
      · simp [UInt8.xor_assoc]
      · simp only [Bool.bne_false, if_true, Bool.false_eq_true, if_false]
        congr 1
        ac_rfl
      · simp only [bne_self_eq_false, Bool.false_eq_true, if_false, if_true]
        congr 1
        rw [show p ^^^ d ^^^ (q ^^^ d) = p ^^^ q ^^^ (d ^^^ d) by ac_rfl, UInt8.xor_self, UInt8.xor_zero]
    rw [List.foldl_cons, List.foldl_cons, List.foldl_cons, hstep]
    exact foldl_addBit_xor a b is _ _ _

/-- The product of an element and a sum is the sum of the products. -/
theorem times_xor (k a b : UInt8) : times k (a ^^^ b) = times k a ^^^ times k b := by
  rw [times_eq, times_eq, times_eq]
  exact foldl_addBit_xor a b (List.range 8) 0 0 k

/-- Additive functions are the same if they are the same on the octets of a single bit. -/
theorem eq_of_bits {f g : UInt8 → UInt8} (hf : ∀ a b, f (a ^^^ b) = f a ^^^ f b)
    (hg : ∀ a b, g (a ^^^ b) = g a ^^^ g b)
    (h : ∀ i < 8, f (UInt8.ofNat (2 ^ i)) = g (UInt8.ofNat (2 ^ i))) (a : UInt8) : f a = g a := by
  have hzero : ∀ {f : UInt8 → UInt8}, (∀ a b, f (a ^^^ b) = f a ^^^ f b) → f 0 = 0 := fun {f} hf => by
    have h0 := hf 0 0
    rwa [UInt8.xor_self, UInt8.xor_self] at h0
  -- an octet becomes smaller without its highest bit
  have hbit : ∀ n < 256, n = 0 ∨ ∃ i < 8, (UInt8.ofNat n ^^^ UInt8.ofNat (2 ^ i)).toNat < n := by
    decide +kernel
  induction hn : a.toNat using Nat.strongRecOn generalizing a with
  | ind n ih =>
    rcases hbit n (hn ▸ a.toNat_lt) with rfl | ⟨i, hi, hlt⟩
    · rw [show a = 0 from UInt8.toNat_inj.1 hn, hzero hf, hzero hg]
    · rw [← hn, UInt8.ofNat_toNat] at hlt
      have hsplit : a = (a ^^^ UInt8.ofNat (2 ^ i)) ^^^ UInt8.ofNat (2 ^ i) := by
        rw [UInt8.xor_assoc, UInt8.xor_self, UInt8.xor_zero]
      rw [hsplit, hf, hg, h i hi, ih _ (hn ▸ hlt) _ rfl]

/-! ### Columns -/

/-- An octet of a column that is mixed, from the octet at its place on. -/
def mixed (a b c d : UInt8) : UInt8 := times 2 a ^^^ times 3 b ^^^ times 1 c ^^^ times 1 d

/-- An octet of a column that is mixed back, from the octet at its place on. -/
def unmixed (a b c d : UInt8) : UInt8 := times 14 a ^^^ times 11 b ^^^ times 13 c ^^^ times 9 d

/-- Columns multiplied by the mixing polynomial. -/
def mixColumns : Bytes → Bytes
  | a :: b :: c :: d :: rest =>
    mixed a b c d :: mixed b c d a :: mixed c d a b :: mixed d a b c :: mixColumns rest
  | rest => rest

/-- A coefficient of a product of two polynomials, which eight elements decide. -/
theorem coefficient {k₁ k₂ k₃ k₄ l₁ l₂ l₃ l₄ c : UInt8}
    (h : ∀ i < 8, times k₁ (times l₁ (UInt8.ofNat (2 ^ i))) ^^^ times k₂ (times l₂ (UInt8.ofNat (2 ^ i))) ^^^
      times k₃ (times l₃ (UInt8.ofNat (2 ^ i))) ^^^ times k₄ (times l₄ (UInt8.ofNat (2 ^ i))) =
        times c (UInt8.ofNat (2 ^ i))) (a : UInt8) :
    times k₁ (times l₁ a) ^^^ times k₂ (times l₂ a) ^^^ times k₃ (times l₃ a) ^^^ times k₄ (times l₄ a) =
      times c a := by
  refine eq_of_bits (f := fun a => times k₁ (times l₁ a) ^^^ times k₂ (times l₂ a) ^^^
    times k₃ (times l₃ a) ^^^ times k₄ (times l₄ a)) (fun a b => ?_) (times_xor c) h a
  simp only [times_xor]
  ac_rfl

theorem times_one (a : UInt8) : times 1 a = a :=
  eq_of_bits (g := fun a => a) (times_xor 1) (fun _ _ => rfl) (by decide) a

theorem times_zero (a : UInt8) : times 0 a = 0 :=
  eq_of_bits (g := fun _ => 0) (times_xor 0) (fun _ _ => rfl) (by decide) a

/-- **A column that is mixed is mixed back**: the product of the two polynomials is one. -/
theorem unmixed_mixed (a b c d : UInt8) :
    unmixed (mixed a b c d) (mixed b c d a) (mixed c d a b) (mixed d a b c) = a := by
  simp only [unmixed, mixed, times_xor]
  calc _ = (times 14 (times 2 a) ^^^ times 11 (times 1 a) ^^^ times 13 (times 1 a) ^^^ times 9 (times 3 a)) ^^^
        (times 14 (times 3 b) ^^^ times 11 (times 2 b) ^^^ times 13 (times 1 b) ^^^ times 9 (times 1 b)) ^^^
        (times 14 (times 1 c) ^^^ times 11 (times 3 c) ^^^ times 13 (times 2 c) ^^^ times 9 (times 1 c)) ^^^
        (times 14 (times 1 d) ^^^ times 11 (times 1 d) ^^^ times 13 (times 3 d) ^^^ times 9 (times 2 d)) := by
        ac_rfl
    _ = times 1 a ^^^ times 0 b ^^^ times 0 c ^^^ times 0 d := by
        rw [coefficient (c := 1) (by decide +kernel) a, coefficient (c := 0) (by decide +kernel) b,
          coefficient (c := 0) (by decide +kernel) c, coefficient (c := 0) (by decide +kernel) d]
    _ = a := by
        rw [times_one, times_zero, times_zero, times_zero, UInt8.xor_zero, UInt8.xor_zero,
          UInt8.xor_zero]

/-- A column is mixed back octet by octet. -/
theorem unmixColumns_cons (a b c d : UInt8) (rest : Bytes) :
    unmixColumns (a :: b :: c :: d :: rest) =
      unmixed a b c d :: unmixed b c d a :: unmixed c d a b :: unmixed d a b c :: unmixColumns rest := by
  simp only [unmixColumns, by9, by11, by13, by14, look_multiples, unmixed, List.cons.injEq, true_and,
    and_true]
  exact ⟨by ac_rfl, by ac_rfl, by ac_rfl⟩

theorem unmixColumns_mixColumns : ∀ block : Bytes, unmixColumns (mixColumns block) = block
  | a :: b :: c :: d :: rest => by
    have ih := unmixColumns_mixColumns rest
    rw [mixColumns, unmixColumns_cons, unmixed_mixed, unmixed_mixed, unmixed_mixed, unmixed_mixed, ih]
  | [] => rfl
  | [_] => rfl
  | [_, _] => rfl
  | [_, _, _] => rfl

/-! ### Rows -/

/-- Rows moved left by their index. -/
def shiftRows : Bytes → Bytes
  | [a0, a1, a2, a3, b0, b1, b2, b3, c0, c1, c2, c3, d0, d1, d2, d3] =>
    [a0, b1, c2, d3, b0, c1, d2, a3, c0, d1, a2, b3, d0, a1, b2, c3]
  | block => block

theorem unshiftRows_shiftRows (block : Bytes) : unshiftRows (shiftRows block) = block := by
  fun_cases shiftRows block with
  | case1 => rfl
  | case2 _ h => rw [unshiftRows]; exact h

/-- The substitution of every octet, and rows moved. -/
def substituteAll (block : Bytes) : Bytes := shiftRows (block.map (look sbox))

theorem unsubstitute_substituteAll (block : Bytes) : unsubstitute (substituteAll block) = block := by
  have hcomp : look invSbox ∘ look sbox = id := by
    funext a
    rw [Function.comp_apply, look_invSbox_look_sbox, id_eq]
  rw [unsubstitute, substituteAll, unshiftRows_shiftRows, List.map_map, hcomp, List.map_id]

/-! ### Sizes -/

theorem length_xor (a b : Bytes) : (xor a b).length = min a.length b.length :=
  List.length_zipWith

theorem length_mixColumns : ∀ block : Bytes, (mixColumns block).length = block.length
  | a :: b :: c :: d :: rest => by simp only [mixColumns, List.length_cons, length_mixColumns rest]
  | [] => rfl
  | [_] => rfl
  | [_, _] => rfl
  | [_, _, _] => rfl

theorem length_unmixColumns : ∀ block : Bytes, (unmixColumns block).length = block.length
  | a :: b :: c :: d :: rest => by simp only [unmixColumns, List.length_cons, length_unmixColumns rest]
  | [] => rfl
  | [_] => rfl
  | [_, _] => rfl
  | [_, _, _] => rfl

theorem length_shiftRows (block : Bytes) : (shiftRows block).length = block.length := by
  fun_cases shiftRows block <;> rfl

theorem length_unshiftRows (block : Bytes) : (unshiftRows block).length = block.length := by
  fun_cases unshiftRows block <;> rfl

theorem length_substituteAll (block : Bytes) : (substituteAll block).length = block.length := by
  rw [substituteAll, length_shiftRows, List.length_map]

theorem length_unsubstitute (block : Bytes) : (unsubstitute block).length = block.length := by
  rw [unsubstitute, List.length_map, length_unshiftRows]

/-- A key that is added twice is gone. -/
theorem xor_xor_cancel : ∀ {block key : Bytes}, block.length ≤ key.length →
    xor (xor block key) key = block
  | [], _, _ => rfl
  | b :: block, [], h => by simp at h
  | b :: block, k :: key, h => by
    have ih : xor (xor block key) key = block := xor_xor_cancel (by simpa using h)
    show (b ^^^ k ^^^ k) :: xor (xor block key) key = b :: block
    rw [ih, UInt8.xor_assoc, UInt8.xor_self, UInt8.xor_zero]

/-! ### Rounds -/

/-- Octets of the size of a block or a round key. -/
abbrev IsBlock (block : Bytes) : Prop := block.length = 16

/-- What the rounds with these keys are undone by: the last key is added first. -/
def unrounds (block : Bytes) : List Bytes → Bytes
  | [] => block
  | [key] => substituteAll (xor block key)
  | key :: keys => substituteAll (xor (mixColumns (unrounds block keys)) key)

/-- The encryption of a block under expanded round keys, the last one first. -/
def encryptWith (keys : List Bytes) (block : Bytes) : Bytes :=
  match keys with
  | [] => block
  | key :: keys => xor (unrounds block keys) key

variable {block : Bytes} {keys : List Bytes}

theorem isBlock_xor {a b : Bytes} (ha : IsBlock a) (hb : IsBlock b) : IsBlock (xor a b) := by
  rw [IsBlock, length_xor, ha, hb, Nat.min_self]

theorem isBlock_unrounds (hblock : IsBlock block) (hkeys : ∀ key ∈ keys, IsBlock key) :
    IsBlock (unrounds block keys) := by
  fun_induction unrounds block keys with
  | case1 => exact hblock
  | case2 key =>
    rw [IsBlock, length_substituteAll]
    exact isBlock_xor hblock (hkeys key List.mem_cons_self)
  | case3 key keys hne ih =>
    rw [IsBlock, length_substituteAll]
    refine isBlock_xor ?_ (hkeys key List.mem_cons_self)
    rw [IsBlock, length_mixColumns]
    exact ih fun k hk => hkeys k (List.mem_cons_of_mem _ hk)

theorem isBlock_rounds (hblock : IsBlock block) (hkeys : ∀ key ∈ keys, IsBlock key) :
    IsBlock (rounds block keys) := by
  fun_induction rounds block keys with
  | case1 => exact hblock
  | case2 block key =>
    exact isBlock_xor ((length_unsubstitute block).trans hblock) (hkeys key List.mem_cons_self)
  | case3 block key keys hne ih =>
    refine ih ?_ fun k hk => hkeys k (List.mem_cons_of_mem _ hk)
    rw [IsBlock, length_unmixColumns]
    exact isBlock_xor ((length_unsubstitute block).trans hblock) (hkeys key List.mem_cons_self)

/-- Rounds undo what undoes them, one key after the other. -/
theorem rounds_unrounds (hblock : IsBlock block) (hkeys : ∀ key ∈ keys, IsBlock key) :
    rounds (unrounds block keys) keys = block := by
  fun_induction unrounds block keys with
  | case1 => rfl
  | case2 key =>
    have hkey := hkeys key List.mem_cons_self
    rw [rounds, unsubstitute_substituteAll, xor_xor_cancel (hblock.trans hkey.symm).le]
  | case3 key keys hne ih =>
    have hkey := hkeys key List.mem_cons_self
    have hrest : ∀ k ∈ keys, IsBlock k := fun k hk => hkeys k (List.mem_cons_of_mem _ hk)
    have hsize : (mixColumns (unrounds block keys)).length ≤ key.length := by
      rw [length_mixColumns, isBlock_unrounds hblock hrest, hkey]
    rw [rounds, unsubstitute_substituteAll, xor_xor_cancel hsize, unmixColumns_mixColumns, ih hrest]
    exact hne

theorem isBlock_encryptWith (hblock : IsBlock block) (hkeys : ∀ key ∈ keys, IsBlock key) :
    IsBlock (encryptWith keys block) := by
  cases keys with
  | nil => exact hblock
  | cons key keys =>
    exact isBlock_xor (isBlock_unrounds hblock fun k hk => hkeys k (List.mem_cons_of_mem _ hk))
      (hkeys key List.mem_cons_self)

theorem isBlock_decryptWith (hblock : IsBlock block) (hkeys : ∀ key ∈ keys, IsBlock key) :
    IsBlock (decryptWith keys block) := by
  cases keys with
  | nil => exact hblock
  | cons key keys =>
    exact isBlock_rounds (isBlock_xor hblock (hkeys key List.mem_cons_self))
      fun k hk => hkeys k (List.mem_cons_of_mem _ hk)

/-- **Decryption undoes encryption** under the same round keys. -/
theorem decryptWith_encryptWith (hblock : IsBlock block) (hkeys : ∀ key ∈ keys, IsBlock key) :
    decryptWith keys (encryptWith keys block) = block := by
  cases keys with
  | nil => rfl
  | cons key keys =>
    have hrest : ∀ k ∈ keys, IsBlock k := fun k hk => hkeys k (List.mem_cons_of_mem _ hk)
    have hsize := (isBlock_unrounds hblock hrest).trans (hkeys key List.mem_cons_self).symm
    rw [decryptWith, encryptWith, xor_xor_cancel hsize.le, rounds_unrounds hblock hrest]

/-! ### Key expansion -/

theorem isBlock_nextKey {key : Bytes} (h : IsBlock key) (constant : UInt8) :
    IsBlock (nextKey key constant) := by
  have hlast : (key.drop 12).length = 4 := by rw [List.length_drop, h]
  obtain ⟨a, b, c, d, hdrop⟩ := List.length_eq_four.1 hlast
  simp [IsBlock, nextKey, hdrop, length_xor, h]

/-- The round keys are of the size of a block, if the key is. -/
theorem isBlock_of_mem_roundKeys {key k : Bytes} (h : IsBlock key) (hk : k ∈ roundKeys key) :
    IsBlock k := by
  -- along the expansion there is a last key, and all keys are blocks
  have hall : ∀ (ns : List Nat) (acc : List Bytes × UInt8), acc.1 ≠ [] → (∀ k ∈ acc.1, IsBlock k) →
      ∀ k ∈ (ns.foldl (fun (acc : List Bytes × UInt8) _ =>
        (nextKey (acc.1.headD []) acc.2 :: acc.1, double acc.2)) acc).1, IsBlock k := by
    intro ns
    induction ns with
    | nil => exact fun acc _ hacc => hacc
    | cons n ns ih =>
      intro acc hne hacc
      refine ih _ (List.cons_ne_nil _ _) (List.forall_mem_cons.2 ⟨isBlock_nextKey ?_ _, hacc⟩)
      obtain ⟨last, rest, hlast⟩ := List.exists_cons_of_ne_nil hne
      rw [hlast]
      exact hacc last (hlast ▸ List.mem_cons_self)
  exact hall (List.range 10) ([key], 1) (List.cons_ne_nil _ _) (by simpa using h) k hk

/-! ### Under a key -/

/-- The decryption of a block with a key. -/
def decipher (key : Bytes) : Bytes → Bytes := decryptWith (roundKeys key)

/-- The encryption of a block with a key. -/
def encipher (key : Bytes) : Bytes → Bytes := encryptWith (roundKeys key)

variable {key : Bytes}

theorem isBlock_decipher (hkey : IsBlock key) (hblock : IsBlock block) : IsBlock (decipher key block) :=
  isBlock_decryptWith hblock fun _ hk => isBlock_of_mem_roundKeys hkey hk

theorem isBlock_encipher (hkey : IsBlock key) (hblock : IsBlock block) : IsBlock (encipher key block) :=
  isBlock_encryptWith hblock fun _ hk => isBlock_of_mem_roundKeys hkey hk

/-- **What is encrypted with a key of sixteen octets is decrypted with it.** -/
theorem decipher_encipher (hkey : IsBlock key) (hblock : IsBlock block) :
    decipher key (encipher key block) = block :=
  decryptWith_encryptWith hblock fun _ hk => isBlock_of_mem_roundKeys hkey hk

end Raop.Aes
