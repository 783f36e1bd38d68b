/-
# Chains of blocks

A payload is whole blocks with a shorter rest behind them (`blocks_induct`).
Decryption goes over it from the front: what was decrypted stays as it is, and
the block just read, as it was before, is what the next one is chained to
(`decryptOnto_eq`, `decrypt_append`). So each block is decrypted on its own,
with the block in front of it in the payload added, or the initial vector; this
and the rest, which is left alone, is all there is to a decryption (`Chained`,
`decrypt_eq_iff`). It undoes any encryption in a chain whose block encryption
the block decryption undoes (`decrypt_encrypt`).

With a key the block decryption is that of AES-128, and there is such a block
encryption (`Decryptor.decrypts_chain`).

Key definitions: `Cbc.block`, `Cbc.inFront`, `Cbc.Chained`, `Cbc.encrypt`, `Cbc.Undoes`.
Key theorems: `Cbc.decryptOnto_eq`, `Cbc.decrypt_append`, `Cbc.decrypt_eq_iff`,
`Cbc.decrypt_encrypt`, `Decryptor.decrypts_chain`.
-/
import Raop.Crypto.Cbc
import Raop.Proofs.Crypto.Aes

namespace Raop
namespace Cbc

/-- The block at a position. -/
def block (payload : Bytes) (i : Nat) : Bytes := (payload.drop (i * blockSize)).take blockSize

/-- What a block is chained to: the block in front of it, or the initial vector. -/
def inFront (iv payload : Bytes) : Nat → Bytes
  | 0 => iv
  | i + 1 => block payload i

/-- The whole blocks of a payload are decrypted, each with what is in front of it added, and the rest
is left as it is. -/
structure Chained (cipher : Bytes → Bytes) (iv payload out : Bytes) : Prop where
  length_eq : out.length = payload.length
  block_eq : ∀ i < payload.length / blockSize,
    block out i = Aes.xor (cipher (block payload i)) (inFront iv payload i)
  rest_eq : out.drop (payload.length / blockSize * blockSize) =
    payload.drop (payload.length / blockSize * blockSize)

/-- The payload encrypted: what is in front of a block is added to it before. -/
def encrypt (cipher : Bytes → Bytes) (iv payload : Bytes) : Bytes :=
  let first := payload.take blockSize
  if _h : first.length = blockSize then
    let done := cipher (Aes.xor first iv)
    done ++ encrypt cipher done (payload.drop blockSize)
  else payload
  termination_by payload.length
  decreasing_by
    have h := ‹first.length = blockSize›
    simp only [first, List.length_take, blockSize] at h
    simp only [List.length_drop, blockSize]
    omega

/-- A block decryption undoes a block encryption. -/
def Undoes (decipher cipher : Bytes → Bytes) : Prop :=
  ∀ b, b.length = blockSize → (cipher b).length = blockSize ∧ decipher (cipher b) = b

/-! ### Block by block -/

/-- Induction over a payload: it is shorter than a block, or a block with a payload behind it. -/
theorem blocks_induct {P : Bytes → Prop} (short : ∀ rest, rest.length < blockSize → P rest)
    (cons : ∀ first payload, first.length = blockSize → P payload → P (first ++ payload))
    (payload : Bytes) : P payload := by
  induction hn : payload.length using Nat.strongRecOn generalizing payload with
  | ind n ih =>
    by_cases h : payload.length < blockSize
    · exact short payload h
    · have hfirst : (payload.take blockSize).length = blockSize := by
        rw [List.length_take]
        omega
      have hlt : (payload.drop blockSize).length < n := by
        simp only [List.length_drop, blockSize] at h ⊢
        omega
      rw [← List.take_append_drop blockSize payload]
      exact cons _ _ hfirst (ih _ hlt _ rfl)

/-- There is no block in a payload that is shorter. -/
theorem length_take_ne {rest : Bytes} (h : rest.length < blockSize) :
    (rest.take blockSize).length ≠ blockSize := by
  rw [List.length_take]
  omega

section

variable {first payload : Bytes} (h : first.length = blockSize)
include h

theorem length_div_append : (first ++ payload).length / blockSize = payload.length / blockSize + 1 := by
  rw [List.length_append, h, Nat.add_comm, Nat.add_div_right _ (by decide)]

theorem take_append_block : (first ++ payload).take blockSize = first := by
  rw [← h, List.take_left]

theorem drop_append_block : (first ++ payload).drop blockSize = payload := by
  rw [← h, List.drop_left]

theorem block_append_zero : block (first ++ payload) 0 = first := by
  rw [block, Nat.zero_mul, List.drop_zero, take_append_block h]

theorem drop_append_succ (i : Nat) :
    (first ++ payload).drop ((i + 1) * blockSize) = payload.drop (i * blockSize) := by
  rw [Nat.succ_mul, Nat.add_comm, ← List.drop_drop, drop_append_block h]

theorem block_append_succ (i : Nat) : block (first ++ payload) (i + 1) = block payload i := by
  rw [block, drop_append_succ h, block]

/-- Behind the first block, the chain goes on with that block in front. -/
theorem inFront_append_succ (iv : Bytes) (i : Nat) :
    inFront iv (first ++ payload) (i + 1) = inFront first payload i := by
  cases i with
  | zero => exact block_append_zero h
  | succ i => exact block_append_succ h i

end

/-! ### Decryption -/

variable {cipher decipher : Bytes → Bytes} {iv payload : Bytes}

theorem decryptOnto_of_short {rest : Bytes} (h : rest.length < blockSize) (done iv : Bytes) :
    decryptOnto cipher done iv rest = done.reverse ++ rest := by
  rw [decryptOnto]
  simp only [dif_neg (length_take_ne h)]

theorem decryptOnto_append {first : Bytes} (h : first.length = blockSize) (done iv payload : Bytes) :
    decryptOnto cipher done iv (first ++ payload) =
      decryptOnto cipher ((Aes.xor (cipher first) iv).reverse ++ done) first payload := by
  rw [decryptOnto]
  simp only [take_append_block h, drop_append_block h, dif_pos h]

/-- What was decrypted before stays in front. -/
theorem decryptOnto_eq (done iv payload : Bytes) :
    decryptOnto cipher done iv payload = done.reverse ++ decrypt cipher iv payload := by
  induction payload using blocks_induct generalizing done iv with
  | short rest h => rw [decrypt, decryptOnto_of_short h, decryptOnto_of_short h]; rfl
  | cons first payload h ih =>
    rw [decrypt, decryptOnto_append h, decryptOnto_append h, ih, ih (_ ++ []), List.append_nil,
      List.reverse_append, List.reverse_reverse, List.append_assoc]

theorem decrypt_of_short {rest : Bytes} (h : rest.length < blockSize) : decrypt cipher iv rest = rest :=
  decryptOnto_of_short h [] iv

/-- A block in front is decrypted, and it is what the payload behind it is chained to. -/
theorem decrypt_append {first : Bytes} (h : first.length = blockSize) (iv payload : Bytes) :
    decrypt cipher iv (first ++ payload) =
      Aes.xor (cipher first) iv ++ decrypt cipher first payload := by
  rw [decrypt, decryptOnto_append h, decryptOnto_eq, List.append_nil, List.reverse_reverse]

/-! ### What a decryption is -/

/-- Two payloads of one size that have the same blocks and the same rest are the same. -/
theorem eq_of_blocks : ∀ {a b : Bytes}, a.length = b.length →
    (∀ i < a.length / blockSize, block a i = block b i) →
    a.drop (a.length / blockSize * blockSize) = b.drop (a.length / blockSize * blockSize) → a = b := by
  intro a
  induction a using blocks_induct with
  | short rest h =>
    intro b _ _ hrest
    rw [Nat.div_eq_of_lt h, Nat.zero_mul, List.drop_zero, List.drop_zero] at hrest
    exact hrest
  | cons first payload h ih =>
    intro b hlength hblocks hrest
    -- the other one begins with the same block
    have hfirst := hblocks 0 (by rw [length_div_append h]; exact Nat.succ_pos _)
    rw [block_append_zero h, block, Nat.zero_mul, List.drop_zero] at hfirst
    obtain ⟨behind, rfl⟩ : ∃ behind, b = first ++ behind :=
      ⟨b.drop blockSize, by rw [hfirst, List.take_append_drop]⟩
    rw [length_div_append h] at hblocks hrest
    rw [drop_append_succ h, drop_append_succ h] at hrest
    refine congrArg (first ++ ·) (ih ?_ (fun i hi => ?_) hrest)
    · simpa using hlength
    · have := hblocks (i + 1) (by omega)
      rwa [block_append_succ h, block_append_succ h] at this

theorem Chained.unique {out out' : Bytes} (h : Chained cipher iv payload out)
    (h' : Chained cipher iv payload out') : out = out' := by
  refine eq_of_blocks (h.length_eq.trans h'.length_eq.symm) (fun i hi => ?_) ?_
  · rw [h.length_eq] at hi
    rw [h.block_eq i hi, h'.block_eq i hi]
  · rw [h.length_eq, h.rest_eq, h'.rest_eq]

/-- A block decrypted and chained is a block. -/
theorem length_unchained (hcipher : ∀ b, b.length = blockSize → (cipher b).length = blockSize)
    {first : Bytes} (h : first.length = blockSize) (hiv : iv.length = blockSize) :
    (Aes.xor (cipher first) iv).length = blockSize := by
  rw [Aes.length_xor, hcipher first h, hiv, Nat.min_self]

/-- Decryption decrypts block by block; along the payload the chain goes on with each block. -/
theorem chained_decrypt (hcipher : ∀ b, b.length = blockSize → (cipher b).length = blockSize)
    (hiv : iv.length = blockSize) : Chained cipher iv payload (decrypt cipher iv payload) := by
  induction payload using blocks_induct generalizing iv with
  | short rest h =>
    have hnone : rest.length / blockSize = 0 := Nat.div_eq_of_lt h
    rw [decrypt_of_short h]
    exact ⟨rfl, fun i hi => absurd hi (by omega), rfl⟩
  | cons first payload h ih =>
    have hfirst := length_unchained hcipher h hiv
    have hrest := ih h
    rw [decrypt_append h]
    constructor
    · rw [List.length_append, List.length_append, hfirst, h, hrest.length_eq]
    · intro i hi
      cases i with
      | zero => rw [block_append_zero hfirst, block_append_zero h, inFront]
      | succ i =>
        rw [length_div_append h] at hi
        rw [block_append_succ hfirst, block_append_succ h, inFront_append_succ h]
        exact hrest.block_eq i (by omega)
    · rw [length_div_append h, drop_append_succ hfirst, drop_append_succ h]
      exact hrest.rest_eq

/-- **A decryption is what the chain says, and nothing else is.** -/
theorem decrypt_eq_iff (hcipher : ∀ b, b.length = blockSize → (cipher b).length = blockSize)
    (hiv : iv.length = blockSize) {out : Bytes} :
    decrypt cipher iv payload = out ↔ Chained cipher iv payload out :=
  ⟨fun h => h ▸ chained_decrypt hcipher hiv, (chained_decrypt hcipher hiv).unique⟩

/-! ### Encryption -/

theorem encrypt_of_short {rest : Bytes} (h : rest.length < blockSize) : encrypt cipher iv rest = rest := by
  rw [encrypt]
  simp only [dif_neg (length_take_ne h)]

theorem encrypt_append {first : Bytes} (h : first.length = blockSize) (iv payload : Bytes) :
    encrypt cipher iv (first ++ payload) =
      cipher (Aes.xor first iv) ++ encrypt cipher (cipher (Aes.xor first iv)) payload := by
  rw [encrypt]
  simp only [take_append_block h, drop_append_block h, dif_pos h]

/-- **Decryption undoes encryption in a chain**, whatever block encryption the block decryption
undoes. -/
theorem decrypt_encrypt (h : Undoes decipher cipher) (hiv : iv.length = blockSize) :
    decrypt decipher iv (encrypt cipher iv payload) = payload := by
  induction payload using blocks_induct generalizing iv with
  | short rest hrest => rw [encrypt_of_short hrest, decrypt_of_short hrest]
  | cons first payload hfirst ih =>
    have hadded : (Aes.xor first iv).length = blockSize := by
      rw [Aes.length_xor, hfirst, hiv, Nat.min_self]
    obtain ⟨hdone, hundone⟩ := h _ hadded
    rw [encrypt_append hfirst, decrypt_append hdone, hundone, ih hdone,
      Aes.xor_xor_cancel (hfirst.trans hiv.symm).le]

end Cbc

namespace Decryptor

/-- AES-128 has an encryption that its decryption undoes. -/
theorem undoes_encipher {key : Bytes} (h : key.length = keySize) :
    Cbc.Undoes (Aes.decipher key) (Aes.encipher key) := fun _ hb =>
  ⟨Aes.isBlock_encipher h hb, Aes.decipher_encipher h hb⟩

/-- **What a decryptor does to a payload of any length.** Sixteen octets each of key and initial vector
make one. What it gives for a payload are the whole blocks decrypted with AES-128 in a chain and the
rest as it is, and this is all that is to be said of it. There is a block encryption that the block
decryption undoes, and what is encrypted in a chain with any such encryption is given back. -/
theorem decrypts_chain {key iv : Bytes} (hkey : key.length = keySize) (hiv : iv.length = keySize)
    (payload : Bytes) :
    ∃ d, ofBytes key iv = .ok d ∧
      (∀ out, d.decrypt payload = out ↔ Cbc.Chained (Aes.decipher key) iv payload out) ∧
      Cbc.Undoes (Aes.decipher key) (Aes.encipher key) ∧
      ∀ cipher, Cbc.Undoes (Aes.decipher key) cipher →
        d.decrypt (Cbc.encrypt cipher iv payload) = payload := by
  refine ⟨{ key, iv }, ?_, ?_, undoes_encipher hkey, ?_⟩
  · rw [ofBytes, if_neg (not_not.2 hkey), if_neg (not_not.2 hiv)]
  · intro out
    exact Cbc.decrypt_eq_iff (fun _ hb => Aes.isBlock_decipher hkey hb) hiv
  · intro cipher hundoes
    exact Cbc.decrypt_encrypt hundoes hiv

/-- Two whole blocks and five octets more, under a key and an initial vector that repeat one octet. -/
theorem decrypts_chain_thirtySeven :
    (List.replicate 16 0x11 : Bytes).length = keySize ∧ (List.replicate 16 0x22 : Bytes).length = keySize ∧
    ∃ d, ofBytes (List.replicate 16 0x11) (List.replicate 16 0x22) = .ok d ∧
      (∀ out, d.decrypt ((List.range 37).map UInt8.ofNat) = out ↔
        Cbc.Chained (Aes.decipher (List.replicate 16 0x11)) (List.replicate 16 0x22)
          ((List.range 37).map UInt8.ofNat) out) ∧
      Cbc.Undoes (Aes.decipher (List.replicate 16 0x11)) (Aes.encipher (List.replicate 16 0x11)) ∧
      ∀ cipher, Cbc.Undoes (Aes.decipher (List.replicate 16 0x11)) cipher →
        d.decrypt (Cbc.encrypt cipher (List.replicate 16 0x22) ((List.range 37).map UInt8.ofNat)) =
          (List.range 37).map UInt8.ofNat :=
  ⟨rfl, rfl, decrypts_chain rfl rfl _⟩

end Decryptor
end Raop
