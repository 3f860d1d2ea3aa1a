/-
`hash` is SHA-512: the byte-level padding is the standard's bit-level padding, block words are the
words of the padded bit string, and the block loop is the standard's chaining.
-/
import Sha512Circuit.Compress.Padding
import Sha512Circuit.Compress.Refine

namespace Sha512Circuit

/-! ## Bit strings of byte strings -/

namespace Fips

theorem bits_add (n m x : ℕ) : bits (n + m) x = bits n (x / 2 ^ m) ++ bits m x := by
  unfold bits
  rw [List.range_add, List.map_append, List.map_map]
  congr 1
  · refine List.map_congr_left fun i hi => ?_
    have hi := List.mem_range.1 hi
    rw [Nat.testBit_div_two_pow]
    congr 1; omega
  · refine List.map_congr_left fun i _ => ?_
    show x.testBit (n + m - 1 - (n + i)) = _
    congr 1; omega

theorem bits_mod (n x : ℕ) : bits n (x % 2 ^ n) = bits n x := by
  refine List.map_congr_left fun i hi => ?_
  have hi := List.mem_range.1 hi
  rw [Nat.testBit_mod_two_pow, decide_eq_true (by omega), Bool.true_and]

@[simp] theorem bits_length (n x : ℕ) : (bits n x).length = n := by simp [bits]

theorem toNat_append (l l' : List Bool) : toNat (l ++ l') = toNat l * 2 ^ l'.length + toNat l' := by
  induction l' using List.reverseRecOn with
  | nil => simp [toNat]
  | append_singleton l' b ih =>
    have e : ∀ l : List Bool, toNat (l ++ [b]) = 2 * toNat l + b.toNat := fun l => by
      simp [toNat, List.foldl_append]
    rw [← List.append_assoc, e, e, ih, List.length_append, List.length_singleton, pow_succ]
    ring

theorem toNat_bits (n x : ℕ) : toNat (bits n x) = x % 2 ^ n := by
  induction n generalizing x with
  | zero => simp [bits, toNat, Nat.mod_one]
  | succ n ih =>
    have e : toNat (bits 1 x) = x % 2 := by
      have h : x.testBit 0 = decide (x % 2 = 1) := Nat.testBit_zero x
      rcases Nat.mod_two_eq_zero_or_one x with h2 | h2 <;> simp [bits, toNat, h2]
    rw [bits_add, toNat_append, ih, e, bits_length, pow_one, show 2 ^ (n + 1) = 2 * 2 ^ n from pow_succ' 2 n,
      @Nat.mod_mul 2 (2 ^ n) x]
    omega

@[simp] theorem ofBytes_append (bs cs : List U8) : ofBytes (bs ++ cs) = ofBytes bs ++ ofBytes cs :=
  List.flatMap_append

@[simp] theorem ofBytes_length (bs : List U8) : (ofBytes bs).length = 8 * bs.length := by
  induction bs with
  | nil => rfl
  | cons b bs ih =>
    have e : ofBytes (b :: bs) = bits 8 b.toNat ++ ofBytes bs := rfl
    rw [e, List.length_append, bits_length, ih, List.length_cons]; ring

theorem ofBytes_zeros (n : ℕ) : ofBytes (List.replicate n 0) = List.replicate (8 * n) false := by
  induction n with
  | zero => rfl
  | succ n ih =>
    have e : bits 8 (0 : U8).toNat = List.replicate 8 false := by decide
    rw [List.replicate_succ, show ofBytes (0 :: List.replicate n 0) =
      bits 8 (0 : U8).toNat ++ ofBytes (List.replicate n 0) from rfl, e, ih, ← List.replicate_add]
    congr 1; omega

theorem ofBytes_toBe (n x : ℕ) : ofBytes (Bytes.toBe n x) = bits (8 * n) x := by
  induction n generalizing x with
  | zero => rfl
  | succ n ih =>
    have e : ofBytes [BitVec.ofNat 8 x] = bits 8 x := by
      show bits 8 (BitVec.ofNat 8 x).toNat ++ [] = _
      rw [List.append_nil, BitVec.toNat_ofNat, bits_mod]
    rw [Bytes.toBe_succ, ofBytes_append, ih, e, show 8 * (n + 1) = 8 * n + 8 by ring, bits_add]
    rfl

theorem toNat_ofBytes (bs : List U8) : toNat (ofBytes bs) = Bytes.ofBe bs := by
  rw [← Bytes.toBe_ofBe bs, ofBytes_toBe, toNat_bits, Bytes.ofBe_toBe, pow_mul]
  norm_num

theorem ofBytes_split (bs : List U8) {k : ℕ} (hk : k ≤ bs.length) :
    (ofBytes bs).take (8 * k) = ofBytes (bs.take k) ∧ (ofBytes bs).drop (8 * k) = ofBytes (bs.drop k) := by
  have e : ofBytes bs = ofBytes (bs.take k) ++ ofBytes (bs.drop k) := by
    rw [← ofBytes_append, List.take_append_drop]
  have hl : (ofBytes (bs.take k)).length = 8 * k := by rw [ofBytes_length, List.length_take]; omega
  rw [e, ← hl]
  exact ⟨List.take_left, List.drop_left⟩

end Fips

/-! ## Padding -/

theorem zeroBits_eq (n : ℕ) : Fips.zeroBits (8 * n) = 7 + 8 * zeroBytes (n + 1) := by
  unfold Fips.zeroBits zeroBytes
  rw [Nat.find_eq_iff]
  exact ⟨by omega, fun j hj => by omega⟩

/-- `pad_message` is the standard's padding. -/
theorem ofBytes_padMessage (message : List U8) :
    Fips.ofBytes (padMessage message) = Fips.pad (Fips.ofBytes message) := by
  -- 0x80 is the 1 bit with the first seven zeros, so the bit and byte counts of zeros differ by seven
  have e80 : Fips.ofBytes [0x80] = [true] ++ List.replicate 7 false := by decide
  have elen : Fips.ofBytes (Bytes.toBe 16 (8 * message.length % 2 ^ 128)) = Fips.bits 128 (8 * message.length) := by
    rw [Fips.ofBytes_toBe]; exact Fips.bits_mod 128 _
  rw [padMessage_eq, Fips.pad, Fips.ofBytes_length, zeroBits_eq, List.replicate_add]
  simp only [Fips.ofBytes_append, e80, elen, Fips.ofBytes_zeros, List.append_assoc]

/-! ## Blocks and chaining -/

/-- The chaining value after some blocks. -/
def chainState (initialState : State) (blocks : List Block) : State :=
  blocks.foldl (fun state block => (compressBlock state block).outputState) initialState

theorem chainState_take_succ (s : State) (blocks : List Block) (i : ℕ) (hi : i < blocks.length) :
    chainState s (blocks.take (i + 1)) =
      (compressBlock (chainState s (blocks.take i)) blocks[i]).outputState := by
  unfold chainState
  rw [List.take_add_one, List.getElem?_eq_getElem hi, List.foldl_append]
  rfl

/-- Word `j` of block `i` is the standard's word of the padded message. -/
theorem blockWord_paddedBlocks (message : List U8) (i : ℕ) (hi : i < (paddedBlocks message).length) {j : ℕ}
    (hj : j < 16) :
    blockWord (paddedBlocks message)[i] j = Fips.word (Fips.pad (Fips.ofBytes message)) i j := by
  have hl := padMessage_length message
  have hb : (i + 1) * 128 ≤ (padMessage message).length := by
    rw [paddedBlocks_length] at hi; omega
  have e : (((padMessage message).drop (i * 128)).take 128 |>.drop (j * 8)).take 8 =
      ((padMessage message).drop (128 * i + 8 * j)).take 8 := by
    rw [List.drop_take, List.take_take, List.drop_drop, Nat.min_eq_left (by omega)]
    congr 2; omega
  rw [blockWord, paddedBlocks_getElem, e, u64FromBeBytes, Fips.word, ← ofBytes_padMessage,
    show 1024 * i + 64 * j = 8 * (128 * i + 8 * j) by ring,
    (Fips.ofBytes_split _ (show 128 * i + 8 * j ≤ _ by omega)).2,
    (Fips.ofBytes_split _ (k := 8) (by rw [List.length_drop]; omega)).1, Fips.toNat_ofBytes]

theorem compress_congr (s : State) {M M' : ℕ → U64} (h : ∀ i < 16, M i = M' i) :
    Fips.compress s M = Fips.compress s M' := by
  unfold Fips.compress
  rw [rounds_congr s fun i _ => W_congr h i]

/-- The block loop of `hash` computes the standard's hash values. -/
theorem chainState_eq_H (message : List U8) :
    ∀ i ≤ (paddedBlocks message).length,
      chainState initialState ((paddedBlocks message).take i) = Fips.H (Fips.pad (Fips.ofBytes message)) i
  | 0, _ => rfl
  | i + 1, hi => by
    rw [chainState_take_succ _ _ i hi, chainState_eq_H message i (by omega), compressBlock_compress, Fips.H]
    exact compress_congr _ fun j hj => blockWord_paddedBlocks message i hi hj

theorem ofBytes_stateToDigest (s : State) :
    Fips.ofBytes (stateToDigest s) = s.toList.flatMap fun w => Fips.bits 64 w.toNat := by
  unfold stateToDigest Fips.ofBytes
  rw [List.flatMap_assoc]
  congr 1; funext w
  exact Fips.ofBytes_toBe 8 w.toNat

/-- `Sha512Circuit::hash` is SHA-512, for messages of every length. -/
theorem hash_eq_sha512 (message : List U8) : Fips.ofBytes (hash message) = Fips.sha512 (Fips.ofBytes message) := by
  have hn : (Fips.pad (Fips.ofBytes message)).length / 1024 = (paddedBlocks message).length := by
    rw [← ofBytes_padMessage, Fips.ofBytes_length, padMessage_length, paddedBlocks_length]; omega
  have h := chainState_eq_H message _ le_rfl
  rw [List.take_length] at h
  rw [Fips.sha512, hn, ← h]
  exact ofBytes_stateToDigest _

end Sha512Circuit
