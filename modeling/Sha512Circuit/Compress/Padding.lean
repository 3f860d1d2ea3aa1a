/-
`pad_message` and `padded_blocks`: the closed form of the padding loop, the exact split into blocks,
and that the blocks determine the message.
-/
import Sha512Circuit.Compress.Model
import Mathlib.Data.List.GetD
import Mathlib.Tactic.Ring

namespace Sha512Circuit

/-! ## The padding loop -/

/-- The number of zero bytes the loop appends to a string of length `n`. -/
def zeroBytes (n : ℕ) : ℕ := (128 - (n + 16) % 128) % 128

theorem padLoop_eq (out : List U8) : padLoop out = out ++ List.replicate (zeroBytes out.length) 0 := by
  induction out using padLoop.induct with
  | case1 out h ih =>
    rw [padLoop, if_pos h, ih, List.append_assoc]
    have e : zeroBytes out.length = zeroBytes (out ++ [0]).length + 1 := by
      rw [List.length_append, List.length_singleton, zeroBytes, zeroBytes]; omega
    rw [e, List.replicate_succ, List.singleton_append]
  | case2 out h =>
    have e : zeroBytes out.length = 0 := by rw [zeroBytes]; omega
    rw [padLoop, if_neg h, e, List.replicate_zero, List.append_nil]

/-- The bit length field. -/
theorem bitLen_toNat (n : ℕ) : (BitVec.ofNat 128 n * 8).toNat = 8 * n % 2 ^ 128 := by
  rw [BitVec.toNat_mul, BitVec.toNat_ofNat]
  simp [mul_comm]

/-- The padded message: the message, `0x80`, the zero bytes and the bit length. -/
theorem padMessage_eq (message : List U8) :
    padMessage message = message ++ [0x80] ++ List.replicate (zeroBytes (message.length + 1)) 0 ++
      Bytes.toBe 16 (8 * message.length % 2 ^ 128) := by
  unfold padMessage
  dsimp only
  rw [padLoop_eq, bitLen_toNat, List.length_append, List.length_singleton]

theorem padMessage_length (message : List U8) :
    (padMessage message).length = 128 * ((message.length + 17 + 127) / 128) := by
  rw [padMessage_eq]
  simp only [List.length_append, List.length_singleton, List.length_replicate, Bytes.toBe_length, zeroBytes]
  omega

/-- Padding is injective: the length field and the length of the whole give the message length. -/
theorem padMessage_injective {m m' : List U8} (h : padMessage m = padMessage m') : m = m' := by
  have hl := congrArg List.length h
  rw [padMessage_length, padMessage_length] at hl
  rw [padMessage_eq, padMessage_eq] at h
  have hb := congrArg Bytes.ofBe (List.append_inj_right' h (by simp))
  rw [Bytes.ofBe_toBe, Bytes.ofBe_toBe] at hb
  -- equal bit lengths modulo 2^128, and whole lengths that leave less than 128 bytes of doubt
  have hlen : m.length = m'.length := by omega
  rw [List.append_assoc, List.append_assoc, List.append_assoc, List.append_assoc] at h
  exact List.append_inj_left h hlen

/-! ## The blocks -/

theorem paddedBlocks_length (message : List U8) :
    (paddedBlocks message).length = (message.length + 17 + 127) / 128 := by
  rw [paddedBlocks, List.length_map, Bytes.chunksExact_length, padMessage_length]
  omega

theorem paddedBlocks_length_pos (message : List U8) : 0 < (paddedBlocks message).length := by
  rw [paddedBlocks_length]; omega

theorem toBlock_toList {chunk : List U8} (h : chunk.length = 128) : (toBlock chunk).toList = chunk := by
  apply List.ext_getElem
  · simp [h]
  · intro i h1 h2
    simp only [toBlock, Vector.getElem_toList, Vector.getElem_ofFn]
    exact List.getD_eq_getElem _ _ h2

/-- Block `k` of a message, as bytes of the padded message. -/
theorem paddedBlocks_getElem (message : List U8) (k : ℕ) (hk : k < (paddedBlocks message).length) :
    (paddedBlocks message)[k].toList = ((padMessage message).drop (k * 128)).take 128 := by
  have hk' : k < (Bytes.chunksExact 128 (padMessage message)).length := by simpa [paddedBlocks] using hk
  have hm := List.getElem_mem hk'
  simp only [paddedBlocks, List.getElem_map]
  rw [toBlock_toList (Bytes.length_of_mem_chunksExact hm), Bytes.chunksExact_getElem]

theorem map_toBlock_toList (bytes : List U8) :
    ((Bytes.chunksExact 128 bytes).map toBlock).map Vector.toList = Bytes.chunksExact 128 bytes := by
  rw [List.map_map]
  conv_rhs => rw [← List.map_id (Bytes.chunksExact 128 bytes)]
  exact List.map_congr_left fun c hc => toBlock_toList (Bytes.length_of_mem_chunksExact hc)

/-- The blocks concatenate to the padded message: nothing is dropped. -/
theorem flatMap_paddedBlocks (message : List U8) :
    (paddedBlocks message).flatMap Vector.toList = padMessage message := by
  rw [List.flatMap_def, paddedBlocks, map_toBlock_toList]
  exact Bytes.flatten_chunksExact ⟨_, padMessage_length message⟩

/-- The padded blocks determine the message. -/
theorem paddedBlocks_injective {m m' : List U8} (h : paddedBlocks m = paddedBlocks m') : m = m' := by
  apply padMessage_injective
  rw [← flatMap_paddedBlocks, ← flatMap_paddedBlocks, h]

/-! ## Exactness -/

/-- The loop appends the least number of zeros that completes a block. -/
theorem zeroBytes_unique {n z : ℕ} : z < 128 ∧ 128 ∣ n + z + 16 ↔ z = zeroBytes n := by
  unfold zeroBytes
  constructor
  · rintro ⟨hz, hd⟩
    omega
  · rintro rfl
    omega

theorem padCapacity_eq (len : ℕ) : padCapacity len = 128 * ((len + 17 + 127) / 128) := by
  unfold padCapacity divCeil
  split <;> omega

/-- The sixteen length bytes keep the bit length modulo `2^128`. -/
theorem toBe_mod (x : ℕ) : Bytes.toBe 16 (x % 2 ^ 128) = Bytes.toBe 16 x := by
  refine Bytes.ofBe_inj (by rw [Bytes.toBe_length, Bytes.toBe_length]) ?_
  rw [Bytes.ofBe_toBe, Bytes.ofBe_toBe, show 256 ^ 16 = 2 ^ 128 by norm_num, Nat.mod_mod]

/-- A padded message is a suffix of another one only if the messages are equal: the common last
sixteen bytes give both messages one length. -/
theorem padMessage_suffix {m m' : List U8} (hm : m.length < 2 ^ 64) (hm' : m'.length < 2 ^ 64)
    (h : padMessage m <:+ padMessage m') : m = m' := by
  have hlast : Bytes.toBe 16 (8 * m.length % 2 ^ 128) = Bytes.toBe 16 (8 * m'.length % 2 ^ 128) := by
    obtain ⟨t, ht⟩ := h
    rw [padMessage_eq, padMessage_eq, ← List.append_assoc] at ht
    exact List.append_inj_right' ht (by simp)
  have hbits := congrArg Bytes.ofBe hlast
  rw [Bytes.ofBe_toBe, Bytes.ofBe_toBe] at hbits
  have hlen : m.length = m'.length := by omega
  refine padMessage_injective (h.eq_of_length ?_)
  rw [padMessage_length, padMessage_length, hlen]

theorem paddedBlocks_suffix {m m' : List U8} (hm : m.length < 2 ^ 64) (hm' : m'.length < 2 ^ 64)
    (h : paddedBlocks m <:+ paddedBlocks m') : m = m' := by
  obtain ⟨t, ht⟩ := h
  refine padMessage_suffix hm hm' ⟨t.flatMap Vector.toList, ?_⟩
  rw [← flatMap_paddedBlocks, ← flatMap_paddedBlocks, ← ht, List.flatMap_append]

/-- Padding is exact: the message, `0x80`, the one number of zero bytes that completes a block, and
the bit length; the blocks are the reserved number of blocks and concatenate to it; and of two
different messages neither's blocks end with the other's, their lengths being a `usize`: from
`2^125` bytes on the bit length would wrap. -/
theorem padMessage_exact (message : List U8) :
    (∃ z, (∀ z', z' < 128 ∧ 128 ∣ message.length + 1 + z' + 16 ↔ z' = z) ∧
      padMessage message = message ++ [0x80] ++ List.replicate z 0 ++ Bytes.toBe 16 (8 * message.length)) ∧
    (padMessage message).length = 128 * ((message.length + 17 + 127) / 128) ∧
    padCapacity message.length = (padMessage message).length ∧
    (paddedBlocks message).length = (message.length + 17 + 127) / 128 ∧
    (paddedBlocks message).flatMap Vector.toList = padMessage message ∧
    ∀ message' : List U8, message ≠ message' → message.length < 2 ^ 64 → message'.length < 2 ^ 64 →
      paddedBlocks message ≠ paddedBlocks message' ∧ ¬ paddedBlocks message <:+ paddedBlocks message' ∧
        ¬ paddedBlocks message' <:+ paddedBlocks message := by
  refine ⟨⟨zeroBytes (message.length + 1), fun z' => zeroBytes_unique, ?_⟩, padMessage_length message, ?_,
    paddedBlocks_length message, flatMap_paddedBlocks message,
    fun message' hne hm hm' => ⟨fun h => ?_, fun h => ?_, fun h => ?_⟩⟩
  · rw [padMessage_eq, toBe_mod]
  · rw [padCapacity_eq, padMessage_length]
  · exact hne (paddedBlocks_injective h)
  · exact hne (paddedBlocks_suffix hm hm' h)
  · exact hne (paddedBlocks_suffix hm' hm h).symm

/-- The empty message and one that looks like its padding. -/
theorem padMessage_exact_tail : ¬ paddedBlocks [] <:+ paddedBlocks ([0x80] ++ List.replicate 127 0) :=
  ((padMessage_exact []).2.2.2.2.2 ([0x80] ++ List.replicate 127 0) (by simp) (by decide) (by simp)).2.1

end Sha512Circuit
