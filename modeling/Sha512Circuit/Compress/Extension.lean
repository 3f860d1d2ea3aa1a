/-
Messages that continue: whole blocks at the front of a message stay blocks of it, and what follows them
is padded by its own bytes and the length of the whole.
-/
import Sha512Circuit.Compress.Hash

namespace Sha512Circuit

/-- The blocks of a byte string whose length is a multiple of a block. -/
def wholeBlocks (bytes : List U8) : List Block := (Bytes.chunksExact 128 bytes).map toBlock

/-- The padded end of a message: the bytes after the first `n`. -/
def padTail (n : ℕ) (rest : List U8) : List U8 :=
  rest ++ [0x80] ++ List.replicate (zeroBytes (n + rest.length + 1)) 0 ++
    Bytes.toBe 16 (8 * (n + rest.length) % 2 ^ 128)

/-- The blocks of the padded end of a message. -/
def tailBlocks (n : ℕ) (rest : List U8) : List Block := wholeBlocks (padTail n rest)

theorem wholeBlocks_length (bytes : List U8) : (wholeBlocks bytes).length = bytes.length / 128 := by
  rw [wholeBlocks, List.length_map, Bytes.chunksExact_length]

theorem wholeBlocks_padMessage (message : List U8) : wholeBlocks (padMessage message) = paddedBlocks message := rfl

/-- Whole blocks determine their bytes. -/
theorem wholeBlocks_injective {xs ys : List U8} (hx : 128 ∣ xs.length) (hy : 128 ∣ ys.length)
    (h : wholeBlocks xs = wholeBlocks ys) : xs = ys := by
  have hchunks := congrArg (List.map Vector.toList) h
  unfold wholeBlocks at hchunks
  rw [map_toBlock_toList, map_toBlock_toList] at hchunks
  rw [← Bytes.flatten_chunksExact hx, ← Bytes.flatten_chunksExact hy, hchunks]

theorem padMessage_append (front rest : List U8) : padMessage (front ++ rest) = front ++ padTail front.length rest := by
  rw [padMessage_eq, List.length_append, padTail]
  simp only [List.append_assoc]

/-- The blocks of a message: those of its first whole blocks, then those of its padded end. -/
theorem paddedBlocks_append {front : List U8} (h : 128 ∣ front.length) (rest : List U8) :
    paddedBlocks (front ++ rest) = wholeBlocks front ++ tailBlocks front.length rest := by
  rw [← wholeBlocks_padMessage, padMessage_append, tailBlocks, wholeBlocks, Bytes.chunksExact_append h, List.map_append]
  rfl

section Prefix

variable {message : List U8} {k : ℕ} (hk : 128 * k ≤ message.length)
include hk

theorem length_take_blocks : (message.take (128 * k)).length = 128 * k := by
  rw [List.length_take, Nat.min_eq_left hk]

/-- The first `k` blocks are those of the first `128 k` bytes. -/
theorem paddedBlocks_take : (paddedBlocks message).take k = wholeBlocks (message.take (128 * k)) := by
  have hlen := length_take_blocks hk
  have hblocks : (wholeBlocks (message.take (128 * k))).length = k := by
    rw [wholeBlocks_length, hlen]
    omega
  conv_lhs => rw [← List.take_append_drop (128 * k) message, paddedBlocks_append ⟨k, hlen⟩]
  exact List.take_left' hblocks

theorem lt_paddedBlocks_length : k < (paddedBlocks message).length := by
  rw [paddedBlocks_length]
  omega

/-- Equal first blocks are equal first bytes. -/
theorem take_paddedBlocks_iff {message' : List U8} (hk' : 128 * k ≤ message'.length) :
    (paddedBlocks message).take k = (paddedBlocks message').take k ↔ message.take (128 * k) = message'.take (128 * k) := by
  rw [paddedBlocks_take hk, paddedBlocks_take hk']
  exact ⟨wholeBlocks_injective ⟨k, length_take_blocks hk⟩ ⟨k, length_take_blocks hk'⟩, congrArg wholeBlocks⟩

end Prefix

/-! ## Continuing a padded message -/

/-- A message that continues a padded message chains from where that message ended. -/
theorem chainState_padMessage_append (s : State) (message rest : List U8) :
    chainState s (paddedBlocks (padMessage message ++ rest)) =
      chainState (chainState s (paddedBlocks message)) (tailBlocks (padMessage message).length rest) := by
  rw [paddedBlocks_append ⟨_, padMessage_length message⟩, wholeBlocks_padMessage, chainState, List.foldl_append]
  rfl

/-- The end of a message is not the blocks of another one: its length field counts the bytes before. -/
theorem paddedBlocks_ne_tailBlocks {front : List U8} (h : 128 ∣ front.length) (hne : front ≠ []) (rest message : List U8)
    (hlen : (front ++ rest).length < 2 ^ 64) (hm : message.length < 2 ^ 64) :
    paddedBlocks message ≠ tailBlocks front.length rest := by
  intro heq
  have hsuffix : paddedBlocks message <:+ paddedBlocks (front ++ rest) := ⟨wholeBlocks front, by
    rw [paddedBlocks_append h, heq]⟩
  obtain rfl := paddedBlocks_suffix hm hlen hsuffix
  -- the whole message has more blocks than its own end
  have hblocks := congrArg List.length heq
  rw [paddedBlocks_append h, List.length_append, wholeBlocks_length] at hblocks
  have hpos := List.length_pos_of_ne_nil hne
  omega

end Sha512Circuit
