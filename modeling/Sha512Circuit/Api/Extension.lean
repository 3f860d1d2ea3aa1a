/-
Digests of messages that continue a padded message: they follow from the digest and the length of that
message, whether the digest is a hash or comes with an accepted proof or a sealed seed, and no message
has the remaining blocks as its own.
-/
import Sha512Circuit.Api.Collisions
import Sha512Circuit.Compress.Extension

namespace Sha512Circuit

/-- The chaining value is read back from a digest. -/
theorem readState_stateToDigest (s : State) : readState (stateToDigest s) = s := by
  have h := readState_stateBytes s []
  rwa [List.append_nil] at h

theorem chainState_extends (s : State) (message rest : List U8) :
    chainState s (paddedBlocks (padMessage message ++ rest)) =
      chainState (chainState s (paddedBlocks message)) (tailBlocks (padCapacity message.length) rest) := by
  rw [chainState_padMessage_append, padCapacity_eq, padMessage_length]

theorem hash_extends (message rest : List U8) : hash (padMessage message ++ rest) =
    stateToDigest (chainState (readState (hash message)) (tailBlocks (padCapacity message.length) rest)) := by
  rw [hash_eq_chainState, hash_eq_chainState, readState_stateToDigest, chainState_extends]

/-- The remaining blocks are the padded blocks of no message. -/
theorem paddedBlocks_ne_extension (message rest other : List U8) (hlen : (padMessage message ++ rest).length < 2 ^ 64)
    (hother : other.length < 2 ^ 64) : paddedBlocks other ≠ tailBlocks (padCapacity message.length) rest := by
  have hne : padMessage message ≠ [] := by
    refine List.ne_nil_of_length_pos ?_
    rw [padMessage_length]
    omega
  have h := paddedBlocks_ne_tailBlocks ⟨_, padMessage_length message⟩ hne rest other hlen hother
  rwa [padMessage_length, ← padCapacity_eq] at h

/-- A digest gives away the digests of the continuations of its padded message: for any bytes that
follow, the digest is computed from the first digest and the length of the message alone, be it a
hash, the digest of an accepted proof from any initial state, or that of an accepted sealed bundle; but
the remaining blocks are not those of any message, so no statement from the first digest's state chains
them. -/
theorem digest_extends (B : Stark) (usizeBits : ℕ) (rest : List U8) :
    (∀ message : List U8, hash (padMessage message ++ rest) =
      stateToDigest (chainState (readState (hash message)) (tailBlocks (padCapacity message.length) rest))) ∧
    (∀ (s : State) (message : List U8) (p p' : Sha512MultiBlockProof B) (settings settings' : Sha512ProofSettings),
      verifyMessageProofWithSettings B ⟨s, message⟩ p settings = true →
      verifyMessageProofWithSettings B ⟨s, padMessage message ++ rest⟩ p' settings' = true →
        p'.digest = digestOfState (chainState (readState p.digest.toList) (tailBlocks (padCapacity message.length) rest))) ∧
    (∀ (bundle : Sha512Seed32PrivateProof) (settings : Sha512ProofSettings),
      verifySeed32PrivateProofWithSettings B usizeBits bundle settings = true →
      ∃ seed : Vector U8 32, deserializeMessageInstance usizeBits bundle.sealedInstance = .ok ⟨initialState, seed.toList⟩ ∧
        hash (padMessage seed.toList ++ rest) =
          stateToDigest (chainState (readState bundle.digest.toList) (tailBlocks 128 rest))) ∧
    ∀ message other : List U8, (padMessage message ++ rest).length < 2 ^ 64 → other.length < 2 ^ 64 →
      paddedBlocks other ≠ tailBlocks (padCapacity message.length) rest := by
  refine ⟨fun message => hash_extends message rest, fun s message p p' settings settings' h h' => ?_,
    fun bundle settings h => ?_, fun message other => paddedBlocks_ne_extension message rest other⟩
  · rw [digest_of_accepted h, digest_of_accepted h', digestOfState_toList, readState_stateToDigest, chainState_extends]
  · obtain ⟨seed, hinst, hdigest⟩ := digest_of_verifySeed32 h
    refine ⟨seed, hinst, ?_⟩
    rw [hdigest, hash_extends, Vector.length_toList]
    rfl

/-- Accepted proofs about the empty message and about its padding continued by `abc`, and an accepted
bundle of the zero seed. -/
theorem digest_extends_checking :
    (∃ p p' : Sha512MultiBlockProof .checking,
      verifyMessageProofWithSettings .checking ⟨initialState, []⟩ p .default = true ∧
      verifyMessageProofWithSettings .checking ⟨initialState, padMessage [] ++ [0x61, 0x62, 0x63]⟩ p' .default = true ∧
      p'.digest =
        digestOfState (chainState (readState p.digest.toList) (tailBlocks (padCapacity 0) [0x61, 0x62, 0x63]))) ∧
    (∃ (bundle : Sha512Seed32PrivateProof) (seed : Vector U8 32),
      verifySeed32PrivateProofWithSettings .checking 64 bundle .default = true ∧
      deserializeMessageInstance 64 bundle.sealedInstance = .ok ⟨initialState, seed.toList⟩ ∧
      hash (padMessage seed.toList ++ [0x61, 0x62, 0x63]) =
        stateToDigest (chainState (readState bundle.digest.toList) (tailBlocks 128 [0x61, 0x62, 0x63]))) ∧
    paddedBlocks [0x61, 0x62, 0x63] ≠ tailBlocks (padCapacity 0) [0x61, 0x62, 0x63] := by
  obtain ⟨-, haccepted, hsealed, hother⟩ := digest_extends .checking 64 [0x61, 0x62, 0x63]
  have hlen : (padMessage [] ++ [0x61, 0x62, 0x63]).length = 131 := by
    rw [List.length_append, padMessage_length]
    rfl
  obtain ⟨p, hp⟩ := proveMessage_checking ⟨initialState, []⟩ (by decide)
  obtain ⟨p', hp'⟩ := proveMessage_checking ⟨initialState, padMessage [] ++ [0x61, 0x62, 0x63]⟩ (by
    show (padMessage [] ++ [0x61, 0x62, 0x63]).length ≤ maxMessageInstanceBytes
    rw [hlen]
    decide)
  obtain ⟨bundle, hb⟩ := proveSeed32_checking (Vector.replicate 32 0)
  have hv := verifyMessage_of_prove Stark.checking_complete hp
  have hv' := verifyMessage_of_prove Stark.checking_complete hp'
  have hbv := verifySeed32_of_prove Stark.checking_complete Wire.Codec.byte_decodes Wire.Codec.byte_decodes hb
  obtain ⟨seed, hinst, hseed⟩ := hsealed bundle .default hbv
  exact ⟨⟨p, p', hv, hv', haccepted initialState [] p p' .default .default hv hv'⟩, ⟨bundle, seed, hbv, hinst, hseed⟩,
    hother [] _ (by rw [hlen]; decide) (by decide)⟩

end Sha512Circuit
