/-
What the API proves it verifies: over a backend that is complete for the AIR, honest proofs of
blocks, messages and seeds are accepted under their own settings, and by the entry points without
settings exactly when those are the default.
-/
import Sha512Circuit.Api.RoundTrip
import Sha512Circuit.Air.SingleBlock
import Sha512Circuit.Air.Message

namespace Sha512Circuit

open Wire (Codec)

/-- Completeness of the backend: with the key set up for an AIR, a proof made from a main trace that
satisfies the AIR on every row verifies for the same public values. The windows are cyclic. -/
def Stark.Complete (B : Stark) : Prop :=
  ∀ (config : Sha512StarkConfig) (air : Sha512RoundAir) (main : RowMajorMatrix) (publicValues : Vector BabyBear 8)
    (degreeBits : ℕ) (data : B.ProverData) (vk : Sha512PreprocessedVk B.Commitment),
    B.setupPreprocessed config air degreeBits = some (data, vk) →
    main.width = airWidth → main.height = 2 ^ degreeBits →
    air.preprocessed.width = airWidth → air.preprocessed.height = main.height →
    airVanishes main air.preprocessed publicValues 0 = true →
    (B.verifyWithPreprocessed config air (B.proveWithPreprocessed config air main publicValues (some data))
      publicValues (some vk)).isOk = true

/-- The height of a bundle is what its degree says. -/
theorem bundle_prep_height_pow (s : State) (message : List U8) :
    (buildMessageAirBundle s message).preprocessed.height = 2 ^ (buildMessageAirBundle s message).degreeBits := by
  rw [bundle_prep_height, bundle_degreeBits, trailingZeros_totalRows, totalRows_eq]

section Complete

variable {B : Stark} (hB : B.Complete)
include hB

theorem verifySingleBlock_of_prove {inst : Sha512SingleBlockInstance} {settings : Sha512ProofSettings}
    {p : Sha512SingleBlockProof B} (h : proveSingleBlockWithSettings B inst settings = .ok p) :
    verifySingleBlockProofWithSettings B inst p settings = true := by
  obtain ⟨hpolicy, -, data, hsetup, hproof⟩ := proveSingleBlockWithSettings_iff.1 h
  refine verifySingleBlockProofWithSettings_iff.2 ⟨hpolicy, data, hsetup, ?_⟩
  obtain ⟨s, b⟩ := inst
  rw [hproof]
  exact hB _ _ _ _ _ _ _ hsetup (airTrace_width _) (airTrace_height _) (prepTrace_width s b)
    (by rw [airTrace_height]; exact prepTrace_height s b) (airTrace_vanishes s b 0)

/-- The honest proof of a message verifies, also beyond the prover's size limit. -/
theorem verifyMessage_honest {inst : Sha512MessageInstance} {settings : Sha512ProofSettings}
    {p : Sha512MultiBlockProof B} {data : B.ProverData} (hpolicy : meetsMinimumVerifierPolicy settings = true)
    (hfinal : p.finalState = (buildMessageAirBundle inst.initialState inst.message).finalState)
    (hdigest : p.digest = digestOfState p.finalState)
    (hsetup : B.setupPreprocessed (setupConfig settings)
      ⟨(buildMessageAirBundle inst.initialState inst.message).preprocessed⟩
      (buildMessageAirBundle inst.initialState inst.message).degreeBits = some (data, p.preprocessedVk))
    (hproof : p.proof = B.proveWithPreprocessed (setupConfig settings)
      ⟨(buildMessageAirBundle inst.initialState inst.message).preprocessed⟩
      (buildMessageAirBundle inst.initialState inst.message).main
      (buildMessageAirBundle inst.initialState inst.message).finalPublicValues (some data)) :
    verifyMessageProofWithSettings B inst p settings = true := by
  refine verifyMessageProofWithSettings_iff.2 ⟨hpolicy, hfinal, hdigest, data, hsetup, ?_⟩
  obtain ⟨s, message⟩ := inst
  rw [hproof]
  have hheight : (buildMessageAirBundle s message).preprocessed.height =
      (buildMessageAirBundle s message).main.height := by
    rw [bundle_prep_height, bundle_main_height]
  exact hB _ _ _ _ _ _ _ hsetup (bundle_main_width s message) (hheight ▸ bundle_prep_height_pow s message)
    (bundle_prep_width s message) hheight (bundle_vanishes s message 0)

theorem verifyMessage_of_prove {inst : Sha512MessageInstance} {settings : Sha512ProofSettings}
    {p : Sha512MultiBlockProof B} (h : proveMessageWithSettings B inst settings = .ok p) :
    verifyMessageProofWithSettings B inst p settings = true := by
  obtain ⟨hpolicy, -, -, hfinal, hdigest, data, hsetup, hproof⟩ := proveMessageWithSettings_iff.1 h
  exact verifyMessage_honest hB hpolicy hfinal hdigest hsetup hproof

/-- The sealed instance and the sealed proof are what the verifier unseals. -/
theorem verifySeed32_of_prove (hproof : ∀ x, B.proofCodec.Decodes x) (hcommitment : ∀ c, B.commitmentCodec.Decodes c)
    {seed : Vector U8 32} {settings : Sha512ProofSettings} {bundle : Sha512Seed32PrivateProof}
    (h : proveSeed32PrivateWithSettings B 64 seed settings = .ok bundle) :
    verifySeed32PrivateProofWithSettings B 64 bundle settings = true := by
  obtain ⟨p, hp, hdigest, hsettings, hinst, hsealed⟩ := proveSeed32PrivateWithSettings_iff.1 h
  exact verifySeed32PrivateProofWithSettings_iff.2 ⟨(proveMessageWithSettings_iff.1 hp).1, hsettings, seed, p,
    deserializeMessageInstance_serialize hinst, deserializeMultiBlockProof_serialize (hproof _) (hcommitment _) hsealed,
    hdigest.symm, verifyMessage_of_prove hB hp⟩

end Complete

/-! ## What can be proved -/

section Provable

variable {B : Stark} {settings : Sha512ProofSettings}

theorem exists_proveMessage {inst : Sha512MessageInstance} {data : B.ProverData}
    {vk : Sha512PreprocessedVk B.Commitment} (hpolicy : meetsMinimumVerifierPolicy settings = true)
    (hsize : inst.message.length ≤ maxMessageInstanceBytes)
    (hsetup : B.setupPreprocessed (setupConfig settings)
      ⟨(buildMessageAirBundle inst.initialState inst.message).preprocessed⟩
      (buildMessageAirBundle inst.initialState inst.message).degreeBits = some (data, vk)) :
    ∃ p, proveMessageWithSettings B inst settings = .ok p :=
  ⟨⟨_, vk, (buildMessageAirBundle inst.initialState inst.message).finalState, digestOfState _, settings⟩,
    proveMessageWithSettings_iff.2 ⟨hpolicy, hsize, rfl, rfl, rfl, data, hsetup, rfl⟩⟩

/-- A proof whose parts stay under the limits has an encoding. -/
theorem exists_serializeMultiBlockProof {p : Sha512MultiBlockProof B}
    (hproof : (B.proofCodec.encode p.proof).length ≤ maxInnerProofBytes)
    (hsize : (B.proofCodec.encode p.proof).length + (B.commitmentCodec.encode p.preprocessedVk.commitment).length + 208 ≤
      maxMultiProofBytes) :
    ∃ bytes, serializeMultiBlockProof B 64 p = .ok bytes := by
  refine ⟨_, serializeMultiBlockProof_iff.2 ⟨hproof, ?_, rfl⟩⟩
  have hdigest : p.digest.toList.length = 64 := p.digest.length_toList
  rw [multiCodec_encode_length]
  show (B.proofCodec.encode p.proof).length + (B.commitmentCodec.encode p.preprocessedVk.commitment).length +
    p.digest.toList.length + 144 ≤ maxMultiProofBytes
  omega

theorem seed_length_le (seed : Vector U8 32) : (seedInstance seed).message.length ≤ maxMessageInstanceBytes := by
  show seed.toList.length ≤ 16 * 1024 * 1024
  simp

/-- A proof about a seed is sealed if its codecs stay under the limits. -/
theorem exists_proveSeed32 {seed : Vector U8 32} {data : B.ProverData} {vk : Sha512PreprocessedVk B.Commitment}
    (hpolicy : meetsMinimumVerifierPolicy settings = true)
    (hsetup : B.setupPreprocessed (setupConfig settings)
      ⟨(buildMessageAirBundle initialState seed.toList).preprocessed⟩
      (buildMessageAirBundle initialState seed.toList).degreeBits = some (data, vk))
    (hproof : ∀ x, (B.proofCodec.encode x).length ≤ maxInnerProofBytes)
    (hsize : ∀ x c, (B.proofCodec.encode x).length + (B.commitmentCodec.encode c).length + 208 ≤ maxMultiProofBytes) :
    ∃ bundle, proveSeed32PrivateWithSettings B 64 seed settings = .ok bundle := by
  obtain ⟨p, hp⟩ : ∃ p, proveMessageWithSettings B (seedInstance seed) settings = .ok p :=
    exists_proveMessage hpolicy (seed_length_le seed) hsetup
  obtain ⟨si, hsi⟩ := serializeMessageInstance_of_le (seed_length_le seed)
  obtain ⟨sp, hsp⟩ := exists_serializeMultiBlockProof (hproof p.proof) (hsize p.proof p.preprocessedVk.commitment)
  exact ⟨⟨_, _, si, sp⟩, proveSeed32PrivateWithSettings_iff.2 ⟨p, hp, rfl, rfl, hsi, hsp⟩⟩

end Provable

/-! ## A backend that checks the AIR itself -/

namespace Stark

/-- The verdict of a backend that checks the AIR itself. -/
theorem checked_isOk {main prep : RowMajorMatrix} {publicValues : Vector BabyBear 8}
    (h : airVanishes main prep publicValues 0 = true) :
    (if (if airVanishes main prep publicValues 0 then (1 : U8) else 0) = 1
      then (Except.ok () : Except Unit Unit) else .error ()).isOk = true := by
  rw [if_pos h, if_pos rfl]
  rfl

theorem checking_complete : checking.Complete := by
  intro config air main publicValues degreeBits data vk _ _ _ _ _ h
  exact checked_isOk h

theorem checking_setup (config : Sha512StarkConfig) (air : Sha512RoundAir) (degreeBits : ℕ)
    (h : air.preprocessed.height = 2 ^ degreeBits) :
    ∃ vk, checking.setupPreprocessed config air degreeBits = some ((), vk) := ⟨_, if_pos h⟩

end Stark

theorem proveSingleBlock_checking (inst : Sha512SingleBlockInstance) :
    ∃ p, proveSingleBlockWithSettings .checking inst .default = .ok p := by
  obtain ⟨vk, hvk⟩ := Stark.checking_setup (setupConfig .default) _ traceDegreeBits
    (prepTrace_height inst.initialState inst.block)
  exact ⟨⟨_, vk, .default⟩, proveSingleBlockWithSettings_iff.2
    ⟨meetsMinimumVerifierPolicy_default, rfl, (), hvk, rfl⟩⟩

theorem proveMessage_checking (inst : Sha512MessageInstance) (h : inst.message.length ≤ maxMessageInstanceBytes) :
    ∃ p, proveMessageWithSettings .checking inst .default = .ok p := by
  obtain ⟨vk, hvk⟩ := Stark.checking_setup (setupConfig .default) ⟨_⟩ _
    (bundle_prep_height_pow inst.initialState inst.message)
  exact exists_proveMessage meetsMinimumVerifierPolicy_default h hvk

theorem proveSeed32_checking (seed : Vector U8 32) :
    ∃ bundle, proveSeed32PrivateWithSettings .checking 64 seed .default = .ok bundle := by
  obtain ⟨vk, hvk⟩ := Stark.checking_setup (setupConfig .default) ⟨_⟩ _ (bundle_prep_height_pow initialState seed.toList)
  refine exists_proveSeed32 meetsMinimumVerifierPolicy_default hvk (fun x => ?_) (fun x c => ?_)
  · show 1 ≤ maxInnerProofBytes
    decide
  · show 1 + 1 + 208 ≤ maxMultiProofBytes
    decide

/-! ## Honest proofs -/

/-- What is proved verifies: for single blocks, for messages, and, where decoding undoes encoding,
for seeds. -/
theorem honest_proof_verifies (B : Stark) (hB : B.Complete) :
    (∀ (inst : Sha512SingleBlockInstance) (settings : Sha512ProofSettings) (p : Sha512SingleBlockProof B),
      proveSingleBlockWithSettings B inst settings = .ok p →
        verifySingleBlockProofWithSettings B inst p settings = true ∧
        (verifySingleBlockProof B inst p = true ↔ settings = .default)) ∧
    (∀ (inst : Sha512MessageInstance) (settings : Sha512ProofSettings) (p : Sha512MultiBlockProof B),
      proveMessageWithSettings B inst settings = .ok p →
        verifyMessageProofWithSettings B inst p settings = true ∧
        (verifyMessageProof B inst p = true ↔ settings = .default)) ∧
    ((∀ x, B.proofCodec.Decodes x) → (∀ c, B.commitmentCodec.Decodes c) →
      ∀ (seed : Vector U8 32) (settings : Sha512ProofSettings) (bundle : Sha512Seed32PrivateProof),
        proveSeed32PrivateWithSettings B 64 seed settings = .ok bundle →
          verifySeed32PrivateProofWithSettings B 64 bundle settings = true ∧
          (verifySeed32PrivateProof B 64 bundle = true ↔ settings = .default)) := by
  refine ⟨fun inst settings p h => ?_, fun inst settings p h => ?_, fun hproof hcommitment seed settings bundle h => ?_⟩
  · have hv := verifySingleBlock_of_prove hB h
    have hs := (proveSingleBlockWithSettings_iff.1 h).2.1
    refine ⟨hv, verifySingleBlockProof_iff.trans ⟨fun hd => hs ▸ hd.1, ?_⟩⟩
    rintro rfl
    exact ⟨hs, hv⟩
  · have hv := verifyMessage_of_prove hB h
    have hs := (proveMessageWithSettings_iff.1 h).2.2.1
    refine ⟨hv, verifyMessageProof_iff.trans ⟨fun hd => hs ▸ hd.1, ?_⟩⟩
    rintro rfl
    exact ⟨hs, hv⟩
  · have hv := verifySeed32_of_prove hB hproof hcommitment h
    obtain ⟨-, -, -, hs, -⟩ := proveSeed32PrivateWithSettings_iff.1 h
    refine ⟨hv, verifySeed32PrivateProof_iff.trans ⟨fun hd => hs ▸ hd.1, ?_⟩⟩
    rintro rfl
    exact ⟨hs, hv⟩

/-- A block of zeros, the message `abc` and the zero seed. -/
theorem honest_proof_verifies_checking :
    (∃ p, proveSingleBlockWithSettings .checking ⟨initialState, Vector.replicate 128 0⟩ .default = .ok p ∧
      verifySingleBlockProof .checking ⟨initialState, Vector.replicate 128 0⟩ p = true) ∧
    (∃ p, proveMessageWithSettings .checking ⟨initialState, [0x61, 0x62, 0x63]⟩ .default = .ok p ∧
      verifyMessageProof .checking ⟨initialState, [0x61, 0x62, 0x63]⟩ p = true) ∧
    ∃ bundle, proveSeed32PrivateWithSettings .checking 64 (Vector.replicate 32 0) .default = .ok bundle ∧
      verifySeed32PrivateProof .checking 64 bundle = true := by
  obtain ⟨hblock, hmessage, hseed⟩ := honest_proof_verifies .checking Stark.checking_complete
  obtain ⟨p, hp⟩ := proveSingleBlock_checking ⟨initialState, Vector.replicate 128 0⟩
  obtain ⟨q, hq⟩ := proveMessage_checking ⟨initialState, [0x61, 0x62, 0x63]⟩ (by decide)
  obtain ⟨bundle, hb⟩ := proveSeed32_checking (Vector.replicate 32 0)
  exact ⟨⟨p, hp, (hblock _ _ p hp).2.2 rfl⟩, ⟨q, hq, (hmessage _ _ q hq).2.2 rfl⟩,
    bundle, hb, (hseed Codec.byte_decodes Codec.byte_decodes _ _ bundle hb).2.2 rfl⟩

end Sha512Circuit
