/-
The settings that proofs and bundles carry, against the settings they are verified under: the entry
points with explicit settings do not read the settings recorded in a proof, so wherever anything can be
proved, proofs that record other settings are accepted.
-/
import Sha512Circuit.Api.Completeness

namespace Sha512Circuit

open Wire (Codec)

section Recorded

variable {B : Stark} {settings : Sha512ProofSettings}

/-! ## What is not read -/

/-- The settings recorded in a proof do not matter. -/
theorem verifySingleBlock_recorded {inst : Sha512SingleBlockInstance} {p : Sha512SingleBlockProof B}
    (h : verifySingleBlockProofWithSettings B inst p settings = true) (recorded : Sha512ProofSettings) :
    verifySingleBlockProofWithSettings B inst { p with settings := recorded } settings = true :=
  verifySingleBlockProofWithSettings_iff.2 (verifySingleBlockProofWithSettings_iff.1 h)

theorem verifyMessage_recorded {inst : Sha512MessageInstance} {p : Sha512MultiBlockProof B}
    (h : verifyMessageProofWithSettings B inst p settings = true) (recorded : Sha512ProofSettings) :
    verifyMessageProofWithSettings B inst { p with settings := recorded } settings = true :=
  verifyMessageProofWithSettings_iff.2 (verifyMessageProofWithSettings_iff.1 h)

/-- Nor do they change the size of an encoding. -/
theorem serializeMultiBlockProof_recorded {p : Sha512MultiBlockProof B} {bytes : List U8}
    (h : serializeMultiBlockProof B 64 p = .ok bytes) (recorded : Sha512ProofSettings) :
    ∃ bytes', serializeMultiBlockProof B 64 { p with settings := recorded } = .ok bytes' := by
  obtain ⟨hinner, houter, rfl⟩ := serializeMultiBlockProof_iff.1 h
  refine ⟨_, serializeMultiBlockProof_iff.2 ⟨hinner, ?_, rfl⟩⟩
  rw [multiCodec_encode_length] at houter ⊢
  exact houter

/-- A sealed proof that is accepted for a seed can record anything. -/
theorem verifySeed32_recorded {seed : Vector U8 32} {p : Sha512MultiBlockProof B} {bytes : List U8}
    (hproof : B.proofCodec.Decodes p.proof) (hcommitment : B.commitmentCodec.Decodes p.preprocessedVk.commitment)
    (hbytes : serializeMultiBlockProof B 64 p = .ok bytes)
    (h : verifyMessageProofWithSettings B (seedInstance seed) p settings = true) (recorded : Sha512ProofSettings) :
    ∃ bundle, verifySeed32PrivateProofWithSettings B 64 bundle settings = true ∧
      deserializeMessageInstance 64 bundle.sealedInstance = .ok (seedInstance seed) ∧
      deserializeMultiBlockProof B 64 bundle.sealedProof = .ok { p with settings := recorded } := by
  obtain ⟨si, hsi⟩ := serializeMessageInstance_of_le (seed_length_le seed)
  obtain ⟨sp, hsp⟩ := serializeMultiBlockProof_recorded hbytes recorded
  have hinst := deserializeMessageInstance_serialize hsi
  have hdecode := deserializeMultiBlockProof_serialize (p := { p with settings := recorded }) hproof hcommitment hsp
  refine ⟨⟨p.digest, settings, si, sp⟩, ?_, hinst, hdecode⟩
  exact verifySeed32PrivateProofWithSettings_iff.2 ⟨(verifyMessageProofWithSettings_iff.1 h).policy, rfl, seed, _, hinst,
    hdecode, rfl, verifyMessage_recorded h recorded⟩

/-! ## What can be proved -/

/-- What the provers and the verifiers ask for before there is a proof: settings that meet the policy,
and a key for the preprocessed matrix of the statement. -/
def KeySetUp (B : Stark) (settings : Sha512ProofSettings) (preprocessed : RowMajorMatrix) (degreeBits : ℕ) : Prop :=
  meetsMinimumVerifierPolicy settings = true ∧
    (B.setupPreprocessed (setupConfig settings) ⟨preprocessed⟩ degreeBits).isSome = true

/-- The statement of a block has a key exactly if the prover succeeds. -/
theorem keySetUp_iff_proveSingleBlock {inst : Sha512SingleBlockInstance} :
    KeySetUp B settings (buildPlonky3PreprocessedTraceFromInstance inst.initialState inst.block) traceDegreeBits ↔
      ∃ p, proveSingleBlockWithSettings B inst settings = .ok p := by
  constructor
  · rintro ⟨hpolicy, hsome⟩
    obtain ⟨⟨data, vk⟩, hsetup⟩ := Option.isSome_iff_exists.1 hsome
    exact ⟨⟨_, vk, settings⟩, proveSingleBlockWithSettings_iff.2 ⟨hpolicy, rfl, data, hsetup, rfl⟩⟩
  · rintro ⟨p, hp⟩
    obtain ⟨hpolicy, -, data, hsetup, -⟩ := proveSingleBlockWithSettings_iff.1 hp
    exact ⟨hpolicy, Option.isSome_iff_exists.2 ⟨_, hsetup⟩⟩

/-- That of a message within the prover's size limit exactly if the prover succeeds. -/
theorem keySetUp_iff_proveMessage (inst : Sha512MessageInstance) (hsize : inst.message.length ≤ maxMessageInstanceBytes) :
    KeySetUp B settings (buildMessageAirBundle inst.initialState inst.message).preprocessed
        (buildMessageAirBundle inst.initialState inst.message).degreeBits ↔
      ∃ p, proveMessageWithSettings B inst settings = .ok p := by
  constructor
  · rintro ⟨hpolicy, hsome⟩
    obtain ⟨⟨data, vk⟩, hsetup⟩ := Option.isSome_iff_exists.1 hsome
    exact exists_proveMessage hpolicy hsize hsetup
  · rintro ⟨p, hp⟩
    obtain ⟨hpolicy, -, -, -, -, data, hsetup, -⟩ := proveMessageWithSettings_iff.1 hp
    exact ⟨hpolicy, Option.isSome_iff_exists.2 ⟨_, hsetup⟩⟩

/-- A message with a key has an accepted proof, also beyond that limit. -/
theorem exists_verifyMessage (hB : B.Complete) {inst : Sha512MessageInstance}
    (h : KeySetUp B settings (buildMessageAirBundle inst.initialState inst.message).preprocessed
      (buildMessageAirBundle inst.initialState inst.message).degreeBits) :
    ∃ p, verifyMessageProofWithSettings B inst p settings = true := by
  obtain ⟨hpolicy, hsome⟩ := h
  obtain ⟨⟨data, vk⟩, hsetup⟩ := Option.isSome_iff_exists.1 hsome
  exact ⟨⟨_, vk, (buildMessageAirBundle inst.initialState inst.message).finalState, digestOfState _, settings⟩,
    verifyMessage_honest hB hpolicy rfl rfl hsetup rfl⟩

/-- Nothing is accepted without a key. -/
theorem keySetUp_of_verifySingleBlock {inst : Sha512SingleBlockInstance} {p : Sha512SingleBlockProof B}
    (h : verifySingleBlockProofWithSettings B inst p settings = true) :
    KeySetUp B settings (buildPlonky3PreprocessedTraceFromInstance inst.initialState inst.block) traceDegreeBits := by
  obtain ⟨hpolicy, data, hsetup, -⟩ := verifySingleBlockProofWithSettings_iff.1 h
  exact ⟨hpolicy, Option.isSome_iff_exists.2 ⟨_, hsetup⟩⟩

theorem keySetUp_of_verifyMessage {inst : Sha512MessageInstance} {p : Sha512MultiBlockProof B}
    (h : verifyMessageProofWithSettings B inst p settings = true) :
    KeySetUp B settings (buildMessageAirBundle inst.initialState inst.message).preprocessed
      (buildMessageAirBundle inst.initialState inst.message).degreeBits := by
  obtain ⟨hpolicy, -, -, data, hsetup, -⟩ := verifyMessageProofWithSettings_iff.1 h
  exact ⟨hpolicy, Option.isSome_iff_exists.2 ⟨_, hsetup⟩⟩

end Recorded

/-! ## Recorded settings -/

/-- Settings that claim one query more. -/
def oneQueryMore (settings : Sha512ProofSettings) : Sha512ProofSettings :=
  { settings with numQueries := settings.numQueries + 1 }

theorem oneQueryMore_ne (settings : Sha512ProofSettings) : oneQueryMore settings ≠ settings := by
  intro h
  have hq : settings.numQueries + 1 = settings.numQueries := congrArg Sha512ProofSettings.numQueries h
  bv_omega

theorem exists_serializeMultiBlockProof_checking (p : Sha512MultiBlockProof .checking) :
    ∃ bytes, serializeMultiBlockProof .checking 64 p = .ok bytes :=
  exists_serializeMultiBlockProof (show 1 ≤ maxInnerProofBytes by decide) (show 1 + 1 + 208 ≤ maxMultiProofBytes by decide)

/-- What acceptance says of the settings. The settings verified under meet the policy, and a bundle's
outer copy is compared with them. The settings recorded in a proof are not read: over a backend that
accepts honest proofs, those of the accepted proofs of a statement are always the settings verified
under exactly if no key is set up for the statement, so that there are no such proofs; where the prover
succeeds there is a key. For a seed whose honest proofs can be sealed the same holds of the settings
inside the sealed proofs. -/
theorem recorded_settings_eq_iff_noKey (B : Stark) (hB : B.Complete) (settings : Sha512ProofSettings) :
    (∀ inst : Sha512SingleBlockInstance,
      let key := KeySetUp B settings (buildPlonky3PreprocessedTraceFromInstance inst.initialState inst.block)
        traceDegreeBits
      (∀ p, verifySingleBlockProofWithSettings B inst p settings = true → meetsMinimumVerifierPolicy settings = true) ∧
      ((∀ p, verifySingleBlockProofWithSettings B inst p settings = true → p.settings = settings) ↔ ¬ key) ∧
      ∀ p, proveSingleBlockWithSettings B inst settings = .ok p → key) ∧
    (∀ inst : Sha512MessageInstance,
      let bundle := buildMessageAirBundle inst.initialState inst.message
      let key := KeySetUp B settings bundle.preprocessed bundle.degreeBits
      (∀ p, verifyMessageProofWithSettings B inst p settings = true → meetsMinimumVerifierPolicy settings = true) ∧
      ((∀ p, verifyMessageProofWithSettings B inst p settings = true → p.settings = settings) ↔ ¬ key) ∧
      ∀ p, proveMessageWithSettings B inst settings = .ok p → key) ∧
    (∀ usizeBits bundle, verifySeed32PrivateProofWithSettings B usizeBits bundle settings = true →
      meetsMinimumVerifierPolicy settings = true ∧ bundle.settings = settings) ∧
    ((∀ x, B.proofCodec.Decodes x) → (∀ c, B.commitmentCodec.Decodes c) → ∀ seed : Vector U8 32,
      (∀ p, proveMessageWithSettings B (seedInstance seed) settings = .ok p →
        ∃ bytes, serializeMultiBlockProof B 64 p = .ok bytes) →
      ((∀ bundle p, verifySeed32PrivateProofWithSettings B 64 bundle settings = true →
        deserializeMessageInstance 64 bundle.sealedInstance = .ok (seedInstance seed) →
        deserializeMultiBlockProof B 64 bundle.sealedProof = .ok p → p.settings = settings) ↔
        ¬ KeySetUp B settings (buildMessageAirBundle initialState seed.toList).preprocessed
          (buildMessageAirBundle initialState seed.toList).degreeBits)) := by
  refine ⟨fun inst => ⟨fun p h => (verifySingleBlockProofWithSettings_iff.1 h).policy, ?_,
      fun p hp => keySetUp_iff_proveSingleBlock.2 ⟨p, hp⟩⟩,
    fun inst => ⟨fun p h => (verifyMessageProofWithSettings_iff.1 h).policy, ?_, fun p hp => ?_⟩,
    fun usizeBits bundle h => ?_, fun hproof hcommitment seed hfit => ?_⟩
  · refine ⟨fun h hkey => ?_, fun hkey p hp => absurd (keySetUp_of_verifySingleBlock hp) hkey⟩
    obtain ⟨p, hp⟩ := keySetUp_iff_proveSingleBlock.1 hkey
    exact oneQueryMore_ne settings (h _ (verifySingleBlock_recorded (verifySingleBlock_of_prove hB hp) _))
  · refine ⟨fun h hkey => ?_, fun hkey p hp => absurd (keySetUp_of_verifyMessage hp) hkey⟩
    obtain ⟨p, hp⟩ := exists_verifyMessage hB hkey
    exact oneQueryMore_ne settings (h _ (verifyMessage_recorded hp _))
  · exact keySetUp_of_verifyMessage (verifyMessage_of_prove hB hp)
  · obtain ⟨hpolicy, hsettings, -⟩ := verifySeed32PrivateProofWithSettings_iff.1 h
    exact ⟨hpolicy, hsettings⟩
  · refine ⟨fun h hkey => ?_, fun hkey bundle p hv hinst hp => ?_⟩
    · obtain ⟨p, hp⟩ := (keySetUp_iff_proveMessage (seedInstance seed) (seed_length_le seed)).1 hkey
      obtain ⟨bytes, hbytes⟩ := hfit p hp
      obtain ⟨bundle, hv, hinst, hdecode⟩ := verifySeed32_recorded (hproof _) (hcommitment _) hbytes
        (verifyMessage_of_prove hB hp) (oneQueryMore settings)
      exact oneQueryMore_ne settings (h bundle _ hv hinst hdecode)
    · obtain ⟨-, -, seed', q, hinst', -, -, hq⟩ := verifySeed32PrivateProofWithSettings_iff.1 hv
      rw [Except.ok.inj (hinst'.symm.trans hinst)] at hq
      exact absurd (keySetUp_of_verifyMessage hq) hkey

/-- Under the default settings, proofs of the zero block and of the message `abc` and sealed proofs of
the zero seed are accepted that record other settings. -/
theorem recorded_settings_eq_iff_noKey_checking :
    (∃ p, verifySingleBlockProofWithSettings .checking ⟨initialState, Vector.replicate 128 0⟩ p .default = true ∧
      p.settings ≠ .default) ∧
    (∃ p, verifyMessageProofWithSettings .checking ⟨initialState, [0x61, 0x62, 0x63]⟩ p .default = true ∧
      p.settings ≠ .default) ∧
    ∃ bundle p, verifySeed32PrivateProofWithSettings .checking 64 bundle .default = true ∧
      deserializeMessageInstance 64 bundle.sealedInstance = .ok (seedInstance (Vector.replicate 32 0)) ∧
      deserializeMultiBlockProof .checking 64 bundle.sealedProof = .ok p ∧ p.settings ≠ .default := by
  obtain ⟨hblock, hmessage, -, hseed⟩ := recorded_settings_eq_iff_noKey .checking Stark.checking_complete .default
  have hkey := keySetUp_iff_proveSingleBlock.2 (proveSingleBlock_checking ⟨initialState, Vector.replicate 128 0⟩)
  have hkey' := fun (message : List U8) (h : message.length ≤ maxMessageInstanceBytes) =>
    (keySetUp_iff_proveMessage ⟨initialState, message⟩ h).2 (proveMessage_checking ⟨initialState, message⟩ h)
  have hseed := hseed Codec.byte_decodes Codec.byte_decodes (Vector.replicate 32 0) fun p _ =>
    exists_serializeMultiBlockProof_checking p
  refine ⟨?_, ?_, ?_⟩
  · have h := mt (hblock ⟨initialState, Vector.replicate 128 0⟩).2.1.1 (not_not.2 hkey)
    push Not at h
    exact h
  · have h := mt (hmessage ⟨initialState, [0x61, 0x62, 0x63]⟩).2.1.1 (not_not.2 (hkey' _ (by decide)))
    push Not at h
    exact h
  · have h := mt hseed.1 (not_not.2 (hkey' _ (seed_length_le (Vector.replicate 32 0))))
    push Not at h
    exact h

/-- Settings that claim more queries than the default. -/
def overstatedSettings : Sha512ProofSettings := { Sha512ProofSettings.default with numQueries := 100 }

/-- Honest proofs of a block and of a message under the default settings, and the sealed proof about
a seed, are still accepted once the settings recorded in the proof claim a hundred queries. -/
theorem recorded_settings_overstated : overstatedSettings ≠ .default ∧
    (∃ p, proveSingleBlockWithSettings .checking ⟨initialState, Vector.replicate 128 0⟩ .default = .ok p ∧
      verifySingleBlockProofWithSettings .checking ⟨initialState, Vector.replicate 128 0⟩
        { p with settings := overstatedSettings } .default = true) ∧
    (∃ p, proveMessageWithSettings .checking ⟨initialState, [0x61, 0x62, 0x63]⟩ .default = .ok p ∧
      verifyMessageProofWithSettings .checking ⟨initialState, [0x61, 0x62, 0x63]⟩
        { p with settings := overstatedSettings } .default = true) ∧
    ∃ bundle p, verifySeed32PrivateProofWithSettings .checking 64 bundle .default = true ∧
      deserializeMultiBlockProof .checking 64 bundle.sealedProof = .ok p ∧ p.settings = overstatedSettings := by
  refine ⟨by decide, ?_, ?_, ?_⟩
  · obtain ⟨p, hp⟩ := proveSingleBlock_checking ⟨initialState, Vector.replicate 128 0⟩
    have hv := verifySingleBlock_of_prove Stark.checking_complete hp
    exact ⟨p, hp, verifySingleBlock_recorded hv overstatedSettings⟩
  · obtain ⟨p, hp⟩ := proveMessage_checking ⟨initialState, [0x61, 0x62, 0x63]⟩ (by decide)
    have hv := verifyMessage_of_prove Stark.checking_complete hp
    exact ⟨p, hp, verifyMessage_recorded hv overstatedSettings⟩
  · obtain ⟨p, hp⟩ := proveMessage_checking (seedInstance (Vector.replicate 32 0)) (seed_length_le _)
    obtain ⟨bytes, hbytes⟩ := exists_serializeMultiBlockProof_checking p
    obtain ⟨bundle, hv, -, hdecode⟩ := verifySeed32_recorded (Codec.byte_decodes _) (Codec.byte_decodes _) hbytes
      (verifyMessage_of_prove Stark.checking_complete hp) overstatedSettings
    exact ⟨bundle, _, hv, hdecode, rfl⟩

end Sha512Circuit
