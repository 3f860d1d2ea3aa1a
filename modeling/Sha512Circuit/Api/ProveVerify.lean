/-
`proof_api/prove_verify.rs`: proving and verifying single blocks and messages over an arbitrary
backend, and what a successful call says about its inputs.
-/
import Sha512Circuit.Api.Model

namespace Sha512Circuit

section ProveVerify

variable (B : Stark)

/-! ## Single blocks -/

/-- `prove_single_block_with_settings`. -/
def proveSingleBlockWithSettings (inst : Sha512SingleBlockInstance) (settings : Sha512ProofSettings) :
    Except ApiError (Sha512SingleBlockProof B) := do
  validateSettingsForProving settings
  let config := setupConfig settings
  let trace := compressBlock inst.initialState inst.block
  let main := buildPlonky3AirTrace trace
  let preprocessed := buildPlonky3PreprocessedTraceFromInstance inst.initialState inst.block
  let air : Sha512RoundAir := ⟨preprocessed⟩
  let (preprocessedProverData, preprocessedVk) ← okOrElse (B.setupPreprocessed config air traceDegreeBits)
    (.message "failed to setup preprocessed data for single-block proof")
  let publicValues := publicValuesOf trace
  let proof := B.proveWithPreprocessed config air main publicValues (some preprocessedProverData)
  return { proof, preprocessedVk, settings }

/-- `prove_single_block`. -/
def proveSingleBlock (inst : Sha512SingleBlockInstance) : Except ApiError (Sha512SingleBlockProof B) :=
  proveSingleBlockWithSettings B inst .default

/-- `verify_single_block_proof_with_settings`. -/
def verifySingleBlockProofWithSettings (inst : Sha512SingleBlockInstance) (proof : Sha512SingleBlockProof B)
    (settings : Sha512ProofSettings) : Bool :=
  if !meetsMinimumVerifierPolicy settings then false
  else
    let config := setupConfig settings
    let preprocessed := buildPlonky3PreprocessedTraceFromInstance inst.initialState inst.block
    let publicValues := publicValuesOf (compressBlock inst.initialState inst.block)
    let air : Sha512RoundAir := ⟨preprocessed⟩
    match B.setupPreprocessed config air traceDegreeBits with
    | none => false
    | some (_, expectedVk) =>
      if !vkMatches expectedVk proof.preprocessedVk then false
      else (B.verifyWithPreprocessed config air proof.proof publicValues (some proof.preprocessedVk)).isOk

/-- `verify_single_block_proof`. -/
def verifySingleBlockProof (inst : Sha512SingleBlockInstance) (proof : Sha512SingleBlockProof B) : Bool :=
  let verifierPolicy := Sha512ProofSettings.default
  if proof.settings ≠ verifierPolicy then false
  else verifySingleBlockProofWithSettings B inst proof verifierPolicy

/-! ## Messages -/

/-- `prove_message_with_settings`. -/
def proveMessageWithSettings (inst : Sha512MessageInstance) (settings : Sha512ProofSettings) :
    Except ApiError (Sha512MultiBlockProof B) := do
  validateSettingsForProving settings
  validateMessageSize inst.message.length
  let config := setupConfig settings
  let bundle := buildMessageAirBundle inst.initialState inst.message
  let air : Sha512RoundAir := ⟨bundle.preprocessed⟩
  let (preprocessedProverData, preprocessedVk) ← okOrElse (B.setupPreprocessed config air bundle.degreeBits)
    (.message "failed to setup preprocessed data for message proof")
  let proof := B.proveWithPreprocessed config air bundle.main bundle.finalPublicValues (some preprocessedProverData)
  return { proof, preprocessedVk, finalState := bundle.finalState, digest := digestOfState bundle.finalState, settings }

/-- `prove_message`. -/
def proveMessage (inst : Sha512MessageInstance) : Except ApiError (Sha512MultiBlockProof B) :=
  proveMessageWithSettings B inst .default

/-- `verify_message_proof_with_settings`. -/
def verifyMessageProofWithSettings (inst : Sha512MessageInstance) (proof : Sha512MultiBlockProof B)
    (settings : Sha512ProofSettings) : Bool :=
  if !meetsMinimumVerifierPolicy settings then false
  else
    let config := setupConfig settings
    let bundle := buildMessageAirBundle inst.initialState inst.message
    if proof.finalState ≠ bundle.finalState ∨ proof.digest ≠ digestOfState bundle.finalState then false
    else
      let air : Sha512RoundAir := ⟨bundle.preprocessed⟩
      match B.setupPreprocessed config air bundle.degreeBits with
      | none => false
      | some (_, expectedVk) =>
        if !vkMatches expectedVk proof.preprocessedVk then false
        else (B.verifyWithPreprocessed config air proof.proof bundle.finalPublicValues (some proof.preprocessedVk)).isOk

/-- `verify_message_proof`. -/
def verifyMessageProof (inst : Sha512MessageInstance) (proof : Sha512MultiBlockProof B) : Bool :=
  let verifierPolicy := Sha512ProofSettings.default
  if proof.settings ≠ verifierPolicy then false
  else verifyMessageProofWithSettings B inst proof verifierPolicy

/-! ## What success says -/

variable {B}

/-- The common tail of the verifiers: the key of the statement must be set up, and must be the key
of the proof. -/
theorem setup_matches_iff {x : Option (B.ProverData × Sha512PreprocessedVk B.Commitment)}
    {vk : Sha512PreprocessedVk B.Commitment} {accepts : Bool} :
    (match x with
      | none => false
      | some (_, expectedVk) => if !vkMatches expectedVk vk then false else accepts) = true ↔
      ∃ data, x = some (data, vk) ∧ accepts = true := by
  cases x with
  | none => simp
  | some dv =>
    obtain ⟨data, expectedVk⟩ := dv
    by_cases h : expectedVk = vk
    · subst h
      simp [vkMatches_iff.2 rfl]
    · have hm : vkMatches expectedVk vk = false := by rwa [← Bool.not_eq_true, vkMatches_iff]
      simp [hm, h]

/-- The successful runs of `prove_single_block_with_settings`. -/
theorem proveSingleBlockWithSettings_iff {inst : Sha512SingleBlockInstance} {settings : Sha512ProofSettings}
    {p : Sha512SingleBlockProof B} :
    proveSingleBlockWithSettings B inst settings = .ok p ↔
      meetsMinimumVerifierPolicy settings = true ∧ p.settings = settings ∧ ∃ data,
        B.setupPreprocessed (setupConfig settings)
          ⟨buildPlonky3PreprocessedTraceFromInstance inst.initialState inst.block⟩ traceDegreeBits =
            some (data, p.preprocessedVk) ∧
        p.proof = B.proveWithPreprocessed (setupConfig settings)
          ⟨buildPlonky3PreprocessedTraceFromInstance inst.initialState inst.block⟩
          (buildPlonky3AirTrace (compressBlock inst.initialState inst.block))
          (publicValuesOf (compressBlock inst.initialState inst.block)) (some data) := by
  constructor
  · intro h
    obtain ⟨u, hpolicy, h⟩ := Wire.bind_ok h
    obtain ⟨⟨data, vk⟩, hsetup, h⟩ := Wire.bind_ok h
    cases h
    exact ⟨validateSettingsForProving_ok.1 hpolicy, rfl, data, okOrElse_ok.1 hsetup, rfl⟩
  · obtain ⟨proof, vk, recorded⟩ := p
    rintro ⟨hpolicy, hsettings, data, hsetup, hproof⟩
    dsimp only at hsettings hsetup hproof
    subst hsettings hproof
    unfold proveSingleBlockWithSettings
    rw [(validateSettingsForProving_ok (u := ())).2 hpolicy]
    dsimp only
    rw [okOrElse_ok.2 hsetup]
    rfl

/-- What is checked of a single-block proof under explicit settings. -/
structure SingleBlockChecks (inst : Sha512SingleBlockInstance) (proof : B.Proof)
    (vk : Sha512PreprocessedVk B.Commitment) (settings : Sha512ProofSettings) : Prop where
  policy : meetsMinimumVerifierPolicy settings = true
  accepted : ∃ data,
    B.setupPreprocessed (setupConfig settings)
      ⟨buildPlonky3PreprocessedTraceFromInstance inst.initialState inst.block⟩ traceDegreeBits = some (data, vk) ∧
    (B.verifyWithPreprocessed (setupConfig settings)
      ⟨buildPlonky3PreprocessedTraceFromInstance inst.initialState inst.block⟩ proof
      (publicValuesOf (compressBlock inst.initialState inst.block)) (some vk)).isOk = true

/-- The accepting runs of `verify_single_block_proof_with_settings`. -/
theorem verifySingleBlockProofWithSettings_iff {inst : Sha512SingleBlockInstance} {p : Sha512SingleBlockProof B}
    {settings : Sha512ProofSettings} :
    verifySingleBlockProofWithSettings B inst p settings = true ↔
      SingleBlockChecks inst p.proof p.preprocessedVk settings := by
  unfold verifySingleBlockProofWithSettings
  dsimp only
  constructor
  · intro h
    split at h
    · cases h
    · rename_i hpolicy
      exact ⟨by simpa using hpolicy, setup_matches_iff.1 h⟩
  · rintro ⟨hpolicy, h⟩
    rw [if_neg (by simp [hpolicy])]
    exact setup_matches_iff.2 h

/-- The successful runs of `prove_message_with_settings`. -/
theorem proveMessageWithSettings_iff {inst : Sha512MessageInstance} {settings : Sha512ProofSettings}
    {p : Sha512MultiBlockProof B} :
    proveMessageWithSettings B inst settings = .ok p ↔
      meetsMinimumVerifierPolicy settings = true ∧ inst.message.length ≤ maxMessageInstanceBytes ∧
      p.settings = settings ∧ p.finalState = (buildMessageAirBundle inst.initialState inst.message).finalState ∧
      p.digest = digestOfState p.finalState ∧ ∃ data,
        B.setupPreprocessed (setupConfig settings)
          ⟨(buildMessageAirBundle inst.initialState inst.message).preprocessed⟩
          (buildMessageAirBundle inst.initialState inst.message).degreeBits = some (data, p.preprocessedVk) ∧
        p.proof = B.proveWithPreprocessed (setupConfig settings)
          ⟨(buildMessageAirBundle inst.initialState inst.message).preprocessed⟩
          (buildMessageAirBundle inst.initialState inst.message).main
          (buildMessageAirBundle inst.initialState inst.message).finalPublicValues (some data) := by
  constructor
  · intro h
    obtain ⟨u, hpolicy, h⟩ := Wire.bind_ok h
    obtain ⟨u', hsize, h⟩ := Wire.bind_ok h
    obtain ⟨⟨data, vk⟩, hsetup, h⟩ := Wire.bind_ok h
    cases h
    exact ⟨validateSettingsForProving_ok.1 hpolicy, validateMessageSize_ok.1 hsize, rfl, rfl, rfl, data,
      okOrElse_ok.1 hsetup, rfl⟩
  · obtain ⟨proof, vk, final, digest, recorded⟩ := p
    rintro ⟨hpolicy, hsize, hsettings, hfinal, hdigest, data, hsetup, hproof⟩
    dsimp only at hsettings hfinal hdigest hsetup hproof
    subst hsettings hdigest hfinal hproof
    unfold proveMessageWithSettings
    rw [(validateSettingsForProving_ok (u := ())).2 hpolicy, (validateMessageSize_ok (u := ())).2 hsize]
    dsimp only
    generalize buildMessageAirBundle inst.initialState inst.message = bundle at hsetup ⊢
    rw [okOrElse_ok.2 hsetup]
    rfl

/-- What is checked of a message proof under explicit settings. -/
structure MessageChecks (inst : Sha512MessageInstance) (proof : B.Proof) (vk : Sha512PreprocessedVk B.Commitment)
    (finalState : State) (digest : Digest) (settings : Sha512ProofSettings) : Prop where
  policy : meetsMinimumVerifierPolicy settings = true
  finalState_eq : finalState = (buildMessageAirBundle inst.initialState inst.message).finalState
  digest_eq : digest = digestOfState finalState
  accepted : ∃ data,
    B.setupPreprocessed (setupConfig settings)
      ⟨(buildMessageAirBundle inst.initialState inst.message).preprocessed⟩
      (buildMessageAirBundle inst.initialState inst.message).degreeBits = some (data, vk) ∧
    (B.verifyWithPreprocessed (setupConfig settings)
      ⟨(buildMessageAirBundle inst.initialState inst.message).preprocessed⟩ proof
      (buildMessageAirBundle inst.initialState inst.message).finalPublicValues (some vk)).isOk = true

/-- The accepting runs of `verify_message_proof_with_settings`. -/
theorem verifyMessageProofWithSettings_iff {inst : Sha512MessageInstance} {p : Sha512MultiBlockProof B}
    {settings : Sha512ProofSettings} :
    verifyMessageProofWithSettings B inst p settings = true ↔
      MessageChecks inst p.proof p.preprocessedVk p.finalState p.digest settings := by
  unfold verifyMessageProofWithSettings
  dsimp only
  constructor
  · intro h
    split at h
    · cases h
    rename_i hpolicy
    split at h
    · cases h
    rename_i hdigest
    obtain ⟨hs, hd⟩ := not_or.1 hdigest
    have hs := not_not.1 hs
    exact ⟨by simpa using hpolicy, hs, hs ▸ not_not.1 hd, setup_matches_iff.1 h⟩
  · rintro ⟨hpolicy, hs, hd, h⟩
    rw [if_neg (by simp [hpolicy]), if_neg (by rw [← hs]; simp [hd])]
    exact setup_matches_iff.2 h

/-- The entry points without settings add the comparison with the default. -/
theorem verifySingleBlockProof_iff {inst : Sha512SingleBlockInstance} {p : Sha512SingleBlockProof B} :
    verifySingleBlockProof B inst p = true ↔
      p.settings = .default ∧ verifySingleBlockProofWithSettings B inst p .default = true := by
  unfold verifySingleBlockProof
  by_cases h : p.settings = .default <;> simp [h]

theorem verifyMessageProof_iff {inst : Sha512MessageInstance} {p : Sha512MultiBlockProof B} :
    verifyMessageProof B inst p = true ↔
      p.settings = .default ∧ verifyMessageProofWithSettings B inst p .default = true := by
  unfold verifyMessageProof
  by_cases h : p.settings = .default <;> simp [h]

end ProveVerify

end Sha512Circuit
