/-
`proof_api/private_seed.rs`: the sealed bundle of a proof about a 32-byte seed.
-/
import Sha512Circuit.Api.ProveVerify
import Sha512Circuit.Api.Serialization

namespace Sha512Circuit

open Wire (Codec)

/-- `MAX_SEED_PRIVATE_BUNDLE_BYTES`. -/
def maxSeedPrivateBundleBytes : ℕ := 64 * 1024 * 1024

/-- `Sha512Seed32PrivateProof`. -/
structure Sha512Seed32PrivateProof where
  digest : Digest
  settings : Sha512ProofSettings
  sealedInstance : List U8
  sealedProof : List U8
deriving DecidableEq

/-- `SerializableSeed32PrivateProof`. -/
structure SerializableSeed32PrivateProof where
  digest : List U8
  settings : Sha512ProofSettings
  sealedInstance : List U8
  sealedProof : List U8

section Seed

variable (B : Stark) (usizeBits : ℕ)

/-! ## Proving and verifying -/

/-- The statement about a seed. -/
def seedInstance (seed : Vector U8 32) : Sha512MessageInstance where
  initialState := initialState
  message := seed.toList

/-- `prove_seed32_private_with_settings`. -/
def proveSeed32PrivateWithSettings (seed : Vector U8 32) (settings : Sha512ProofSettings) :
    Except ApiError Sha512Seed32PrivateProof := do
  let inst := seedInstance seed
  let proof ← proveMessageWithSettings B inst settings
  let sealedInstance ← serializeMessageInstance inst
  let sealedProof ← serializeMultiBlockProof B usizeBits proof
  return { digest := proof.digest, settings, sealedInstance, sealedProof }

/-- `prove_seed32_private`. -/
def proveSeed32Private (seed : Vector U8 32) : Except ApiError Sha512Seed32PrivateProof :=
  proveSeed32PrivateWithSettings B usizeBits seed .default

/-- `verify_seed32_private_proof_with_settings`. -/
def verifySeed32PrivateProofWithSettings (bundle : Sha512Seed32PrivateProof) (settings : Sha512ProofSettings) :
    Bool :=
  if !meetsMinimumVerifierPolicy settings || bundle.settings != settings then false
  else
    match deserializeMessageInstance usizeBits bundle.sealedInstance with
    | .error _ => false
    | .ok inst =>
      if inst.initialState ≠ initialState ∨ inst.message.length ≠ 32 then false
      else
        match deserializeMultiBlockProof B usizeBits bundle.sealedProof with
        | .error _ => false
        | .ok proof =>
          if proof.digest ≠ bundle.digest then false
          else verifyMessageProofWithSettings B inst proof settings

/-- `verify_seed32_private_proof`. -/
def verifySeed32PrivateProof (bundle : Sha512Seed32PrivateProof) : Bool :=
  let verifierPolicy := Sha512ProofSettings.default
  if bundle.settings ≠ verifierPolicy then false
  else verifySeed32PrivateProofWithSettings B usizeBits bundle verifierPolicy

/-! ## The bundle as bytes -/

/-- The fields of a bundle envelope. -/
def seedFields : List U8 × Sha512ProofSettings × List U8 × List U8 ≃ SerializableSeed32PrivateProof where
  toFun f := ⟨f.1, f.2.1, f.2.2.1, f.2.2.2⟩
  invFun p := (p.digest, p.settings, p.sealedInstance, p.sealedProof)
  left_inv _ := rfl
  right_inv _ := rfl

/-- The codec of `SerializableSeed32PrivateProof`. -/
def seedCodec : Codec SerializableSeed32PrivateProof :=
  ((bytesCodec usizeBits).pair <| (settingsCodec usizeBits).pair <| (bytesCodec usizeBits).pair <|
    bytesCodec usizeBits).map seedFields

/-- `serialize_seed32_private_proof`. -/
def serializeSeed32PrivateProof (bundle : Sha512Seed32PrivateProof) : Except ApiError (List U8) := do
  let bytes := (seedCodec usizeBits).encode
    { digest := bundle.digest.toList, settings := bundle.settings, sealedInstance := bundle.sealedInstance
      sealedProof := bundle.sealedProof }
  if bytes.length > maxSeedPrivateBundleBytes then
    throw (.message "serialized seed32 private proof exceeds configured size limit")
  return bytes

/-- `deserialize_seed32_private_proof`. -/
def deserializeSeed32PrivateProof (bytes : List U8) : Except ApiError Sha512Seed32PrivateProof := do
  if bytes.length > maxSeedPrivateBundleBytes then
    throw (.message "serialized seed32 private proof exceeds configured size limit")
  let serializable ← mapErr ((seedCodec usizeBits).decodeSlice maxSeedPrivateBundleBytes bytes)
  let digest ← toDigest serializable.digest (.message "invalid digest length in serialized seed32 private proof")
  return { digest, settings := serializable.settings, sealedInstance := serializable.sealedInstance
           sealedProof := serializable.sealedProof }

/-! ## What success says -/

variable {B usizeBits}

/-- The successful runs of `prove_seed32_private_with_settings`. -/
theorem proveSeed32PrivateWithSettings_iff {seed : Vector U8 32} {settings : Sha512ProofSettings}
    {bundle : Sha512Seed32PrivateProof} :
    proveSeed32PrivateWithSettings B usizeBits seed settings = .ok bundle ↔
      ∃ p, proveMessageWithSettings B (seedInstance seed) settings = .ok p ∧ bundle.digest = p.digest ∧
        bundle.settings = settings ∧ serializeMessageInstance (seedInstance seed) = .ok bundle.sealedInstance ∧
        serializeMultiBlockProof B usizeBits p = .ok bundle.sealedProof := by
  constructor
  · intro h
    obtain ⟨p, hp, h⟩ := Wire.bind_ok h
    obtain ⟨si, hsi, h⟩ := Wire.bind_ok h
    obtain ⟨sp, hsp, h⟩ := Wire.bind_ok h
    cases h
    exact ⟨p, hp, rfl, rfl, hsi, hsp⟩
  · obtain ⟨digest, recorded, si, sp⟩ := bundle
    rintro ⟨p, hp, rfl, rfl, hsi, hsp⟩
    dsimp only at hsi hsp hp
    unfold proveSeed32PrivateWithSettings
    dsimp only
    rw [hp, hsi]
    show (serializeMultiBlockProof B usizeBits p >>= fun x => _) = _
    rw [hsp]
    rfl

/-- The accepting runs of `verify_seed32_private_proof_with_settings`. -/
theorem verifySeed32PrivateProofWithSettings_iff {bundle : Sha512Seed32PrivateProof}
    {settings : Sha512ProofSettings} :
    verifySeed32PrivateProofWithSettings B usizeBits bundle settings = true ↔
      meetsMinimumVerifierPolicy settings = true ∧ bundle.settings = settings ∧ ∃ seed p,
        deserializeMessageInstance usizeBits bundle.sealedInstance = .ok (seedInstance seed) ∧
        deserializeMultiBlockProof B usizeBits bundle.sealedProof = .ok p ∧ p.digest = bundle.digest ∧
        verifyMessageProofWithSettings B (seedInstance seed) p settings = true := by
  unfold verifySeed32PrivateProofWithSettings
  constructor
  -- one split for each guard of the source, in its order
  · intro h
    split at h
    · cases h
    rename_i hpolicy
    split at h
    · cases h
    rename_i inst hinst
    split at h
    · cases h
    rename_i hseed
    split at h
    · cases h
    rename_i p hp
    split at h
    · cases h
    rename_i hdigest
    obtain ⟨s, m⟩ := inst
    obtain ⟨rfl, hl⟩ : s = initialState ∧ m.length = 32 := by simpa [not_or] using hseed
    refine ⟨by simp_all, by simp_all, ⟨m.toArray, by simpa using hl⟩, p, hinst, hp, not_not.1 hdigest, h⟩
  · rintro ⟨hpolicy, hsettings, seed, p, hinst, hp, hdigest, h⟩
    rw [if_neg (by simp [hpolicy, hsettings]), hinst]
    dsimp only
    rw [if_neg (by simp [seedInstance]), hp]
    dsimp only
    rw [if_neg (not_not.2 hdigest), h]

theorem verifySeed32PrivateProof_iff {bundle : Sha512Seed32PrivateProof} :
    verifySeed32PrivateProof B usizeBits bundle = true ↔
      bundle.settings = .default ∧ verifySeed32PrivateProofWithSettings B usizeBits bundle .default = true := by
  unfold verifySeed32PrivateProof
  by_cases h : bundle.settings = .default <;> simp [h]

end Seed

end Sha512Circuit
