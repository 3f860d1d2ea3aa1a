/-
`proof_api/mod.rs`: settings, statements and proofs, the STARK backend as the API sees it, and the
checks that prover and verifier share.
-/
import Sha512Circuit.Air.RoundAir
import Sha512Circuit.Lib.Wire

namespace Sha512Circuit

/-! ## Constants -/

/-- `TRACE_DEGREE_BITS`. -/
def traceDegreeBits : ℕ := 7

/-- `MIN_VERIFIER_LOG_FINAL_POLY_LEN`. -/
def minVerifierLogFinalPolyLen : U64 := 4
/-- `MIN_VERIFIER_LOG_BLOWUP`. -/
def minVerifierLogBlowup : U64 := 3
/-- `MIN_VERIFIER_NUM_QUERIES`. -/
def minVerifierNumQueries : U64 := 2
/-- `MIN_VERIFIER_COMMIT_POW_BITS`. -/
def minVerifierCommitPowBits : U64 := 1
/-- `MIN_VERIFIER_QUERY_POW_BITS`. -/
def minVerifierQueryPowBits : U64 := 1

/-- `MAX_MESSAGE_INSTANCE_BYTES`. -/
def maxMessageInstanceBytes : ℕ := 16 * 1024 * 1024
/-- `MAX_SINGLE_PROOF_BYTES`. -/
def maxSingleProofBytes : ℕ := 16 * 1024 * 1024
/-- `MAX_MULTI_PROOF_BYTES`. -/
def maxMultiProofBytes : ℕ := 64 * 1024 * 1024
/-- `MAX_INNER_PROOF_BYTES`. -/
def maxInnerProofBytes : ℕ := 16 * 1024 * 1024

/-! ## Errors -/

/-- The `String` of an `Err`: a text of the API, or what `bincode` prints for its own error. -/
inductive ApiError where
  | message (text : String)
  | bincode (e : Wire.Error)
deriving DecidableEq

/-- `map_err(|e| e.to_string())` on a `bincode` result. -/
def mapErr {α : Type} : Except Wire.Error α → Except ApiError α := Except.mapError .bincode

/-- `ok_or_else`. -/
def okOrElse {α : Type} (x : Option α) (e : ApiError) : Except ApiError α :=
  match x with
  | some a => .ok a
  | none => .error e

/-! ## Settings and statements -/

/-- `Sha512ProofSettings`, with a 64-bit `usize`. -/
structure Sha512ProofSettings where
  logBlowup : U64
  logFinalPolyLen : U64
  numQueries : U64
  commitProofOfWorkBits : U64
  queryProofOfWorkBits : U64
  rngSeed : U64
deriving DecidableEq

/-- `Sha512ProofSettings::default`. -/
def Sha512ProofSettings.default : Sha512ProofSettings where
  logBlowup := 3
  logFinalPolyLen := 4
  numQueries := 2
  commitProofOfWorkBits := 1
  queryProofOfWorkBits := 1
  rngSeed := 1

/-- `Sha512SingleBlockInstance`. -/
structure Sha512SingleBlockInstance where
  initialState : State
  block : Block
deriving DecidableEq

/-- `Sha512MessageInstance`. -/
structure Sha512MessageInstance where
  initialState : State
  message : List U8
deriving DecidableEq

/-- `[u8; 64]`: a digest. -/
abbrev Digest := Vector U8 64

/-- The array `state_to_digest` returns. -/
def digestOfState (state : State) : Digest :=
  ⟨(stateToDigest state).toArray, by simp [stateToDigest, u64ToBeBytes]⟩

@[simp] theorem digestOfState_toList (state : State) : (digestOfState state).toList = stateToDigest state := rfl

/-! ## The backend -/

/-- `FriParameters`, less the hash it commits with. -/
structure FriParameters where
  logBlowup : U64
  logFinalPolyLen : U64
  numQueries : U64
  commitProofOfWorkBits : U64
  queryProofOfWorkBits : U64

/-- `Sha512StarkConfig`: what of a configuration depends on the settings. -/
structure Sha512StarkConfig where
  fri : FriParameters
  /-- The bytes the Fiat-Shamir challenger starts from. -/
  challenger : List U8

/-- `PreprocessedVerifierKey`. -/
structure Sha512PreprocessedVk (Commitment : Type) where
  width : U64
  degreeBits : U64
  commitment : Commitment
deriving DecidableEq

/-- The functions of `p3_uni_stark` and of `bincode` on its types, as the API calls them. -/
structure Stark where
  Proof : Type
  Commitment : Type
  ProverData : Type
  VerificationError : Type
  commitmentEq : DecidableEq Commitment
  setupPreprocessed : Sha512StarkConfig → Sha512RoundAir → ℕ → Option (ProverData × Sha512PreprocessedVk Commitment)
  proveWithPreprocessed : Sha512StarkConfig → Sha512RoundAir → RowMajorMatrix → Vector BabyBear 8 →
    Option ProverData → Proof
  verifyWithPreprocessed : Sha512StarkConfig → Sha512RoundAir → Proof → Vector BabyBear 8 →
    Option (Sha512PreprocessedVk Commitment) → Except VerificationError Unit
  proofCodec : Wire.Codec Proof
  commitmentCodec : Wire.Codec Commitment

instance (B : Stark) : DecidableEq B.Commitment := B.commitmentEq

/-- A backend that checks the AIR itself: a proof records whether the trace it was made from satisfies
the AIR. -/
def Stark.checking : Stark where
  Proof := U8
  Commitment := U8
  ProverData := Unit
  VerificationError := Unit
  commitmentEq := inferInstance
  setupPreprocessed _ air degreeBits :=
    if air.preprocessed.height = 2 ^ degreeBits then
      some ((), { width := BitVec.ofNat 64 air.preprocessed.width, degreeBits := BitVec.ofNat 64 degreeBits
                  commitment := 0 })
    else none
  proveWithPreprocessed _ air main publicValues _ := if airVanishes main air.preprocessed publicValues 0 then 1 else 0
  verifyWithPreprocessed _ _ proof _ _ := if proof = (1 : U8) then .ok () else .error ()
  proofCodec := .byte
  commitmentCodec := .byte

section Api

variable (B : Stark)

/-- `Sha512SingleBlockProof`. -/
structure Sha512SingleBlockProof where
  proof : B.Proof
  preprocessedVk : Sha512PreprocessedVk B.Commitment
  settings : Sha512ProofSettings

/-- `Sha512MultiBlockProof`. -/
structure Sha512MultiBlockProof where
  proof : B.Proof
  preprocessedVk : Sha512PreprocessedVk B.Commitment
  finalState : State
  digest : Digest
  settings : Sha512ProofSettings

/-! ## Shared checks -/

/-- `setup_config`. -/
def setupConfig (settings : Sha512ProofSettings) : Sha512StarkConfig where
  fri :=
    { logBlowup := settings.logBlowup
      logFinalPolyLen := settings.logFinalPolyLen
      numQueries := settings.numQueries
      commitProofOfWorkBits := settings.commitProofOfWorkBits
      queryProofOfWorkBits := settings.queryProofOfWorkBits }
  challenger := (u64ToBeBytes settings.rngSeed).reverse

variable {B} in
/-- `vk_matches`. -/
def vkMatches (a b : Sha512PreprocessedVk B.Commitment) : Bool :=
  a.commitment == b.commitment && a.degreeBits == b.degreeBits && a.width == b.width

/-- `meets_minimum_verifier_policy`. -/
def meetsMinimumVerifierPolicy (settings : Sha512ProofSettings) : Bool :=
  decide (settings.logFinalPolyLen ≥ minVerifierLogFinalPolyLen) &&
  decide (settings.logBlowup ≥ minVerifierLogBlowup) &&
  decide (settings.numQueries ≥ minVerifierNumQueries) &&
  decide (settings.commitProofOfWorkBits ≥ minVerifierCommitPowBits) &&
  decide (settings.queryProofOfWorkBits ≥ minVerifierQueryPowBits)

/-- `validate_settings_for_proving`. -/
def validateSettingsForProving (settings : Sha512ProofSettings) : Except ApiError Unit :=
  if !meetsMinimumVerifierPolicy settings then
    .error (.message "proof settings do not meet minimum verifier policy")
  else .ok ()

/-- `validate_message_size`. -/
def validateMessageSize (messageLen : ℕ) : Except ApiError Unit :=
  if messageLen > maxMessageInstanceBytes then
    .error (.message "message instance exceeds configured size limit")
  else .ok ()

variable {B} in
theorem vkMatches_iff {a b : Sha512PreprocessedVk B.Commitment} : vkMatches a b = true ↔ a = b := by
  obtain ⟨w, d, c⟩ := a
  obtain ⟨w', d', c'⟩ := b
  simp only [vkMatches, Bool.and_eq_true, beq_iff_eq, Sha512PreprocessedVk.mk.injEq]
  tauto

theorem meetsMinimumVerifierPolicy_default : meetsMinimumVerifierPolicy .default = true := by decide

theorem validateSettingsForProving_ok {settings : Sha512ProofSettings} {u : Unit} :
    validateSettingsForProving settings = .ok u ↔ meetsMinimumVerifierPolicy settings = true := by
  unfold validateSettingsForProving
  cases meetsMinimumVerifierPolicy settings <;> simp

theorem validateMessageSize_ok {n : ℕ} {u : Unit} : validateMessageSize n = .ok u ↔ n ≤ maxMessageInstanceBytes := by
  unfold validateMessageSize
  split
  · rename_i h
    simpa using h
  · rename_i h
    simpa using h

theorem okOrElse_ok {α : Type} {x : Option α} {e : ApiError} {a : α} : okOrElse x e = .ok a ↔ x = some a := by
  cases x <;> simp [okOrElse]

theorem mapErr_ok {α : Type} {x : Except Wire.Error α} {a : α} : mapErr x = .ok a ↔ x = .ok a := by
  cases x <;> simp [mapErr, Except.mapError]

end Api

end Sha512Circuit
