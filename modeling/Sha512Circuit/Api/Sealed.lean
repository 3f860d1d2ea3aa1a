/-
What a sealed proof says about its sealed instance: over a backend whose commitments bind, one sealed
proof is accepted with one sealed instance only.
-/
import Sha512Circuit.Api.Completeness

namespace Sha512Circuit

open Wire (Codec)

/-- Binding of the backend: under fixed settings and for a fixed degree, equal commitments are to
equal preprocessed matrices. -/
def Stark.Binding (B : Stark) : Prop :=
  ∀ (settings : Sha512ProofSettings) (degreeBits : ℕ) (air air' : Sha512RoundAir) (data data' : B.ProverData)
    (vk vk' : Sha512PreprocessedVk B.Commitment),
    B.setupPreprocessed (setupConfig settings) air degreeBits = some (data, vk) →
    B.setupPreprocessed (setupConfig settings) air' degreeBits = some (data', vk') →
    vk.commitment = vk'.commitment → air.preprocessed = air'.preprocessed

section Binding

variable {B : Stark} {settings : Sha512ProofSettings}

/-- A message proof is accepted for one statement among those of one message length. -/
theorem verifyMessage_binds (hB : B.Binding) {inst inst' : Sha512MessageInstance} {p : Sha512MultiBlockProof B}
    (hlen : inst.message.length = inst'.message.length) (h : verifyMessageProofWithSettings B inst p settings = true)
    (h' : verifyMessageProofWithSettings B inst' p settings = true) : inst = inst' := by
  obtain ⟨-, -, -, data, hsetup, -⟩ := verifyMessageProofWithSettings_iff.1 h
  obtain ⟨-, -, -, data', hsetup', -⟩ := verifyMessageProofWithSettings_iff.1 h'
  have hdegree : (buildMessageAirBundle inst'.initialState inst'.message).degreeBits =
      (buildMessageAirBundle inst.initialState inst.message).degreeBits := by
    rw [bundle_degreeBits, bundle_degreeBits, trailingZeros_totalRows, trailingZeros_totalRows, paddedBlocks_length,
      paddedBlocks_length, hlen]
  rw [hdegree] at hsetup'
  obtain ⟨hs, hm⟩ := statement_of_bundle (hB settings _ _ _ _ _ _ _ hsetup hsetup' rfl)
  cases inst
  cases inst'
  rw [Sha512MessageInstance.mk.injEq]
  exact ⟨hs, hm⟩

/-- A sealed proof is accepted in one bundle only. -/
theorem verifySeed32_binds (hB : B.Binding) {bundle bundle' : Sha512Seed32PrivateProof}
    (hproof : bundle.sealedProof = bundle'.sealedProof)
    (h : verifySeed32PrivateProofWithSettings B 64 bundle settings = true)
    (h' : verifySeed32PrivateProofWithSettings B 64 bundle' settings = true) : bundle = bundle' := by
  obtain ⟨-, hs, seed, p, hinst, hp, hdigest, hv⟩ := verifySeed32PrivateProofWithSettings_iff.1 h
  obtain ⟨-, hs', seed', p', hinst', hp', hdigest', hv'⟩ := verifySeed32PrivateProofWithSettings_iff.1 h'
  -- the sealed proof decodes to one proof, which fixes the statement; its encoding is unique
  obtain rfl : p = p' := Except.ok.inj (hp.symm.trans (hproof ▸ hp'))
  have hseed : seedInstance seed = seedInstance seed' := verifyMessage_binds hB (by simp [seedInstance]) hv hv'
  rw [← hseed] at hinst'
  have hser := serializeMessageInstance_deserialize hinst
  have hser' := serializeMessageInstance_deserialize hinst'
  have hsealed : bundle.sealedInstance = bundle'.sealedInstance := Except.ok.inj (hser.symm.trans hser')
  cases bundle
  cases bundle'
  rw [Sha512Seed32PrivateProof.mk.injEq]
  exact ⟨hdigest.symm.trans hdigest', hs.trans hs'.symm, hsealed, hproof⟩

end Binding

/-! ## A backend that binds -/

namespace Stark

/-- A backend that commits to a matrix of one segment by its cells, and checks the AIR itself. -/
def committing : Stark where
  Proof := U8
  Commitment := Vector U64 (traceRows * airWidth)
  ProverData := Unit
  VerificationError := Unit
  commitmentEq := inferInstance
  setupPreprocessed _ air degreeBits :=
    if h : air.preprocessed.values.size = traceRows * airWidth ∧ air.preprocessed.width = airWidth then
      some ((), { width := BitVec.ofNat 64 airWidth, degreeBits := BitVec.ofNat 64 degreeBits
                  commitment := ⟨air.preprocessed.values.map fun v => BitVec.ofNat 64 v.val, by simp [h.1]⟩ })
    else none
  proveWithPreprocessed _ air main publicValues _ := if airVanishes main air.preprocessed publicValues 0 then 1 else 0
  verifyWithPreprocessed _ _ proof _ _ := if proof = (1 : U8) then .ok () else .error ()
  proofCodec := .byte
  commitmentCodec := Codec.u64.array (traceRows * airWidth)

theorem committing_complete : committing.Complete := by
  intro config air main publicValues degreeBits data vk _ _ _ _ _ h
  exact checked_isOk h

theorem committing_setup {config : Sha512StarkConfig} {air : Sha512RoundAir} {degreeBits : ℕ}
    {data : committing.ProverData} {vk : Sha512PreprocessedVk committing.Commitment}
    (h : committing.setupPreprocessed config air degreeBits = some (data, vk)) :
    air.preprocessed.width = airWidth ∧
      (show Vector U64 (traceRows * airWidth) from vk.commitment).toArray =
        air.preprocessed.values.map fun v => BitVec.ofNat 64 v.val := by
  unfold committing at h
  dsimp only at h
  split at h
  · rename_i hm
    cases h
    exact ⟨hm.2, rfl⟩
  · cases h

/-- The cells are below the modulus, so that their words tell them apart. -/
theorem committing_binding : committing.Binding := by
  intro settings degreeBits air air' data data' vk vk' h h' hc
  obtain ⟨hwidth, hcells⟩ := committing_setup h
  obtain ⟨hwidth', hcells'⟩ := committing_setup h'
  have hinj : Function.Injective fun v : BabyBear => BitVec.ofNat 64 v.val := by
    intro v v' hv
    have hlt : ∀ v : BabyBear, v.val < 2 ^ 64 := fun v => (ZMod.val_lt v).trans (by decide)
    have := congrArg BitVec.toNat hv
    dsimp only at this
    rw [BitVec.toNat_ofNat, BitVec.toNat_ofNat, Nat.mod_eq_of_lt (hlt v), Nat.mod_eq_of_lt (hlt v')] at this
    exact ZMod.val_injective _ this
  rw [hc, hcells'] at hcells
  obtain ⟨⟨values, width⟩⟩ := air
  obtain ⟨⟨values', width'⟩⟩ := air'
  rw [RowMajorMatrix.mk.injEq]
  exact ⟨((Array.map_inj_right fun _ _ => @hinj _ _).1 hcells).symm, hwidth.trans hwidth'.symm⟩

end Stark

/-- A seed fits one segment, so that a proof about it can be made and sealed. -/
theorem proveSeed32_committing (seed : Vector U8 32) :
    ∃ bundle, proveSeed32PrivateWithSettings .committing 64 seed .default = .ok bundle := by
  have hblocks : (paddedBlocks seed.toList).length = 1 := by rw [paddedBlocks_length, Vector.length_toList]
  have htotal : totalRows seed.toList = traceRows := by rw [totalRows, hblocks]; rfl
  have hsize : (buildMessageAirBundle initialState seed.toList).preprocessed.values.size = traceRows * airWidth ∧
      (buildMessageAirBundle initialState seed.toList).preprocessed.width = airWidth := by
    rw [← htotal]
    exact ⟨bundle_prep_size initialState seed.toList, bundle_prep_width initialState seed.toList⟩
  have hcommitment : ∀ c, (Stark.committing.commitmentCodec.encode c).length = traceRows * airWidth * 8 := by
    intro (c : Vector U64 (traceRows * airWidth))
    show (c.toList.flatMap Codec.u64.encode).length = _
    rw [Bytes.length_flatMap_const fun w _ => Codec.u64_encode_length w, Vector.length_toList]
  refine exists_proveSeed32 meetsMinimumVerifierPolicy_default (dif_pos hsize) (fun x => ?_) (fun x c => ?_)
  · show 1 ≤ maxInnerProofBytes
    decide
  · show 1 + (Stark.committing.commitmentCodec.encode c).length + 208 ≤ maxMultiProofBytes
    rw [hcommitment]
    decide

/-! ## One instance for one proof -/

/-- Under fixed settings, the bundles that are accepted with one sealed proof agree in the sealed
instance, the digest and the settings; another byte string in place of the sealed instance of an
accepted bundle is rejected. -/
theorem sealed_proof_binds_instance (B : Stark) (hB : B.Binding) (settings : Sha512ProofSettings) :
    (∀ bundle bundle' : Sha512Seed32PrivateProof, bundle.sealedProof = bundle'.sealedProof →
      verifySeed32PrivateProofWithSettings B 64 bundle settings = true →
      verifySeed32PrivateProofWithSettings B 64 bundle' settings = true →
        bundle.sealedInstance = bundle'.sealedInstance ∧ bundle.digest = bundle'.digest ∧
          bundle.settings = bundle'.settings) ∧
    ∀ (bundle : Sha512Seed32PrivateProof) (sealedInstance : List U8),
      verifySeed32PrivateProofWithSettings B 64 bundle settings = true → sealedInstance ≠ bundle.sealedInstance →
        verifySeed32PrivateProofWithSettings B 64 { bundle with sealedInstance := sealedInstance } settings =
          false := by
  constructor
  · intro bundle bundle' hproof h h'
    obtain rfl := verifySeed32_binds hB hproof h h'
    exact ⟨rfl, rfl, rfl⟩
  · intro bundle sealedInstance h hne
    refine Bool.eq_false_iff.2 fun h' => hne ?_
    have heq : bundle = { bundle with sealedInstance := sealedInstance } := verifySeed32_binds hB rfl h h'
    exact congrArg Sha512Seed32PrivateProof.sealedInstance heq.symm

/-- The zero seed: a byte more is rejected. -/
theorem sealed_proof_binds_instance_committing :
    ∃ bundle, verifySeed32PrivateProofWithSettings .committing 64 bundle .default = true ∧
      verifySeed32PrivateProofWithSettings .committing 64
        { bundle with sealedInstance := bundle.sealedInstance ++ [0] } .default = false := by
  obtain ⟨bundle, hb⟩ := proveSeed32_committing (Vector.replicate 32 0)
  have hv := verifySeed32_of_prove Stark.committing_complete Codec.byte_decodes
    (fun _ => Codec.Decodes.array fun w _ => Codec.u64_decodes w) hb
  obtain ⟨-, hother⟩ := sealed_proof_binds_instance .committing Stark.committing_binding .default
  exact ⟨bundle, hv, hother bundle _ hv (by simp)⟩

end Sha512Circuit
