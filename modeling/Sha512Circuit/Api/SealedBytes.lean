/-
Sealed bundles on the wire: the byte strings that decode to an accepted bundle are the sealings of
accepted message proofs about a seed, each of one proof only, and what the prover writes is one of them.
-/
import Sha512Circuit.Api.Formats

namespace Sha512Circuit

open Wire (Codec)

section Seal

variable {B : Stark}

/-- The bytes of the bundle around a message proof about a seed. -/
def sealSeed32 (B : Stark) (seed : Vector U8 32) (p : Sha512MultiBlockProof B) (settings : Sha512ProofSettings) :
    Except ApiError (List U8) := do
  let sealedInstance ← serializeMessageInstance (seedInstance seed)
  let sealedProof ← serializeMultiBlockProof B 64 p
  serializeSeed32PrivateProof 64 { digest := p.digest, settings, sealedInstance, sealedProof }

theorem sealSeed32_iff {seed : Vector U8 32} {p : Sha512MultiBlockProof B} {settings : Sha512ProofSettings}
    {bytes : List U8} : sealSeed32 B seed p settings = .ok bytes ↔ ∃ si sp,
      serializeMessageInstance (seedInstance seed) = .ok si ∧ serializeMultiBlockProof B 64 p = .ok sp ∧
        serializeSeed32PrivateProof 64 ⟨p.digest, settings, si, sp⟩ = .ok bytes := by
  unfold sealSeed32
  simp only [Wire.bind_ok_iff]
  constructor
  · rintro ⟨si, hsi, sp, hsp, h⟩
    exact ⟨si, sp, hsi, hsp, h⟩
  · rintro ⟨si, sp, hsi, hsp, h⟩
    exact ⟨si, hsi, sp, hsp, h⟩

/-! ## Sizes -/

theorem serializeMessageInstance_length {inst : Sha512MessageInstance} {bytes : List U8}
    (h : serializeMessageInstance inst = .ok bytes) : bytes.length = 72 + inst.message.length := by
  obtain ⟨hinst, -, hlen⟩ := serializeMessageInstance_iff.1 h
  rw [hinst, List.length_drop]
  omega

theorem serializeMultiBlockProof_length {p : Sha512MultiBlockProof B} {bytes : List U8}
    (h : serializeMultiBlockProof B 64 p = .ok bytes) : bytes.length =
      (B.proofCodec.encode p.proof).length + (B.commitmentCodec.encode p.preprocessedVk.commitment).length + 208 := by
  obtain ⟨-, -, rfl⟩ := serializeMultiBlockProof_iff.1 h
  rw [multiCodec_encode_length]
  show _ + p.digest.toList.length + 144 = _
  rw [Vector.length_toList]
  rfl

theorem seedCodec_encode_length (bundle : Sha512Seed32PrivateProof) : ((seedCodec 64).encode (seedEnvelope bundle)).length =
    136 + bundle.sealedInstance.length + bundle.sealedProof.length := by
  show ((bytesCodec 64).encode bundle.digest.toList ++ ((settingsCodec 64).encode bundle.settings ++
    ((bytesCodec 64).encode bundle.sealedInstance ++ (bytesCodec 64).encode bundle.sealedProof))).length = _
  simp only [List.length_append, bytesCodec_encode_length, settingsCodec_encode_length, Vector.length_toList]
  omega

/-- A proof is sealed if its inner proof and the whole bundle stay under their limits. -/
theorem exists_sealSeed32_iff {seed : Vector U8 32} {p : Sha512MultiBlockProof B} {settings : Sha512ProofSettings} :
    (∃ bytes, sealSeed32 B seed p settings = .ok bytes) ↔
      (B.proofCodec.encode p.proof).length ≤ maxInnerProofBytes ∧
      (B.proofCodec.encode p.proof).length + (B.commitmentCodec.encode p.preprocessedVk.commitment).length + 448 ≤
        maxSeedPrivateBundleBytes := by
  have hlimits : maxSeedPrivateBundleBytes = maxMultiProofBytes := rfl
  have hseed : (seedInstance seed).message.length = 32 := seed.length_toList
  constructor
  · rintro ⟨bytes, h⟩
    obtain ⟨si, sp, hsi, hsp, h⟩ := sealSeed32_iff.1 h
    obtain ⟨hinner, -, -⟩ := serializeMultiBlockProof_iff.1 hsp
    obtain ⟨houter, rfl⟩ := serializeSeed32PrivateProof_iff.1 h
    have hlen := seedCodec_encode_length ⟨p.digest, settings, si, sp⟩
    dsimp only at hlen
    rw [serializeMessageInstance_length hsi, serializeMultiBlockProof_length hsp, hseed] at hlen
    exact ⟨hinner, by omega⟩
  · rintro ⟨hinner, hsize⟩
    obtain ⟨si, hsi⟩ := serializeMessageInstance_of_le (seed_length_le seed)
    obtain ⟨sp, hsp⟩ := exists_serializeMultiBlockProof hinner (by omega)
    refine ⟨_, sealSeed32_iff.2 ⟨si, sp, hsi, hsp, serializeSeed32PrivateProof_iff.2 ⟨?_, rfl⟩⟩⟩
    rw [seedCodec_encode_length]
    dsimp only
    rw [serializeMessageInstance_length hsi, serializeMultiBlockProof_length hsp, hseed]
    omega

/-! ## Unsealing -/

variable (hproof : (∀ x, B.proofCodec.Decodes x) ∧ B.proofCodec.Canonical)
  (hcommitment : (∀ c, B.commitmentCodec.Decodes c) ∧ B.commitmentCodec.Canonical)
include hproof hcommitment

/-- The accepted byte strings are the sealings of accepted proofs. -/
theorem accepted_bytes_iff {settings : Sha512ProofSettings} {bytes : List U8} :
    (∃ bundle, deserializeSeed32PrivateProof 64 bytes = .ok bundle ∧
      verifySeed32PrivateProofWithSettings B 64 bundle settings = true) ↔
    ∃ seed p, sealSeed32 B seed p settings = .ok bytes ∧
      verifyMessageProofWithSettings B (seedInstance seed) p settings = true := by
  constructor
  · rintro ⟨bundle, hbundle, h⟩
    obtain ⟨-, hsettings, seed, p, hinst, hsealed, hdigest, hp⟩ := verifySeed32PrivateProofWithSettings_iff.1 h
    have hbytes := serializeSeed32PrivateProof_deserialize hbundle
    obtain ⟨digest, recorded, si, sp⟩ := bundle
    dsimp only at hsettings hdigest hinst hsealed
    subst hsettings hdigest
    exact ⟨seed, p, sealSeed32_iff.2 ⟨si, sp, serializeMessageInstance_deserialize hinst,
      serializeMultiBlockProof_deserialize hproof.2 hcommitment.2 hsealed, hbytes⟩, hp⟩
  · rintro ⟨seed, p, hseal, hp⟩
    obtain ⟨si, sp, hsi, hsp, hbytes⟩ := sealSeed32_iff.1 hseal
    obtain ⟨hpolicy, -⟩ := verifyMessageProofWithSettings_iff.1 hp
    exact ⟨_, deserializeSeed32PrivateProof_serialize hbytes, verifySeed32PrivateProofWithSettings_iff.2
      ⟨hpolicy, rfl, seed, p, deserializeMessageInstance_serialize hsi,
        deserializeMultiBlockProof_serialize (hproof.1 _) (hcommitment.1 _) hsp, rfl, hp⟩⟩

/-- Bytes seal one proof about one seed under one settings value. -/
theorem sealSeed32_inj {seed seed' : Vector U8 32} {p p' : Sha512MultiBlockProof B}
    {settings settings' : Sha512ProofSettings} {bytes : List U8} (h : sealSeed32 B seed p settings = .ok bytes)
    (h' : sealSeed32 B seed' p' settings' = .ok bytes) : seed = seed' ∧ p = p' ∧ settings = settings' := by
  obtain ⟨si, sp, hsi, hsp, hbytes⟩ := sealSeed32_iff.1 h
  obtain ⟨si', sp', hsi', hsp', hbytes'⟩ := sealSeed32_iff.1 h'
  have hbundle := deserializeSeed32PrivateProof_serialize hbytes
  rw [deserializeSeed32PrivateProof_serialize hbytes', Except.ok.injEq, Sha512Seed32PrivateProof.mk.injEq] at hbundle
  obtain ⟨-, rfl, rfl, rfl⟩ := hbundle
  have hinst := deserializeMessageInstance_serialize hsi
  have hsealed := deserializeMultiBlockProof_serialize (hproof.1 _) (hcommitment.1 _) hsp
  rw [deserializeMessageInstance_serialize hsi'] at hinst
  rw [deserializeMultiBlockProof_serialize (hproof.1 _) (hcommitment.1 _) hsp'] at hsealed
  have hmessage := congrArg Sha512MessageInstance.message (Except.ok.inj hinst)
  exact ⟨(Vector.toList_inj.1 hmessage).symm, (Except.ok.inj hsealed).symm, rfl⟩

end Seal

/-- Accepted byte strings and accepted proofs, one for one, with a 64-bit `usize` and codecs that
round-trip: a byte string decodes to a bundle that is accepted exactly if it seals a proof accepted for a
seed, and then it seals no other one; a proof can be sealed exactly if its encoding and that of the
commitment stay under the limits; and what the prover writes for a seed seals the message proof it made. -/
theorem sealed_bytes_exact (B : Stark) (hproof : (∀ x, B.proofCodec.Decodes x) ∧ B.proofCodec.Canonical)
    (hcommitment : (∀ c, B.commitmentCodec.Decodes c) ∧ B.commitmentCodec.Canonical) (settings : Sha512ProofSettings) :
    (∀ bytes : List U8,
      (∃ bundle, deserializeSeed32PrivateProof 64 bytes = .ok bundle ∧
        verifySeed32PrivateProofWithSettings B 64 bundle settings = true) ↔
      ∃! x : Vector U8 32 × Sha512MultiBlockProof B, sealSeed32 B x.1 x.2 settings = .ok bytes ∧
        verifyMessageProofWithSettings B (seedInstance x.1) x.2 settings = true) ∧
    (∀ (seed : Vector U8 32) (p : Sha512MultiBlockProof B), (∃ bytes, sealSeed32 B seed p settings = .ok bytes) ↔
      (B.proofCodec.encode p.proof).length ≤ maxInnerProofBytes ∧
      (B.proofCodec.encode p.proof).length + (B.commitmentCodec.encode p.preprocessedVk.commitment).length + 448 ≤
        maxSeedPrivateBundleBytes) ∧
    ∀ (seed : Vector U8 32) (bundle : Sha512Seed32PrivateProof) (bytes : List U8),
      proveSeed32PrivateWithSettings B 64 seed settings = .ok bundle →
      serializeSeed32PrivateProof 64 bundle = .ok bytes →
        ∃ p, proveMessageWithSettings B (seedInstance seed) settings = .ok p ∧ sealSeed32 B seed p settings = .ok bytes := by
  refine ⟨fun bytes => ?_, fun seed p => exists_sealSeed32_iff, fun seed bundle bytes h hbytes => ?_⟩
  · rw [accepted_bytes_iff hproof hcommitment]
    constructor
    · rintro ⟨seed, p, hseal, hp⟩
      refine ⟨(seed, p), ⟨hseal, hp⟩, fun x hx => ?_⟩
      obtain ⟨hseed, hproofs, -⟩ := sealSeed32_inj hproof hcommitment hx.1 hseal
      exact Prod.ext hseed hproofs
    · rintro ⟨x, ⟨hseal, hp⟩, -⟩
      exact ⟨x.1, x.2, hseal, hp⟩
  · obtain ⟨p, hp, hdigest, hsettings, hsi, hsp⟩ := proveSeed32PrivateWithSettings_iff.1 h
    obtain ⟨digest, recorded, si, sp⟩ := bundle
    dsimp only at hdigest hsettings hsi hsp
    subst hdigest hsettings
    exact ⟨p, hp, sealSeed32_iff.2 ⟨si, sp, hsi, hsp, hbytes⟩⟩

/-- An honest proof about the zero seed, sealed. -/
theorem sealed_bytes_exact_checking :
    ∃ bytes, ∃! x : Vector U8 32 × Sha512MultiBlockProof .checking, sealSeed32 .checking x.1 x.2 .default = .ok bytes ∧
      verifyMessageProofWithSettings .checking (seedInstance x.1) x.2 .default = true := by
  have hbyte : (∀ x, Codec.byte.Decodes x) ∧ Codec.byte.Canonical := ⟨Codec.byte_decodes, Codec.byte_canonical⟩
  obtain ⟨hexact, hseal, -⟩ := sealed_bytes_exact .checking hbyte hbyte .default
  obtain ⟨p, hp⟩ := proveMessage_checking (seedInstance (Vector.replicate 32 0)) (seed_length_le _)
  obtain ⟨bytes, hbytes⟩ := (hseal (Vector.replicate 32 0) p).2 ⟨by
    show 1 ≤ maxInnerProofBytes
    decide, by
    show 1 + 1 + 448 ≤ maxSeedPrivateBundleBytes
    decide⟩
  exact ⟨bytes, (hexact bytes).1 ((accepted_bytes_iff hbyte hbyte).2
    ⟨_, p, hbytes, verifyMessage_of_prove Stark.checking_complete hp⟩)⟩

end Sha512Circuit
