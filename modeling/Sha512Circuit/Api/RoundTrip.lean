/-
Round trips of the API's codecs with a 64-bit `usize`: what the encoders write under their limits is
read back by the decoders, and the envelope decoders read nothing but encodings.
-/
import Sha512Circuit.Api.PrivateSeed
import Sha512Circuit.Api.Instances

namespace Sha512Circuit

open Wire (Codec)

/-! ## Instances -/

/-- A message instance within the size limit is read back from its encoding. -/
theorem deserializeMessageInstance_serialize {inst : Sha512MessageInstance} {bytes : List U8}
    (h : serializeMessageInstance inst = .ok bytes) : deserializeMessageInstance 64 bytes = .ok inst :=
  (deserializeMessageInstance_iff_serialize (by decide)).2 (.inl h)

/-- With a 64-bit `usize`, an instance is decoded from its encoding only. -/
theorem serializeMessageInstance_deserialize {inst : Sha512MessageInstance} {bytes : List U8}
    (h : deserializeMessageInstance 64 bytes = .ok inst) : serializeMessageInstance inst = .ok bytes := by
  rcases (deserializeMessageInstance_iff_serialize (by decide)).1 h with h | ⟨-, h⟩
  · exact h
  · exact absurd h (not_headerWraps_64 bytes)

/-! ## Envelope codecs -/

section Envelopes

variable {B : Stark}

theorem bytesCodec_decodes {xs : List U8} (h : xs.length < 2 ^ 64) : (bytesCodec 64).Decodes xs :=
  .vec h h fun b _ => Codec.byte_decodes b

theorem bytesCodec_canonical (usizeBits : ℕ) : (bytesCodec usizeBits).Canonical := Codec.byte_canonical.vec _

theorem usize64_decodes (w : U64) : (Codec.usize 64).Decodes w := Codec.usize_decodes w.isLt

theorem settingsCodec_decodes (s : Sha512ProofSettings) : (settingsCodec 64).Decodes s :=
  .map <| (usize64_decodes _).pair <| (usize64_decodes _).pair <| (usize64_decodes _).pair <|
    (usize64_decodes _).pair <| (usize64_decodes _).pair <| Codec.u64_decodes _

theorem settingsCodec_canonical (usizeBits : ℕ) : (settingsCodec usizeBits).Canonical :=
  .map ((Codec.usize_canonical _).pair <| (Codec.usize_canonical _).pair <| (Codec.usize_canonical _).pair <|
    (Codec.usize_canonical _).pair <| (Codec.usize_canonical _).pair Codec.u64_canonical) _

theorem vkCodec_decodes {vk : SerializableVk B} (hc : B.commitmentCodec.Decodes vk.commitment) :
    (vkCodec B 64).Decodes vk :=
  .map <| (usize64_decodes _).pair <| (usize64_decodes _).pair hc

theorem vkCodec_canonical (hc : B.commitmentCodec.Canonical) (usizeBits : ℕ) : (vkCodec B usizeBits).Canonical :=
  .map ((Codec.usize_canonical _).pair <| (Codec.usize_canonical _).pair hc) _

theorem singleCodec_decodes {p : SerializableSingleBlockProof B} (hc : B.commitmentCodec.Decodes p.vk.commitment)
    (hp : p.proofBytes.length < 2 ^ 64) : (singleCodec B 64).Decodes p :=
  .map <| (bytesCodec_decodes hp).pair <| (vkCodec_decodes hc).pair <| settingsCodec_decodes _

theorem singleCodec_canonical (hc : B.commitmentCodec.Canonical) (usizeBits : ℕ) :
    (singleCodec B usizeBits).Canonical :=
  .map ((bytesCodec_canonical _).pair <| (vkCodec_canonical hc _).pair <| settingsCodec_canonical _) _

theorem multiCodec_decodes {p : SerializableMultiBlockProof B} (hc : B.commitmentCodec.Decodes p.vk.commitment)
    (hp : p.proofBytes.length < 2 ^ 64) (hd : p.digest.length < 2 ^ 64) : (multiCodec B 64).Decodes p :=
  .map <| (bytesCodec_decodes hp).pair <| (vkCodec_decodes hc).pair <|
    (Codec.Decodes.array fun w _ => Codec.u64_decodes w).pair <| (bytesCodec_decodes hd).pair <| settingsCodec_decodes _

theorem multiCodec_canonical (hc : B.commitmentCodec.Canonical) (usizeBits : ℕ) : (multiCodec B usizeBits).Canonical :=
  .map ((bytesCodec_canonical _).pair <| (vkCodec_canonical hc _).pair <| (Codec.u64_canonical.array 8).pair <|
    (bytesCodec_canonical _).pair <| settingsCodec_canonical _) _

theorem seedCodec_decodes {p : SerializableSeed32PrivateProof} (hd : p.digest.length < 2 ^ 64)
    (hi : p.sealedInstance.length < 2 ^ 64) (hp : p.sealedProof.length < 2 ^ 64) : (seedCodec 64).Decodes p :=
  .map <| (bytesCodec_decodes hd).pair <| (settingsCodec_decodes _).pair <| (bytesCodec_decodes hi).pair <|
    bytesCodec_decodes hp

theorem seedCodec_canonical (usizeBits : ℕ) : (seedCodec usizeBits).Canonical :=
  .map ((bytesCodec_canonical _).pair <| (settingsCodec_canonical _).pair <| (bytesCodec_canonical _).pair <|
    bytesCodec_canonical _) _

theorem bytesCodec_encode_length (usizeBits : ℕ) (xs : List U8) :
    ((bytesCodec usizeBits).encode xs).length = 8 + xs.length := by
  simp [bytesCodec, Codec.vec, Codec.usize, Codec.refine, Codec.byte]

theorem settingsCodec_encode_length (usizeBits : ℕ) (settings : Sha512ProofSettings) :
    ((settingsCodec usizeBits).encode settings).length = 48 := by
  simp [settingsCodec, Codec.map, Codec.pair, Codec.usize, Codec.refine]

/-- The size of a multi-block envelope. -/
theorem multiCodec_encode_length (usizeBits : ℕ) (p : SerializableMultiBlockProof B) :
    ((multiCodec B usizeBits).encode p).length =
      p.proofBytes.length + (B.commitmentCodec.encode p.vk.commitment).length + p.digest.length + 144 := by
  have hvk : ((vkCodec B usizeBits).encode p.vk).length = 16 + (B.commitmentCodec.encode p.vk.commitment).length := by
    simp [vkCodec, Codec.map, Codec.pair, Codec.usize, Codec.refine, vkFields]
    omega
  have hstate : ((Codec.u64.array 8).encode p.finalState).length = 64 := by
    show (p.finalState.toList.flatMap Codec.u64.encode).length = 64
    rw [Bytes.length_flatMap_const fun w _ => Codec.u64_encode_length w]
    simp
  show ((bytesCodec usizeBits).encode p.proofBytes ++ ((vkCodec B usizeBits).encode p.vk ++
    ((Codec.u64.array 8).encode p.finalState ++ ((bytesCodec usizeBits).encode p.digest ++
      (settingsCodec usizeBits).encode p.settings)))).length = _
  simp only [List.length_append, bytesCodec_encode_length, settingsCodec_encode_length, hvk, hstate]
  omega

/-- The byte strings of a bundle are shorter than its envelope. -/
theorem length_lt_seedCodec_encode (usizeBits : ℕ) (p : SerializableSeed32PrivateProof) :
    p.sealedInstance.length < ((seedCodec usizeBits).encode p).length ∧
      p.sealedProof.length < ((seedCodec usizeBits).encode p).length := by
  show _ < ((bytesCodec usizeBits).encode p.digest ++ ((settingsCodec usizeBits).encode p.settings ++
    ((bytesCodec usizeBits).encode p.sealedInstance ++ (bytesCodec usizeBits).encode p.sealedProof))).length ∧
      _ < ((bytesCodec usizeBits).encode p.digest ++ ((settingsCodec usizeBits).encode p.settings ++
    ((bytesCodec usizeBits).encode p.sealedInstance ++ (bytesCodec usizeBits).encode p.sealedProof))).length
  simp only [List.length_append, bytesCodec_encode_length]
  omega

/-! ## The three envelopes -/

/-- The envelope of a single-block proof around the bytes of its inner proof. -/
def singleEnvelope (proofBytes : List U8) (p : Sha512SingleBlockProof B) : SerializableSingleBlockProof B where
  proofBytes := proofBytes
  vk := toSerializableVk p.preprocessedVk
  settings := p.settings

/-- The envelope of a multi-block proof around the bytes of its inner proof. -/
def multiEnvelope (proofBytes : List U8) (p : Sha512MultiBlockProof B) : SerializableMultiBlockProof B where
  proofBytes := proofBytes
  vk := toSerializableVk p.preprocessedVk
  finalState := p.finalState
  digest := p.digest.toList
  settings := p.settings

/-- The envelope of a sealed bundle. -/
def seedEnvelope (bundle : Sha512Seed32PrivateProof) : SerializableSeed32PrivateProof where
  digest := bundle.digest.toList
  settings := bundle.settings
  sealedInstance := bundle.sealedInstance
  sealedProof := bundle.sealedProof

theorem toDigest_ok {bytes : List U8} {e : ApiError} {d : Digest} : toDigest bytes e = .ok d ↔ d.toList = bytes := by
  constructor
  · intro h
    unfold toDigest at h
    split at h
    · cases h; rfl
    · cases h
  · rintro rfl
    rw [toDigest, dif_pos (by simp)]
    rfl

/-- An `if .. { return Err(..) }` that is passed. -/
theorem guard_ok {α : Type} {c : Prop} [Decidable c] {e : ApiError} {rest : Unit → Except ApiError α} {a : α} :
    (if c then throw e >>= rest else rest ()) = .ok a ↔ ¬ c ∧ rest () = .ok a := by
  by_cases h : c
  · rw [if_pos h]
    exact ⟨fun h => (by cases h), fun h' => absurd h h'.1⟩
  · rw [if_neg h]
    exact ⟨fun hx => ⟨h, hx⟩, fun hx => hx.2⟩

theorem serializeSingleBlockProof_iff {usizeBits : ℕ} {p : Sha512SingleBlockProof B} {bytes : List U8} :
    serializeSingleBlockProof B usizeBits p = .ok bytes ↔
      (B.proofCodec.encode p.proof).length ≤ maxInnerProofBytes ∧ bytes.length ≤ maxSingleProofBytes ∧
        (singleCodec B usizeBits).encode (singleEnvelope (B.proofCodec.encode p.proof) p) = bytes := by
  unfold serializeSingleBlockProof
  dsimp only
  rw [guard_ok, guard_ok, not_lt, not_lt]
  constructor
  · rintro ⟨hinner, houter, h⟩
    cases h
    exact ⟨hinner, houter, rfl⟩
  · rintro ⟨hinner, houter, rfl⟩
    exact ⟨hinner, houter, rfl⟩

/-- The successful runs of `serialize_multi_block_proof`. -/
theorem serializeMultiBlockProof_iff {usizeBits : ℕ} {p : Sha512MultiBlockProof B} {bytes : List U8} :
    serializeMultiBlockProof B usizeBits p = .ok bytes ↔
      (B.proofCodec.encode p.proof).length ≤ maxInnerProofBytes ∧ bytes.length ≤ maxMultiProofBytes ∧
        (multiCodec B usizeBits).encode (multiEnvelope (B.proofCodec.encode p.proof) p) = bytes := by
  unfold serializeMultiBlockProof
  dsimp only
  rw [guard_ok, guard_ok, not_lt, not_lt]
  constructor
  · rintro ⟨hinner, houter, h⟩
    cases h
    exact ⟨hinner, houter, rfl⟩
  · rintro ⟨hinner, houter, rfl⟩
    exact ⟨hinner, houter, rfl⟩

/-- The successful runs of `deserialize_single_block_proof`. -/
theorem deserializeSingleBlockProof_iff {usizeBits : ℕ} {p : Sha512SingleBlockProof B} {bytes : List U8} :
    deserializeSingleBlockProof B usizeBits bytes = .ok p ↔ ∃ proofBytes,
      bytes.length ≤ maxSingleProofBytes ∧
      (singleCodec B usizeBits).decodeSlice maxSingleProofBytes bytes = .ok (singleEnvelope proofBytes p) ∧
      proofBytes.length ≤ maxInnerProofBytes ∧
      B.proofCodec.decodeSlice maxInnerProofBytes proofBytes = .ok p.proof := by
  unfold deserializeSingleBlockProof
  dsimp only
  simp only [guard_ok, Wire.bind_ok_iff, mapErr_ok, not_lt]
  constructor
  · rintro ⟨houter, s, hslice, hinner, proof, hproof, h⟩
    cases h
    exact ⟨s.proofBytes, houter, hslice, hinner, hproof⟩
  · rintro ⟨proofBytes, houter, hslice, hinner, hproof⟩
    exact ⟨houter, _, hslice, hinner, _, hproof, rfl⟩

/-- The successful runs of `deserialize_multi_block_proof`. -/
theorem deserializeMultiBlockProof_iff {usizeBits : ℕ} {p : Sha512MultiBlockProof B} {bytes : List U8} :
    deserializeMultiBlockProof B usizeBits bytes = .ok p ↔ ∃ proofBytes,
      bytes.length ≤ maxMultiProofBytes ∧
      (multiCodec B usizeBits).decodeSlice maxMultiProofBytes bytes = .ok (multiEnvelope proofBytes p) ∧
      proofBytes.length ≤ maxInnerProofBytes ∧
      B.proofCodec.decodeSlice maxInnerProofBytes proofBytes = .ok p.proof := by
  unfold deserializeMultiBlockProof
  dsimp only
  simp only [guard_ok, Wire.bind_ok_iff, mapErr_ok, toDigest_ok, not_lt]
  constructor
  · rintro ⟨houter, s, hslice, d, hdigest, hinner, proof, hproof, h⟩
    cases h
    refine ⟨s.proofBytes, houter, hslice.trans ?_, hinner, hproof⟩
    rw [multiEnvelope, hdigest]
    rfl
  · rintro ⟨proofBytes, houter, hslice, hinner, hproof⟩
    exact ⟨houter, _, hslice, _, rfl, hinner, _, hproof, rfl⟩

theorem serializeSeed32PrivateProof_iff {usizeBits : ℕ} {bundle : Sha512Seed32PrivateProof} {bytes : List U8} :
    serializeSeed32PrivateProof usizeBits bundle = .ok bytes ↔
      bytes.length ≤ maxSeedPrivateBundleBytes ∧ (seedCodec usizeBits).encode (seedEnvelope bundle) = bytes := by
  unfold serializeSeed32PrivateProof
  dsimp only
  rw [guard_ok, not_lt]
  constructor
  · rintro ⟨houter, h⟩
    cases h
    exact ⟨houter, rfl⟩
  · rintro ⟨houter, rfl⟩
    exact ⟨houter, rfl⟩

/-- The successful runs of `deserialize_seed32_private_proof`. -/
theorem deserializeSeed32PrivateProof_iff {usizeBits : ℕ} {bundle : Sha512Seed32PrivateProof} {bytes : List U8} :
    deserializeSeed32PrivateProof usizeBits bytes = .ok bundle ↔ bytes.length ≤ maxSeedPrivateBundleBytes ∧
      (seedCodec usizeBits).decodeSlice maxSeedPrivateBundleBytes bytes = .ok (seedEnvelope bundle) := by
  unfold deserializeSeed32PrivateProof
  dsimp only
  simp only [guard_ok, Wire.bind_ok_iff, mapErr_ok, toDigest_ok, not_lt]
  constructor
  · rintro ⟨houter, s, hslice, d, hdigest, h⟩
    cases h
    refine ⟨houter, hslice.trans ?_⟩
    rw [seedEnvelope, hdigest]
  · rintro ⟨houter, hslice⟩
    exact ⟨houter, _, hslice, _, rfl, rfl⟩

/-! ## Both directions -/

theorem deserializeSingleBlockProof_serialize {p : Sha512SingleBlockProof B} {bytes : List U8}
    (hp : B.proofCodec.Decodes p.proof) (hc : B.commitmentCodec.Decodes p.preprocessedVk.commitment)
    (h : serializeSingleBlockProof B 64 p = .ok bytes) : deserializeSingleBlockProof B 64 bytes = .ok p := by
  have hmax : maxInnerProofBytes < 2 ^ 64 := by decide
  obtain ⟨hinner, houter, rfl⟩ := serializeSingleBlockProof_iff.1 h
  exact deserializeSingleBlockProof_iff.2 ⟨_, houter,
    Codec.decodeSlice_encode (singleCodec_decodes hc (hinner.trans_lt hmax)) houter, hinner,
    Codec.decodeSlice_encode hp hinner⟩

theorem serializeSingleBlockProof_deserialize {usizeBits : ℕ} {p : Sha512SingleBlockProof B} {bytes : List U8}
    (hp : B.proofCodec.Canonical) (hc : B.commitmentCodec.Canonical)
    (h : deserializeSingleBlockProof B usizeBits bytes = .ok p) :
    serializeSingleBlockProof B usizeBits p = .ok bytes := by
  obtain ⟨proofBytes, houter, hslice, hinner, hproof⟩ := deserializeSingleBlockProof_iff.1 h
  obtain ⟨rfl, -⟩ := Codec.encode_of_decodeSlice hp hproof
  exact serializeSingleBlockProof_iff.2 ⟨hinner, houter,
    (Codec.encode_of_decodeSlice (singleCodec_canonical hc _) hslice).1⟩

/-- Decoding undoes encoding for a multi-block proof, if it does for its inner proof and for its
commitment. -/
theorem deserializeMultiBlockProof_serialize {p : Sha512MultiBlockProof B} {bytes : List U8}
    (hp : B.proofCodec.Decodes p.proof) (hc : B.commitmentCodec.Decodes p.preprocessedVk.commitment)
    (h : serializeMultiBlockProof B 64 p = .ok bytes) : deserializeMultiBlockProof B 64 bytes = .ok p := by
  have hmax : maxInnerProofBytes < 2 ^ 64 := by decide
  obtain ⟨hinner, houter, rfl⟩ := serializeMultiBlockProof_iff.1 h
  have hdigest : p.digest.toList.length < 2 ^ 64 := by simp
  exact deserializeMultiBlockProof_iff.2 ⟨_, houter,
    Codec.decodeSlice_encode (multiCodec_decodes hc (hinner.trans_lt hmax) hdigest) houter, hinner,
    Codec.decodeSlice_encode hp hinner⟩

/-- Encoding undoes decoding: the limits of the decoder are those of the encoder. -/
theorem serializeMultiBlockProof_deserialize {usizeBits : ℕ} {p : Sha512MultiBlockProof B} {bytes : List U8}
    (hp : B.proofCodec.Canonical) (hc : B.commitmentCodec.Canonical)
    (h : deserializeMultiBlockProof B usizeBits bytes = .ok p) : serializeMultiBlockProof B usizeBits p = .ok bytes := by
  obtain ⟨proofBytes, houter, hslice, hinner, hproof⟩ := deserializeMultiBlockProof_iff.1 h
  obtain ⟨rfl, -⟩ := Codec.encode_of_decodeSlice hp hproof
  exact serializeMultiBlockProof_iff.2 ⟨hinner, houter,
    (Codec.encode_of_decodeSlice (multiCodec_canonical hc _) hslice).1⟩

theorem deserializeSeed32PrivateProof_serialize {bundle : Sha512Seed32PrivateProof} {bytes : List U8}
    (h : serializeSeed32PrivateProof 64 bundle = .ok bytes) : deserializeSeed32PrivateProof 64 bytes = .ok bundle := by
  have hmax : maxSeedPrivateBundleBytes < 2 ^ 64 := by decide
  obtain ⟨houter, rfl⟩ := serializeSeed32PrivateProof_iff.1 h
  obtain ⟨hinst, hproof⟩ := length_lt_seedCodec_encode 64 (seedEnvelope bundle)
  have hdigest : bundle.digest.toList.length < 2 ^ 64 := by simp
  have hdecodes : (seedCodec 64).Decodes (seedEnvelope bundle) :=
    seedCodec_decodes hdigest (hinst.trans (houter.trans_lt hmax)) (hproof.trans (houter.trans_lt hmax))
  exact deserializeSeed32PrivateProof_iff.2 ⟨houter, Codec.decodeSlice_encode hdecodes houter⟩

theorem serializeSeed32PrivateProof_deserialize {usizeBits : ℕ} {bundle : Sha512Seed32PrivateProof} {bytes : List U8}
    (h : deserializeSeed32PrivateProof usizeBits bytes = .ok bundle) :
    serializeSeed32PrivateProof usizeBits bundle = .ok bytes := by
  obtain ⟨houter, hslice⟩ := deserializeSeed32PrivateProof_iff.1 h
  exact serializeSeed32PrivateProof_iff.2 ⟨houter, (Codec.encode_of_decodeSlice (seedCodec_canonical _) hslice).1⟩

end Envelopes

/-- The three envelopes round-trip in both directions, if the codecs of the inner proof and of the
commitment do: a byte string decodes to a value exactly if it is what the value encodes to. -/
theorem proof_envelopes_roundtrip (B : Stark)
    (hproof : (∀ x, B.proofCodec.Decodes x) ∧ B.proofCodec.Canonical)
    (hcommitment : (∀ c, B.commitmentCodec.Decodes c) ∧ B.commitmentCodec.Canonical) :
    (∀ (p : Sha512SingleBlockProof B) (bytes : List U8),
      serializeSingleBlockProof B 64 p = .ok bytes ↔ deserializeSingleBlockProof B 64 bytes = .ok p) ∧
    (∀ (p : Sha512MultiBlockProof B) (bytes : List U8),
      serializeMultiBlockProof B 64 p = .ok bytes ↔ deserializeMultiBlockProof B 64 bytes = .ok p) ∧
    ∀ (bundle : Sha512Seed32PrivateProof) (bytes : List U8),
      serializeSeed32PrivateProof 64 bundle = .ok bytes ↔ deserializeSeed32PrivateProof 64 bytes = .ok bundle := by
  refine ⟨fun p bytes => ⟨fun h => ?_, fun h => ?_⟩, fun p bytes => ⟨fun h => ?_, fun h => ?_⟩,
    fun bundle bytes => ⟨fun h => ?_, fun h => ?_⟩⟩
  · exact deserializeSingleBlockProof_serialize (hproof.1 _) (hcommitment.1 _) h
  · exact serializeSingleBlockProof_deserialize hproof.2 hcommitment.2 h
  · exact deserializeMultiBlockProof_serialize (hproof.1 _) (hcommitment.1 _) h
  · exact serializeMultiBlockProof_deserialize hproof.2 hcommitment.2 h
  · exact deserializeSeed32PrivateProof_serialize h
  · exact serializeSeed32PrivateProof_deserialize h

/-- A proof of the backend with one-byte proofs and commitments. -/
theorem proof_envelopes_roundtrip_checking : ∃ bytes,
    serializeSingleBlockProof .checking 64 ⟨(1 : U8), ⟨1, 7, (0 : U8)⟩, .default⟩ = .ok bytes ∧
      deserializeSingleBlockProof .checking 64 bytes = .ok ⟨(1 : U8), ⟨1, 7, (0 : U8)⟩, .default⟩ := by
  obtain ⟨hsingle, -⟩ := proof_envelopes_roundtrip .checking ⟨Codec.byte_decodes, Codec.byte_canonical⟩
    ⟨Codec.byte_decodes, Codec.byte_canonical⟩
  have h : serializeSingleBlockProof .checking 64 ⟨(1 : U8), ⟨1, 7, (0 : U8)⟩, .default⟩ = .ok _ :=
    serializeSingleBlockProof_iff.2 ⟨by decide, by decide, rfl⟩
  exact ⟨_, h, (hsingle _ _).1 h⟩

end Sha512Circuit
