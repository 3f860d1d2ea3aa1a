/-
`proof_api/serialization.rs`: the instance codecs and the size-limited envelopes of proofs, for a
`usize` of `usizeBits` bits.
-/
import Sha512Circuit.Api.Model

namespace Sha512Circuit

open Wire (Codec)

/-! ## Instances -/

/-- The eight `extend_from_slice(&word.to_be_bytes())` of a state. -/
def stateBytes (state : State) : List U8 := state.toList.flatMap u64ToBeBytes

/-- The loop over `bytes[..64].chunks_exact(8)` that reads a state. -/
def readState (bytes : List U8) : State :=
  (Bytes.chunksExact 8 (bytes.take 64)).zipIdx.foldl
    (fun state c => state.set! c.2 (u64FromBeBytes c.1)) (Vector.replicate 8 0)

/-- `serialize_single_block_instance`. -/
def serializeSingleBlockInstance (inst : Sha512SingleBlockInstance) : List U8 :=
  stateBytes inst.initialState ++ inst.block.toList

/-- `deserialize_single_block_instance`. -/
def deserializeSingleBlockInstance (bytes : List U8) : Except ApiError Sha512SingleBlockInstance :=
  if bytes.length ≠ 64 + 128 then .error (.message "invalid single-block instance length")
  else .ok { initialState := readState bytes, block := toBlock (bytes.drop 64) }

/-- `serialize_message_instance`. -/
def serializeMessageInstance (inst : Sha512MessageInstance) : Except ApiError (List U8) := do
  validateMessageSize inst.message.length
  return stateBytes inst.initialState ++ u64ToBeBytes (BitVec.ofNat 64 inst.message.length) ++ inst.message

/-- `deserialize_message_instance`. The cast `as usize` keeps the low `usizeBits` bits. -/
def deserializeMessageInstance (usizeBits : ℕ) (bytes : List U8) : Except ApiError Sha512MessageInstance :=
  if bytes.length < 72 then .error (.message "message instance too short")
  else do
    let initialState := readState bytes
    let len := (u64FromBeBytes ((bytes.drop 64).take 8)).toNat % 2 ^ usizeBits
    validateMessageSize len
    -- `72 + len` does not overflow: `len` is within the size limit here
    if bytes.length ≠ 72 + len then throw (.message "message instance length mismatch")
    return { initialState, message := bytes.drop 72 }

/-! ## Envelopes -/

section Envelopes

variable (B : Stark)

/-- `SerializableVk`. -/
structure SerializableVk where
  width : U64
  degreeBits : U64
  commitment : B.Commitment

/-- `SerializableSingleBlockProof`. -/
structure SerializableSingleBlockProof where
  proofBytes : List U8
  vk : SerializableVk B
  settings : Sha512ProofSettings

/-- `SerializableMultiBlockProof`. -/
structure SerializableMultiBlockProof where
  proofBytes : List U8
  vk : SerializableVk B
  finalState : State
  digest : List U8
  settings : Sha512ProofSettings

variable {B}

/-- `to_serializable_vk`. -/
def toSerializableVk (vk : Sha512PreprocessedVk B.Commitment) : SerializableVk B where
  width := vk.width
  degreeBits := vk.degreeBits
  commitment := vk.commitment

/-- `from_serializable_vk`. -/
def fromSerializableVk (vk : SerializableVk B) : Sha512PreprocessedVk B.Commitment where
  width := vk.width
  degreeBits := vk.degreeBits
  commitment := vk.commitment

/-! A derived codec of a structure is that of its fields in order. -/

/-- The fields of the settings. -/
def settingsFields : U64 × U64 × U64 × U64 × U64 × U64 ≃ Sha512ProofSettings where
  toFun f := ⟨f.1, f.2.1, f.2.2.1, f.2.2.2.1, f.2.2.2.2.1, f.2.2.2.2.2⟩
  invFun s := (s.logBlowup, s.logFinalPolyLen, s.numQueries, s.commitProofOfWorkBits, s.queryProofOfWorkBits, s.rngSeed)
  left_inv _ := rfl
  right_inv _ := rfl

/-- The fields of a verifier key. -/
def vkFields : U64 × U64 × B.Commitment ≃ SerializableVk B where
  toFun f := ⟨f.1, f.2.1, f.2.2⟩
  invFun v := (v.width, v.degreeBits, v.commitment)
  left_inv _ := rfl
  right_inv _ := rfl

/-- The fields of a single-block envelope. -/
def singleFields : List U8 × SerializableVk B × Sha512ProofSettings ≃ SerializableSingleBlockProof B where
  toFun f := ⟨f.1, f.2.1, f.2.2⟩
  invFun p := (p.proofBytes, p.vk, p.settings)
  left_inv _ := rfl
  right_inv _ := rfl

/-- The fields of a multi-block envelope. -/
def multiFields :
    List U8 × SerializableVk B × State × List U8 × Sha512ProofSettings ≃ SerializableMultiBlockProof B where
  toFun f := ⟨f.1, f.2.1, f.2.2.1, f.2.2.2.1, f.2.2.2.2⟩
  invFun p := (p.proofBytes, p.vk, p.finalState, p.digest, p.settings)
  left_inv _ := rfl
  right_inv _ := rfl

variable (B) (usizeBits : ℕ)

/-- `Vec<u8>`. -/
def bytesCodec : Codec (List U8) := .vec usizeBits .byte

/-- The codec of `Sha512ProofSettings`. -/
def settingsCodec : Codec Sha512ProofSettings :=
  ((Codec.usize usizeBits).pair <| (Codec.usize usizeBits).pair <| (Codec.usize usizeBits).pair <|
    (Codec.usize usizeBits).pair <| (Codec.usize usizeBits).pair .u64).map settingsFields

/-- The codec of `SerializableVk`. -/
def vkCodec : Codec (SerializableVk B) :=
  ((Codec.usize usizeBits).pair <| (Codec.usize usizeBits).pair B.commitmentCodec).map vkFields

/-- The codec of `SerializableSingleBlockProof`. -/
def singleCodec : Codec (SerializableSingleBlockProof B) :=
  ((bytesCodec usizeBits).pair <| (vkCodec B usizeBits).pair <| settingsCodec usizeBits).map singleFields

/-- The codec of `SerializableMultiBlockProof`. -/
def multiCodec : Codec (SerializableMultiBlockProof B) :=
  ((bytesCodec usizeBits).pair <| (vkCodec B usizeBits).pair <| (Codec.u64.array 8).pair <|
    (bytesCodec usizeBits).pair <| settingsCodec usizeBits).map multiFields

/-- `serialize_single_block_proof`. -/
def serializeSingleBlockProof (proof : Sha512SingleBlockProof B) : Except ApiError (List U8) := do
  let proofBytes := B.proofCodec.encode proof.proof
  if proofBytes.length > maxInnerProofBytes then
    throw (.message "inner single-block proof exceeds configured size limit")
  let bytes := (singleCodec B usizeBits).encode
    { proofBytes, vk := toSerializableVk proof.preprocessedVk, settings := proof.settings }
  if bytes.length > maxSingleProofBytes then
    throw (.message "serialized single-block proof exceeds configured size limit")
  return bytes

/-- `deserialize_single_block_proof`. -/
def deserializeSingleBlockProof (bytes : List U8) : Except ApiError (Sha512SingleBlockProof B) := do
  if bytes.length > maxSingleProofBytes then
    throw (.message "serialized single-block proof exceeds configured size limit")
  let serializable ← mapErr ((singleCodec B usizeBits).decodeSlice maxSingleProofBytes bytes)
  if serializable.proofBytes.length > maxInnerProofBytes then
    throw (.message "inner single-block proof exceeds configured size limit")
  let proof ← mapErr (B.proofCodec.decodeSlice maxInnerProofBytes serializable.proofBytes)
  return { proof, preprocessedVk := fromSerializableVk serializable.vk, settings := serializable.settings }

/-- `serialize_multi_block_proof`. -/
def serializeMultiBlockProof (proof : Sha512MultiBlockProof B) : Except ApiError (List U8) := do
  let proofBytes := B.proofCodec.encode proof.proof
  if proofBytes.length > maxInnerProofBytes then
    throw (.message "inner multi-block proof exceeds configured size limit")
  let bytes := (multiCodec B usizeBits).encode
    { proofBytes, vk := toSerializableVk proof.preprocessedVk, finalState := proof.finalState
      digest := proof.digest.toList, settings := proof.settings }
  if bytes.length > maxMultiProofBytes then
    throw (.message "serialized multi-block proof exceeds configured size limit")
  return bytes

/-- `copy_from_slice` into a digest, after the check of the length. -/
def toDigest (bytes : List U8) (e : ApiError) : Except ApiError Digest :=
  if h : bytes.length = 64 then .ok ⟨bytes.toArray, by simpa using h⟩ else .error e

/-- `deserialize_multi_block_proof`. -/
def deserializeMultiBlockProof (bytes : List U8) : Except ApiError (Sha512MultiBlockProof B) := do
  if bytes.length > maxMultiProofBytes then
    throw (.message "serialized multi-block proof exceeds configured size limit")
  let serializable ← mapErr ((multiCodec B usizeBits).decodeSlice maxMultiProofBytes bytes)
  -- the digest is checked before the size of the inner proof
  let digest ← toDigest serializable.digest (.message "invalid digest length in serialized multi-block proof")
  if serializable.proofBytes.length > maxInnerProofBytes then
    throw (.message "inner multi-block proof exceeds configured size limit")
  let proof ← mapErr (B.proofCodec.decodeSlice maxInnerProofBytes serializable.proofBytes)
  return { proof, preprocessedVk := fromSerializableVk serializable.vk, finalState := serializable.finalState
           digest, settings := serializable.settings }

end Envelopes

end Sha512Circuit
