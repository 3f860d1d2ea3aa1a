/-
Formats against each other, with a 64-bit `usize`: no byte string is read both as a single-block and
as a message proof, whose envelopes start alike; the two instance formats carry no tag, and the byte
strings that are read as both are those of 192 bytes with a declared length of 120.
-/
import Sha512Circuit.Api.Completeness

namespace Sha512Circuit

open Wire (Codec)

/-! ## Proofs -/

section Proofs

variable {B : Stark}

/-- The envelopes agree up to the key, and the rest of a multi-block envelope is longer. -/
theorem singleCodec_ne_multiCodec (hc : ∀ c, B.commitmentCodec.Decodes c) {p : SerializableSingleBlockProof B}
    {q : SerializableMultiBlockProof B} (hp : p.proofBytes.length < 2 ^ 64) (hq : q.proofBytes.length < 2 ^ 64) :
    (singleCodec B 64).encode p ≠ (multiCodec B 64).encode q := by
  intro h
  have h : (bytesCodec 64).encode p.proofBytes ++ ((vkCodec B 64).encode p.vk ++ (settingsCodec 64).encode p.settings) =
      (bytesCodec 64).encode q.proofBytes ++ ((vkCodec B 64).encode q.vk ++ ((Codec.u64.array 8).encode q.finalState ++
        ((bytesCodec 64).encode q.digest ++ (settingsCodec 64).encode q.settings))) := h
  obtain ⟨-, h⟩ := (bytesCodec_decodes hp).append_inj (bytesCodec_decodes hq) h
  obtain ⟨-, h⟩ := (vkCodec_decodes (hc _)).append_inj (vkCodec_decodes (hc _)) h
  have hlen := congrArg List.length h
  simp only [List.length_append, settingsCodec_encode_length, bytesCodec_encode_length] at hlen
  omega

theorem deserializeProof_disjoint (hc : ∀ c, B.commitmentCodec.Decodes c) (hcan : B.commitmentCodec.Canonical)
    {bytes : List U8} {p : Sha512SingleBlockProof B} {q : Sha512MultiBlockProof B}
    (h : deserializeSingleBlockProof B 64 bytes = .ok p) : deserializeMultiBlockProof B 64 bytes ≠ .ok q := by
  intro h'
  have hmax : maxInnerProofBytes < 2 ^ 64 := by decide
  obtain ⟨proofBytes, -, hslice, hinner, -⟩ := deserializeSingleBlockProof_iff.1 h
  obtain ⟨proofBytes', -, hslice', hinner', -⟩ := deserializeMultiBlockProof_iff.1 h'
  obtain ⟨hbytes, -⟩ := Codec.encode_of_decodeSlice (singleCodec_canonical hcan 64) hslice
  obtain ⟨hbytes', -⟩ := Codec.encode_of_decodeSlice (multiCodec_canonical hcan 64) hslice'
  exact singleCodec_ne_multiCodec hc (hinner.trans_lt hmax) (hinner'.trans_lt hmax) (hbytes.trans hbytes'.symm)

end Proofs

/-! ## Instances -/

/-- The byte strings that both instance decoders accept. -/
theorem deserializeInstance_both_iff {bytes : List U8} :
    ((∃ inst, deserializeSingleBlockInstance bytes = .ok inst) ∧
      ∃ inst, deserializeMessageInstance 64 bytes = .ok inst) ↔
      bytes.length = 192 ∧ declaredLength bytes = 120 := by
  have hlt : declaredLength bytes < 2 ^ 64 := BitVec.isLt _
  simp only [deserializeSingleBlockInstance_accepts, deserializeMessageInstance_iff, Nat.mod_eq_of_lt hlt]
  constructor
  · rintro ⟨hlen, inst, -, -, hdecl⟩
    exact ⟨hlen, by omega⟩
  · rintro ⟨hlen, hdecl⟩
    refine ⟨hlen, _, rfl, ?_, by omega⟩
    rw [hdecl]
    decide

/-- The two readings of one byte string: the same initial state, and a block that starts with the
length field of the message. -/
theorem deserializeInstance_readings {bytes : List U8} {inst : Sha512SingleBlockInstance} {inst' : Sha512MessageInstance}
    (h : deserializeSingleBlockInstance bytes = .ok inst) (h' : deserializeMessageInstance 64 bytes = .ok inst') :
    inst.initialState = inst'.initialState ∧ inst.block.toList = u64ToBeBytes 120 ++ inst'.message := by
  obtain ⟨-, hdecl⟩ := deserializeInstance_both_iff.1 ⟨⟨inst, h⟩, inst', h'⟩
  have hbytes := deserializeSingleBlockInstance_iff.1 h
  have hbytes' := serializeMessageInstance_deserialize h'
  obtain ⟨-, -, hlen⟩ := serializeMessageInstance_iff.1 hbytes'
  obtain ⟨u, -, hwrite⟩ := Wire.bind_ok hbytes'
  have hwrite : stateBytes inst'.initialState ++ u64ToBeBytes (BitVec.ofNat 64 inst'.message.length) ++ inst'.message =
      bytes := Except.ok.inj hwrite
  have hmessage : inst'.message.length = 120 := by
    have := congrArg List.length hwrite
    simp only [List.length_append, stateBytes_length, u64ToBeBytes_length] at this
    omega
  rw [← hbytes, List.append_assoc, hmessage] at hwrite
  obtain ⟨hstate, hrest⟩ := List.append_inj hwrite (by rw [stateBytes_length, stateBytes_length])
  refine ⟨?_, hrest.symm⟩
  rw [← readState_stateBytes inst.initialState [], ← readState_stateBytes inst'.initialState [], hstate]

/-- The formats against each other, with a 64-bit `usize`: over codecs that round-trip, no byte string
decodes both as a single-block and as a message proof; both instance decoders accept exactly the byte
strings of 192 bytes whose length field says 120, and there the message is what follows the field in the
block. -/
theorem formats_overlap (B : Stark) (hc : ∀ c, B.commitmentCodec.Decodes c) (hcan : B.commitmentCodec.Canonical)
    (bytes : List U8) :
    (∀ (p : Sha512SingleBlockProof B) (q : Sha512MultiBlockProof B),
      ¬ (deserializeSingleBlockProof B 64 bytes = .ok p ∧ deserializeMultiBlockProof B 64 bytes = .ok q)) ∧
    (((∃ inst, deserializeSingleBlockInstance bytes = .ok inst) ∧
      ∃ inst, deserializeMessageInstance 64 bytes = .ok inst) ↔ bytes.length = 192 ∧ declaredLength bytes = 120) ∧
    ∀ (inst : Sha512SingleBlockInstance) (inst' : Sha512MessageInstance),
      deserializeSingleBlockInstance bytes = .ok inst → deserializeMessageInstance 64 bytes = .ok inst' →
        inst.initialState = inst'.initialState ∧ inst.block.toList = u64ToBeBytes 120 ++ inst'.message :=
  ⟨fun _ _ h => deserializeProof_disjoint hc hcan h.1 h.2, deserializeInstance_both_iff,
    fun _ _ => deserializeInstance_readings⟩

/-- An encoded single-block proof, and a zero state before the field and 120 zero bytes. -/
theorem formats_overlap_checking :
    (∃ (p : Sha512SingleBlockProof .checking) (bytes : List U8), serializeSingleBlockProof .checking 64 p = .ok bytes ∧
      ∀ q, deserializeMultiBlockProof .checking 64 bytes ≠ .ok q) ∧
    ∃ inst, deserializeMessageInstance 64 (List.replicate 64 0 ++ u64ToBeBytes 120 ++ List.replicate 120 0) = .ok inst := by
  have hoverlap := formats_overlap .checking Codec.byte_decodes Codec.byte_canonical
  have h : serializeSingleBlockProof .checking 64 ⟨(1 : U8), ⟨1, 7, (0 : U8)⟩, .default⟩ = .ok _ :=
    serializeSingleBlockProof_iff.2 ⟨by decide, by decide, rfl⟩
  have hread := deserializeSingleBlockProof_serialize (Codec.byte_decodes _) (Codec.byte_decodes _) h
  refine ⟨⟨_, _, h, fun q hq => (hoverlap _).1 _ q ⟨hread, hq⟩⟩, ?_⟩
  refine ((hoverlap _).2.1.2 ⟨?_, by decide⟩).2
  rw [List.length_append, List.length_append, List.length_replicate, List.length_replicate, u64ToBeBytes_length]

end Sha512Circuit
