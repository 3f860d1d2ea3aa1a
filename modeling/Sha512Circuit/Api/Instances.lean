/-
The instance codecs, for a `usize` of any width: what the encoders write and what the decoders
accept, and the headers that the cast to a narrow `usize` lets through.
-/
import Sha512Circuit.Api.Serialization
import Sha512Circuit.Compress.Validate

namespace Sha512Circuit

/-! ## Words and states -/

@[simp] theorem u64ToBeBytes_length (w : U64) : (u64ToBeBytes w).length = 8 := Bytes.toBe_length 8 _

/-- Eight bytes are written back as they were read. -/
theorem u64ToBeBytes_fromBeBytes {bs : List U8} (h : bs.length = 8) : u64ToBeBytes (u64FromBeBytes bs) = bs := by
  have hlt := Bytes.ofBe_lt bs
  have hinv := Bytes.toBe_ofBe bs
  rw [h] at hlt hinv
  rw [u64ToBeBytes, u64FromBeBytes, BitVec.toNat_ofNat, Nat.mod_eq_of_lt (by omega), hinv]

@[simp] theorem stateBytes_length (s : State) : (stateBytes s).length = 64 := by
  rw [stateBytes, Bytes.length_flatMap_const fun w _ => u64ToBeBytes_length w]
  simp

/-- The words of a state that is read are those of the eight chunks. -/
theorem readState_toList {bytes : List U8} (h : 64 ≤ bytes.length) :
    (readState bytes).toList = (Bytes.chunksExact 8 (bytes.take 64)).map u64FromBeBytes := by
  have hchunks : (Bytes.chunksExact 8 (bytes.take 64)).length = 8 := by
    rw [Bytes.chunksExact_length, List.length_take_of_le h]
  apply List.ext_getElem
  · rw [Vector.length_toList, List.length_map, hchunks]
  · intro j hj _
    rw [Vector.length_toList] at hj
    rw [Vector.getElem_toList, ← getElem!_pos (readState bytes) j hj, readState, Bytes.foldl_set!_zipIdx _ _ _ hj,
      List.getElem?_eq_getElem (by omega), List.getElem_map]
    rfl

/-- The bytes of a state read back as the state. -/
theorem readState_stateBytes (s : State) (rest : List U8) : readState (stateBytes s ++ rest) = s := by
  have htake : (stateBytes s ++ rest).take 64 = stateBytes s := List.take_left' (stateBytes_length s)
  apply Vector.toList_inj.1
  rw [readState_toList (by simp), htake]
  apply List.ext_getElem
  · simp
  · intro j _ hj
    rw [List.getElem_map, Bytes.chunksExact_getElem, stateBytes,
      Bytes.take_drop_flatMap _ (fun w _ => u64ToBeBytes_length w) j hj, u64FromBeBytes_toBeBytes]

/-- A state is written back as it was read. -/
theorem stateBytes_readState {bytes : List U8} (h : 64 ≤ bytes.length) :
    stateBytes (readState bytes) = bytes.take 64 := by
  have hchunk : (Bytes.chunksExact 8 (bytes.take 64)).map (fun c => u64ToBeBytes (u64FromBeBytes c)) =
      Bytes.chunksExact 8 (bytes.take 64) := by
    conv_rhs => rw [← List.map_id (Bytes.chunksExact 8 (bytes.take 64))]
    exact List.map_congr_left fun c hc => u64ToBeBytes_fromBeBytes (Bytes.length_of_mem_chunksExact hc)
  rw [stateBytes, readState_toList h, List.flatMap_def, List.map_map]
  show ((Bytes.chunksExact 8 (bytes.take 64)).map fun c => u64ToBeBytes (u64FromBeBytes c)).flatten = _
  rw [hchunk, Bytes.flatten_chunksExact ⟨8, List.length_take_of_le h⟩]

/-! ## Single blocks -/

theorem toBlock_vector_toList (b : Block) : toBlock b.toList = b :=
  Vector.toList_inj.1 (toBlock_toList b.length_toList)

/-- The decoder accepts exactly what the encoder writes. -/
theorem deserializeSingleBlockInstance_iff {bytes : List U8} {inst : Sha512SingleBlockInstance} :
    deserializeSingleBlockInstance bytes = .ok inst ↔ serializeSingleBlockInstance inst = bytes := by
  obtain ⟨s, b⟩ := inst
  unfold deserializeSingleBlockInstance serializeSingleBlockInstance
  dsimp only
  constructor
  · intro h
    split at h
    · cases h
    · rename_i hlen
      cases h
      rw [stateBytes_readState (by omega), toBlock_toList (by rw [List.length_drop]; omega), List.take_append_drop]
  · rintro rfl
    rw [if_neg (by simp), readState_stateBytes, List.drop_left' (stateBytes_length s), toBlock_vector_toList]

theorem deserializeSingleBlockInstance_accepts {bytes : List U8} :
    (∃ inst, deserializeSingleBlockInstance bytes = .ok inst) ↔ bytes.length = 192 := by
  unfold deserializeSingleBlockInstance
  split
  · rename_i h
    simpa using h
  · rename_i h
    simpa using h

/-! ## Messages -/

/-- The length field of a message instance, as a full 64-bit integer. -/
def declaredLength (bytes : List U8) : ℕ := (u64FromBeBytes ((bytes.drop 64).take 8)).toNat

/-- What the decoder accepts: the low `usizeBits` bits of the length field are within the limit and
are the length of the rest. -/
theorem deserializeMessageInstance_iff {usizeBits : ℕ} {bytes : List U8} {inst : Sha512MessageInstance} :
    deserializeMessageInstance usizeBits bytes = .ok inst ↔
      inst = ⟨readState bytes, bytes.drop 72⟩ ∧ declaredLength bytes % 2 ^ usizeBits ≤ maxMessageInstanceBytes ∧
        bytes.length = 72 + declaredLength bytes % 2 ^ usizeBits := by
  unfold deserializeMessageInstance
  rw [← declaredLength]
  dsimp only
  constructor
  · intro h
    split at h
    · cases h
    · obtain ⟨u, hsize, h⟩ := Wire.bind_ok h
      split at h
      · cases h
      · rename_i hlen
        cases h
        exact ⟨rfl, validateMessageSize_ok.1 hsize, not_not.1 hlen⟩
  · rintro ⟨rfl, hsize, hlen⟩
    rw [if_neg (by omega), (validateMessageSize_ok (u := ())).2 hsize]
    show (if _ then _ else _) = _
    rw [if_neg (not_not.2 hlen)]
    rfl

/-- The header and the payload of an instance are read back from its bytes. -/
theorem messageBytes_iff {bytes : List U8} {s : State} {w : U64} {message : List U8} :
    stateBytes s ++ u64ToBeBytes w ++ message = bytes ↔
      72 ≤ bytes.length ∧ s = readState bytes ∧ w = u64FromBeBytes ((bytes.drop 64).take 8) ∧
        message = bytes.drop 72 := by
  constructor
  · rintro rfl
    refine ⟨by simp; omega, ?_, ?_, (List.drop_left' (by simp)).symm⟩
    · rw [List.append_assoc, readState_stateBytes]
    · rw [List.append_assoc, List.drop_left' (stateBytes_length s), List.take_left' (u64ToBeBytes_length w),
        u64FromBeBytes_toBeBytes]
  · rintro ⟨hlen, rfl, rfl, rfl⟩
    have hfield : ((bytes.drop 64).take 8).length = 8 := by rw [List.length_take, List.length_drop]; omega
    rw [stateBytes_readState (by omega), u64ToBeBytes_fromBeBytes hfield, ← List.take_add, List.take_append_drop]

/-- What the encoder writes: the whole length field is the length of the rest, within the limit. -/
theorem serializeMessageInstance_iff {bytes : List U8} {inst : Sha512MessageInstance} :
    serializeMessageInstance inst = .ok bytes ↔
      inst = ⟨readState bytes, bytes.drop 72⟩ ∧ declaredLength bytes ≤ maxMessageInstanceBytes ∧
        bytes.length = 72 + declaredLength bytes := by
  obtain ⟨s, message⟩ := inst
  have hmax : maxMessageInstanceBytes = 16 * 1024 * 1024 := rfl
  have hok : serializeMessageInstance ⟨s, message⟩ = .ok bytes ↔ message.length ≤ maxMessageInstanceBytes ∧
      stateBytes s ++ u64ToBeBytes (BitVec.ofNat 64 message.length) ++ message = bytes := by
    unfold serializeMessageInstance
    constructor
    · intro h
      obtain ⟨u, hsize, h⟩ := Wire.bind_ok h
      cases h
      exact ⟨validateMessageSize_ok.1 hsize, rfl⟩
    · rintro ⟨hsize, rfl⟩
      rw [(validateMessageSize_ok (u := ())).2 hsize]
      rfl
  rw [hok, messageBytes_iff, declaredLength]
  have hdrop : (bytes.drop 72).length = bytes.length - 72 := List.length_drop
  constructor
  · rintro ⟨hsize, hlen, rfl, hfield, rfl⟩
    rw [← hfield, BitVec.toNat_ofNat, Nat.mod_eq_of_lt (by omega)]
    exact ⟨rfl, hsize, by omega⟩
  · rintro ⟨hinst, hsize, hlen⟩
    obtain ⟨rfl, rfl⟩ := Sha512MessageInstance.mk.inj hinst
    refine ⟨by omega, by omega, rfl, ?_, rfl⟩
    rw [hdrop, hlen, Nat.add_sub_cancel_left, BitVec.ofNat_toNat, BitVec.setWidth_eq]

/-- A message instance within the size limit has an encoding. -/
theorem serializeMessageInstance_of_le {inst : Sha512MessageInstance}
    (h : inst.message.length ≤ maxMessageInstanceBytes) : ∃ bytes, serializeMessageInstance inst = .ok bytes := by
  unfold serializeMessageInstance
  rw [(validateMessageSize_ok (u := ())).2 h]
  exact ⟨_, rfl⟩

/-! ## The cast of the length field -/

/-- The cast to a `usize` drops high bits of the length field, and the bits it keeps are within the
limit and are the length of the rest. -/
def HeaderWraps (usizeBits : ℕ) (bytes : List U8) : Prop :=
  2 ^ usizeBits ≤ declaredLength bytes ∧ declaredLength bytes % 2 ^ usizeBits ≤ maxMessageInstanceBytes ∧
    bytes.length = 72 + declaredLength bytes % 2 ^ usizeBits

/-- A cast to 64 bits drops nothing. -/
theorem not_headerWraps_64 (bytes : List U8) : ¬ HeaderWraps 64 bytes := fun h =>
  absurd h.1 (not_le.2 (BitVec.isLt _))

/-- The decoder accepts what the encoder writes, and otherwise only wrapped headers. -/
theorem deserializeMessageInstance_iff_serialize {usizeBits : ℕ} (hw : maxMessageInstanceBytes < 2 ^ usizeBits)
    {bytes : List U8} {inst : Sha512MessageInstance} :
    deserializeMessageInstance usizeBits bytes = .ok inst ↔
      serializeMessageInstance inst = .ok bytes ∨
        inst = ⟨readState bytes, bytes.drop 72⟩ ∧ HeaderWraps usizeBits bytes := by
  rw [deserializeMessageInstance_iff, serializeMessageInstance_iff, HeaderWraps, ← and_or_left]
  refine and_congr_right fun _ => ?_
  rcases Nat.lt_or_ge (declaredLength bytes) (2 ^ usizeBits) with hlt | hge
  · rw [Nat.mod_eq_of_lt hlt]
    refine ⟨.inl, ?_⟩
    rintro (h | ⟨hge, -⟩)
    · exact h
    · omega
  · refine ⟨fun h => .inr ⟨hge, h⟩, ?_⟩
    rintro (⟨hle, -⟩ | ⟨-, h⟩)
    · omega
    · exact h

/-- The instance codecs are exact but for headers that wrap: decoding is the inverse relation of
encoding, and a length field that is too large or is not the length of the rest is rejected, exactly
if the header does not wrap, which with a 64-bit `usize` no header does. -/
theorem instance_codecs_exact_iff (usizeBits : ℕ) (hw : usizeBits = 32 ∨ usizeBits = 64) :
    (∀ bytes, (∀ inst, deserializeMessageInstance usizeBits bytes = .ok inst ↔
        serializeMessageInstance inst = .ok bytes) ↔ ¬ HeaderWraps usizeBits bytes) ∧
    (∀ bytes, (maxMessageInstanceBytes < declaredLength bytes ∨ bytes.length ≠ 72 + declaredLength bytes →
        ∀ inst, deserializeMessageInstance usizeBits bytes ≠ .ok inst) ↔ ¬ HeaderWraps usizeBits bytes) ∧
    (usizeBits = 64 → ∀ bytes, ¬ HeaderWraps usizeBits bytes) ∧
    (∀ inst, inst.message.length ≤ maxMessageInstanceBytes → ∃ bytes,
      serializeMessageInstance inst = .ok bytes ∧ deserializeMessageInstance usizeBits bytes = .ok inst) ∧
    (∀ bytes inst, deserializeSingleBlockInstance bytes = .ok inst ↔ serializeSingleBlockInstance inst = bytes) ∧
    ∀ bytes, (∃ inst, deserializeSingleBlockInstance bytes = .ok inst) ↔ bytes.length = 192 := by
  have hmax : maxMessageInstanceBytes < 2 ^ usizeBits := by rcases hw with rfl | rfl <;> decide
  -- a header that wraps is above the limit, so that what it decodes to has another encoding
  have hwrap : ∀ {bytes}, HeaderWraps usizeBits bytes →
      deserializeMessageInstance usizeBits bytes = .ok ⟨readState bytes, bytes.drop 72⟩ ∧
        maxMessageInstanceBytes < declaredLength bytes := fun h =>
    ⟨(deserializeMessageInstance_iff_serialize hmax).2 (.inr ⟨rfl, h⟩), hmax.trans_le h.1⟩
  refine ⟨fun bytes => ⟨fun h hb => ?_, fun hb inst => ?_⟩, fun bytes => ⟨fun h hb => ?_, fun hb h inst hd => ?_⟩, ?_,
    fun inst h => ?_, fun bytes inst => deserializeSingleBlockInstance_iff,
    fun bytes => deserializeSingleBlockInstance_accepts⟩
  · obtain ⟨hd, hlt⟩ := hwrap hb
    obtain ⟨-, hle, -⟩ := serializeMessageInstance_iff.1 ((h _).1 hd)
    omega
  · rw [deserializeMessageInstance_iff_serialize hmax, or_iff_left fun h => hb h.2]
  · obtain ⟨hd, hlt⟩ := hwrap hb
    exact h (.inl hlt) _ hd
  · rw [deserializeMessageInstance_iff_serialize hmax, or_iff_left fun h => hb h.2] at hd
    obtain ⟨-, hle, hlen⟩ := serializeMessageInstance_iff.1 hd
    rcases h with h | h
    · omega
    · exact h hlen
  · rintro rfl
    exact not_headerWraps_64
  · obtain ⟨bytes, hs⟩ := serializeMessageInstance_of_le h
    exact ⟨bytes, hs, (deserializeMessageInstance_iff_serialize hmax).2 (.inl hs)⟩

/-- The empty message with a 32-bit `usize`. -/
theorem instance_codecs_exact_iff_empty : ∃ bytes, serializeMessageInstance ⟨initialState, []⟩ = .ok bytes ∧
    deserializeMessageInstance 32 bytes = .ok ⟨initialState, []⟩ :=
  (instance_codecs_exact_iff 32 (.inl rfl)).2.2.2.1 ⟨initialState, []⟩ (Nat.zero_le _)

/-- With a 32-bit `usize`, a length field of `2^32` before no bytes at all is read as zero. -/
theorem deserializeMessageInstance_accepts_wrapped :
    maxMessageInstanceBytes < declaredLength (List.replicate 64 0 ++ [0, 0, 0, 1, 0, 0, 0, 0]) ∧
    ∃ inst, deserializeMessageInstance 32 (List.replicate 64 0 ++ [0, 0, 0, 1, 0, 0, 0, 0]) = .ok inst ∧
      serializeMessageInstance inst ≠ .ok (List.replicate 64 0 ++ [0, 0, 0, 1, 0, 0, 0, 0]) := by
  have hlen : declaredLength (List.replicate 64 0 ++ [0, 0, 0, 1, 0, 0, 0, 0]) = 2 ^ 32 := by decide
  have hmax : maxMessageInstanceBytes < 2 ^ 32 := by decide
  refine ⟨by rw [hlen]; exact hmax, _, deserializeMessageInstance_iff.2 ⟨rfl, ?_, ?_⟩, fun h => ?_⟩
  · rw [hlen]; decide
  · rw [hlen]; simp
  · obtain ⟨-, hle, -⟩ := serializeMessageInstance_iff.1 h
    omega

end Sha512Circuit
