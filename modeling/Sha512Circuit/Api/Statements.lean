/-
The statement behind a proof. Over a backend whose commitments bind, the verifier key of an accepted
proof names one statement, among single blocks and messages together; and a message of one block is
proved and verified by the message path as its padded block is by the single-block path.
-/
import Sha512Circuit.Api.Sealed
import Sha512Circuit.Air.Stacking

namespace Sha512Circuit

/-- `setup_preprocessed` records the degree it was given. -/
def Stark.RecordsDegree (B : Stark) : Prop :=
  ∀ (config : Sha512StarkConfig) (air : Sha512RoundAir) (degreeBits : ℕ) (data : B.ProverData)
    (vk : Sha512PreprocessedVk B.Commitment),
    B.setupPreprocessed config air degreeBits = some (data, vk) → vk.degreeBits = BitVec.ofNat 64 degreeBits

section Keys

variable {B : Stark} {settings : Sha512ProofSettings}

/-! ## Keys -/

/-- The key of an accepted proof is the key set up for its statement. -/
theorem setup_of_verifySingleBlock {inst : Sha512SingleBlockInstance} {p : Sha512SingleBlockProof B}
    (h : verifySingleBlockProofWithSettings B inst p settings = true) : ∃ data,
      B.setupPreprocessed (setupConfig settings)
        ⟨buildPlonky3PreprocessedTraceFromInstance inst.initialState inst.block⟩ traceDegreeBits =
          some (data, p.preprocessedVk) := by
  obtain ⟨-, data, hsetup, -⟩ := verifySingleBlockProofWithSettings_iff.1 h
  exact ⟨data, hsetup⟩

theorem setup_of_verifyMessage {inst : Sha512MessageInstance} {p : Sha512MultiBlockProof B}
    (h : verifyMessageProofWithSettings B inst p settings = true) : ∃ data,
      B.setupPreprocessed (setupConfig settings)
        ⟨(buildMessageAirBundle inst.initialState inst.message).preprocessed⟩
        (buildMessageAirBundle inst.initialState inst.message).degreeBits = some (data, p.preprocessedVk) := by
  obtain ⟨-, -, -, data, hsetup, -⟩ := verifyMessageProofWithSettings_iff.1 h
  exact ⟨data, hsetup⟩

/-- Keys are equal exactly if the degrees and the matrices they were set up for are. -/
theorem setup_vk_eq_iff (hB : B.Binding) (hdeg : B.RecordsDegree) {air air' : Sha512RoundAir} {d d' : ℕ}
    {data data' : B.ProverData} {vk vk' : Sha512PreprocessedVk B.Commitment} (hd : d < 2 ^ 64) (hd' : d' < 2 ^ 64)
    (h : B.setupPreprocessed (setupConfig settings) air d = some (data, vk))
    (h' : B.setupPreprocessed (setupConfig settings) air' d' = some (data', vk')) :
    vk = vk' ↔ d = d' ∧ air.preprocessed = air'.preprocessed := by
  constructor
  · rintro rfl
    have hdd := congrArg BitVec.toNat ((hdeg _ _ _ _ _ h).symm.trans (hdeg _ _ _ _ _ h'))
    rw [BitVec.toNat_ofNat, BitVec.toNat_ofNat, Nat.mod_eq_of_lt hd, Nat.mod_eq_of_lt hd'] at hdd
    subst hdd
    exact ⟨rfl, hB settings _ _ _ _ _ _ _ h h' rfl⟩
  · rintro ⟨rfl, hair⟩
    cases air
    cases air'
    cases hair
    rw [h] at h'
    exact (Prod.mk.inj (Option.some.inj h')).2

theorem bundle_degreeBits_eq (s : State) (message : List U8) :
    (buildMessageAirBundle s message).degreeBits = Nat.clog 2 (paddedBlocks message).length + 7 := by
  rw [bundle_degreeBits, trailingZeros_totalRows]

/-- The degree of a message whose length is a `usize` is one. -/
theorem bundle_degreeBits_lt (s : State) {message : List U8} (h : message.length < 2 ^ 64) :
    (buildMessageAirBundle s message).degreeBits < 2 ^ 64 := by
  have hn : (paddedBlocks message).length ≤ 2 ^ 58 := by rw [paddedBlocks_length]; omega
  have := Nat.clog_le_of_le_pow hn
  rw [bundle_degreeBits_eq]
  omega

/-! ## Matrices -/

/-- A message has the degree and the matrix of a block exactly if the block is its only one. -/
theorem bundle_eq_block_iff {s s' : State} {b : Block} {message : List U8} :
    (traceDegreeBits = (buildMessageAirBundle s' message).degreeBits ∧
      buildPlonky3PreprocessedTraceFromInstance s b = (buildMessageAirBundle s' message).preprocessed) ↔
      s = s' ∧ paddedBlocks message = [b] := by
  constructor
  · rintro ⟨hdegree, hprep⟩
    have hpos := paddedBlocks_length_pos message
    rw [bundle_degreeBits_eq, traceDegreeBits] at hdegree
    have hle : (paddedBlocks message).length ≤ 2 ^ 0 := Nat.clog_le_iff_le_pow (by omega) |>.1 (by omega)
    obtain ⟨b', hb'⟩ := List.length_eq_one_iff.1 (show (paddedBlocks message).length = 1 by omega)
    rw [bundle_prep_oneBlock hb', prepTrace_eq_iff] at hprep
    rw [hb', hprep.2]
    exact ⟨hprep.1, rfl⟩
  · rintro ⟨rfl, hb⟩
    rw [bundle_oneBlock hb]
    exact ⟨rfl, rfl⟩

/-- The statement of a message is its degree and its matrix. -/
theorem bundle_eq_iff {s s' : State} {message message' : List U8} :
    ((buildMessageAirBundle s message).degreeBits = (buildMessageAirBundle s' message').degreeBits ∧
      (buildMessageAirBundle s message).preprocessed = (buildMessageAirBundle s' message').preprocessed) ↔
      s = s' ∧ message = message' := by
  constructor
  · exact fun h => statement_of_bundle h.2
  · rintro ⟨rfl, rfl⟩
    exact ⟨rfl, rfl⟩

end Keys

/-! ## A backend that records the degree -/

theorem Stark.committing_recordsDegree : Stark.committing.RecordsDegree := by
  intro config air degreeBits data vk h
  unfold committing at h
  dsimp only at h
  split at h
  · cases h
    rfl
  · cases h

theorem proveSingleBlock_committing (inst : Sha512SingleBlockInstance) :
    ∃ p, proveSingleBlockWithSettings .committing inst .default = .ok p := by
  have hsize : (buildPlonky3PreprocessedTraceFromInstance inst.initialState inst.block).values.size =
      traceRows * airWidth ∧
      (buildPlonky3PreprocessedTraceFromInstance inst.initialState inst.block).width = airWidth := by
    refine ⟨?_, prepTrace_width inst.initialState inst.block⟩
    unfold buildPlonky3PreprocessedTraceFromInstance
    rw [ofRows_size, List.length_map, List.length_range]
  exact ⟨⟨_, _, .default⟩, proveSingleBlockWithSettings_iff.2
    ⟨meetsMinimumVerifierPolicy_default, rfl, (), dif_pos hsize, rfl⟩⟩

/-! ## The statement of a key -/

/-- Over a backend whose commitments bind and whose keys record the degree, the keys of accepted
proofs are equal exactly if their statements are: between blocks, between messages, and between a
block and a message, whose statements are the same if the block is the only padded block of the
message. -/
theorem verifierKey_eq_iff_statement (B : Stark) (hB : B.Binding) (hdeg : B.RecordsDegree)
    (settings : Sha512ProofSettings) :
    (∀ (inst inst' : Sha512SingleBlockInstance) (p p' : Sha512SingleBlockProof B),
      verifySingleBlockProofWithSettings B inst p settings = true →
      verifySingleBlockProofWithSettings B inst' p' settings = true →
        (p.preprocessedVk = p'.preprocessedVk ↔ inst = inst')) ∧
    (∀ (inst inst' : Sha512MessageInstance) (p p' : Sha512MultiBlockProof B),
      inst.message.length < 2 ^ 64 → inst'.message.length < 2 ^ 64 →
      verifyMessageProofWithSettings B inst p settings = true →
      verifyMessageProofWithSettings B inst' p' settings = true →
        (p.preprocessedVk = p'.preprocessedVk ↔ inst = inst')) ∧
    ∀ (inst : Sha512SingleBlockInstance) (inst' : Sha512MessageInstance) (p : Sha512SingleBlockProof B)
      (p' : Sha512MultiBlockProof B), inst'.message.length < 2 ^ 64 →
      verifySingleBlockProofWithSettings B inst p settings = true →
      verifyMessageProofWithSettings B inst' p' settings = true →
        (p.preprocessedVk = p'.preprocessedVk ↔
          inst.initialState = inst'.initialState ∧ paddedBlocks inst'.message = [inst.block]) := by
  have h7 : traceDegreeBits < 2 ^ 64 := by decide
  refine ⟨fun inst inst' p p' h h' => ?_, fun inst inst' p p' hm hm' h h' => ?_, fun inst inst' p p' hm' h h' => ?_⟩
  · obtain ⟨data, hsetup⟩ := setup_of_verifySingleBlock h
    obtain ⟨data', hsetup'⟩ := setup_of_verifySingleBlock h'
    rw [setup_vk_eq_iff hB hdeg h7 h7 hsetup hsetup', prepTrace_eq_iff]
    cases inst
    cases inst'
    rw [Sha512SingleBlockInstance.mk.injEq]
    exact and_iff_right rfl
  · obtain ⟨data, hsetup⟩ := setup_of_verifyMessage h
    obtain ⟨data', hsetup'⟩ := setup_of_verifyMessage h'
    rw [setup_vk_eq_iff hB hdeg (bundle_degreeBits_lt _ hm) (bundle_degreeBits_lt _ hm') hsetup hsetup', bundle_eq_iff]
    cases inst
    cases inst'
    rw [Sha512MessageInstance.mk.injEq]
  · obtain ⟨data, hsetup⟩ := setup_of_verifySingleBlock h
    obtain ⟨data', hsetup'⟩ := setup_of_verifyMessage h'
    rw [setup_vk_eq_iff hB hdeg h7 (bundle_degreeBits_lt _ hm') hsetup hsetup', bundle_eq_block_iff]

/-- A message proof over the committing backend, about a seed. -/
theorem exists_verifyMessage_committing (seed : Vector U8 32) :
    ∃ p, verifyMessageProofWithSettings .committing (seedInstance seed) p .default = true := by
  obtain ⟨bundle, hbundle⟩ := proveSeed32_committing seed
  obtain ⟨p, hp, -⟩ := proveSeed32PrivateWithSettings_iff.1 hbundle
  exact ⟨p, verifyMessage_of_prove Stark.committing_complete hp⟩

/-- Accepted proofs about a block from the zero state, about the padded block of the zero seed, and
about the zero seed and another one as messages: the second and the third have one key. -/
theorem verifierKey_eq_iff_statement_committing :
    ∃ (p q : Sha512SingleBlockProof .committing) (m m' : Sha512MultiBlockProof .committing),
      verifySingleBlockProofWithSettings .committing ⟨Vector.replicate 8 0, Vector.replicate 128 0⟩ p .default = true ∧
      verifySingleBlockProofWithSettings .committing
        ⟨initialState, toBlock (padMessage (Vector.replicate 32 (0 : U8)).toList)⟩ q .default = true ∧
      verifyMessageProofWithSettings .committing (seedInstance (Vector.replicate 32 0)) m .default = true ∧
      verifyMessageProofWithSettings .committing (seedInstance (Vector.replicate 32 1)) m' .default = true ∧
      p.preprocessedVk ≠ q.preprocessedVk ∧ q.preprocessedVk = m.preprocessedVk ∧
        m.preprocessedVk ≠ m'.preprocessedVk := by
  have hlen : ∀ seed : Vector U8 32, (seedInstance seed).message.length ≤ 111 := fun seed => by simp [seedInstance]
  have hlt : ∀ seed : Vector U8 32, (seedInstance seed).message.length < 2 ^ 64 := fun seed =>
    lt_of_le_of_lt (hlen seed) (by decide)
  obtain ⟨p, hp⟩ := proveSingleBlock_committing ⟨Vector.replicate 8 0, Vector.replicate 128 0⟩
  obtain ⟨q, hq⟩ := proveSingleBlock_committing
    ⟨initialState, toBlock (padMessage (seedInstance (Vector.replicate 32 0)).message)⟩
  obtain ⟨m, hm⟩ := exists_verifyMessage_committing (Vector.replicate 32 0)
  obtain ⟨m', hm'⟩ := exists_verifyMessage_committing (Vector.replicate 32 1)
  have hp := verifySingleBlock_of_prove Stark.committing_complete hp
  have hq := verifySingleBlock_of_prove Stark.committing_complete hq
  obtain ⟨hsingle, hmessage, hcross⟩ := verifierKey_eq_iff_statement .committing Stark.committing_binding
    Stark.committing_recordsDegree .default
  refine ⟨p, q, m, m', hp, hq, hm, hm', fun h => ?_, ?_, fun h => ?_⟩
  · have hinst := (hsingle _ _ p q hp hq).1 h
    exact absurd (congrArg Sha512SingleBlockInstance.initialState hinst) (by decide)
  · exact (hcross _ _ q m (hlt _) hq hm).2 ⟨rfl, paddedBlocks_oneBlock (hlen _)⟩
  · have hinst := (hmessage _ _ m m' (hlt _) (hlt _) hm hm').1 h
    exact absurd (congrArg Sha512MessageInstance.message hinst) (by decide)

/-! ## Messages of one block -/

/-- A message of one block on the two paths: the bundle of the message is made of the matrices, the
degree and the public values of its padded block, so the message prover makes the proof of the block,
with the chaining value and the digest added, and the message verifier accepts what the single-block
verifier does, if these two are right. -/
theorem oneBlock_paths_agree (B : Stark) (s : State) (message : List U8) (h : message.length ≤ 111)
    (settings : Sha512ProofSettings) :
    let block := toBlock (padMessage message)
    let final := (compressBlock s block).outputState
    (buildMessageAirBundle s message).main = buildPlonky3AirTrace (compressBlock s block) ∧
    (buildMessageAirBundle s message).preprocessed = buildPlonky3PreprocessedTraceFromInstance s block ∧
    (∀ p : Sha512MultiBlockProof B, proveMessageWithSettings B ⟨s, message⟩ settings = .ok p ↔
      ∃ q, proveSingleBlockWithSettings B ⟨s, block⟩ settings = .ok q ∧
        p = ⟨q.proof, q.preprocessedVk, final, digestOfState final, q.settings⟩) ∧
    ∀ p : Sha512MultiBlockProof B, verifyMessageProofWithSettings B ⟨s, message⟩ p settings = true ↔
      verifySingleBlockProofWithSettings B ⟨s, block⟩ ⟨p.proof, p.preprocessedVk, p.settings⟩ settings = true ∧
        p.finalState = final ∧ p.digest = digestOfState p.finalState := by
  have hbundle := bundle_oneBlock (s := s) (paddedBlocks_oneBlock h)
  have hsize : message.length ≤ maxMessageInstanceBytes := by unfold maxMessageInstanceBytes; omega
  refine ⟨by rw [hbundle], by rw [hbundle], fun p => ?_, fun p => ?_⟩
  · rw [proveMessageWithSettings_iff, hbundle]
    constructor
    · obtain ⟨proof, vk, final, digest, recorded⟩ := p
      rintro ⟨hpolicy, -, hsettings, hfinal, hdigest, data, hsetup, hproof⟩
      dsimp only at hsettings hfinal hdigest hsetup hproof
      subst hsettings hdigest hfinal
      exact ⟨⟨proof, vk, recorded⟩, proveSingleBlockWithSettings_iff.2 ⟨hpolicy, rfl, data, hsetup, hproof⟩, rfl⟩
    · rintro ⟨q, hq, rfl⟩
      obtain ⟨hpolicy, hsettings, data, hsetup, hproof⟩ := proveSingleBlockWithSettings_iff.1 hq
      dsimp only at hsetup hproof
      exact ⟨hpolicy, hsize, hsettings, rfl, rfl, data, hsetup, hproof⟩
  · rw [verifyMessageProofWithSettings_iff, verifySingleBlockProofWithSettings_iff]
    constructor
    · rintro ⟨hpolicy, hfinal, hdigest, haccepted⟩
      rw [hbundle] at hfinal haccepted
      exact ⟨⟨hpolicy, haccepted⟩, hfinal, hdigest⟩
    · rintro ⟨⟨hpolicy, haccepted⟩, hfinal, hdigest⟩
      refine ⟨hpolicy, ?_, hdigest, ?_⟩
      · rw [hbundle]
        exact hfinal
      · rw [hbundle]
        exact haccepted

/-- The message `abc`, proved as a block and verified as a message. -/
theorem oneBlock_paths_agree_checking :
    ∃ q, proveSingleBlockWithSettings .checking ⟨initialState, toBlock (padMessage [0x61, 0x62, 0x63])⟩ .default = .ok q ∧
      let final := (compressBlock initialState (toBlock (padMessage [0x61, 0x62, 0x63]))).outputState
      verifyMessageProofWithSettings .checking ⟨initialState, [0x61, 0x62, 0x63]⟩
        ⟨q.proof, q.preprocessedVk, final, digestOfState final, q.settings⟩ .default = true := by
  obtain ⟨q, hq⟩ := proveSingleBlock_checking ⟨initialState, toBlock (padMessage [0x61, 0x62, 0x63])⟩
  refine ⟨q, hq, ?_⟩
  exact ((oneBlock_paths_agree .checking initialState [0x61, 0x62, 0x63] (by decide) .default).2.2.2 _).2
    ⟨verifySingleBlock_of_prove Stark.checking_complete hq, rfl, rfl⟩

end Sha512Circuit
