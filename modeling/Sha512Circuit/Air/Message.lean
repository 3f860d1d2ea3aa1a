/-
The AIR of a whole message: an accepted main trace carries, segment by segment, the rounds of the
padded blocks chained by the feed-forward; the honest bundle is accepted for every message, whether
or not its block count is a power of two; and the preprocessed matrix determines the statement.
-/
import Sha512Circuit.Air.MessageSpec
import Sha512Circuit.Compress.Validate

namespace Sha512Circuit

/-! ## Completeness -/

/-- A row of zeros satisfies the constraints against preprocessed zeros. -/
theorem zeroRow_vanish {win : AirWindow} (hloc : win.loc = zeroRow.cell) (hprep : win.locPrep = zeroRow.cell) :
    Vanish (eval win) := by
  have h0 : ∀ c, zeroRow.cell c = 0 := cell_replicate
  have hword : ∀ col, WordAt zeroRow.cell col 0 := fun col l _ => by rw [h0, limb_zero, Nat.cast_zero]
  have hbits : ∀ base, BitsAt zeroRow.cell base 0#64 := fun base i _ => by rw [h0, BitVec.getLsbD_zero]; rfl
  rw [vanish_eval, hloc, hprep, h0, h0]
  refine ⟨?_, ?_, ?_, fun wb _ => evalBitWord_zero _ _ _, evalBitwise_zero _, ?_, ?_, .inr (.inl rfl), .inr ?_⟩
  · rw [evalInstance_iff, h0, h0]
    exact ⟨fun l _ => zero_mul _, fun l _ => zero_mul _, fun l _ => by rw [h0, mul_zero]⟩
  · rw [evalBlockStart_iff, h0]
    exact fun i _ l _ => zero_mul _
  · rw [evalPublic_iff]
    intro i hi
    rw [h0, zero_mul]
  · rw [evalRange_iff]
    refine fun src _ => ⟨0, by norm_num, by rw [h0, Nat.cast_zero], fun i _ => ?_⟩
    rw [h0, Nat.zero_testBit]; rfl
  · exact (evalLagBits_iff _).2 ⟨⟨0, hword _, hbits _⟩, 0, hword _, hbits _⟩
  · exact (evalLastRow_iff _).2 ⟨fun i _ _ l _ => h0 _, fun c _ _ => h0 c⟩

/-- Every row of the honest bundle satisfies the constraints. -/
theorem bundle_vanishes (s : State) (message : List U8) (wrap : ℕ) :
    airVanishes (buildMessageAirBundle s message).main (buildMessageAirBundle s message).preprocessed
      (buildMessageAirBundle s message).finalPublicValues wrap = true := by
  have hph : (buildMessageAirBundle s message).preprocessed.height = (buildMessageAirBundle s message).main.height := by
    rw [bundle_prep_height, bundle_main_height]
  rw [airVanishes_iff]
  intro i hi
  have hi' := hi
  rw [bundle_main_height] at hi'
  by_cases hj : i / 128 < (paddedBlocks message).length
  -- row `i % 128` of a real segment, whose successor matters only within the segment
  · have hle := segment_le_totalRows message hj
    have hr : i % 128 < 128 := Nat.mod_lt i (by omega)
    have hsplit : i / 128 * 128 + i % 128 = i := Nat.div_add_mod' i 128
    have hP := bundle_prepAt s message hj hr
    have hrow := bundle_main_segment s message hj hr
    rw [hsplit] at hP hrow
    refine vanish_of_traceRow (bundle_main_width s message) (bundle_prep_width s message) hph hi hr hrow
      (fun hlast => ⟨by rw [bundle_main_height]; omega, ?_⟩) hP fun hfinal => ?_
    · have hnext := bundle_main_segment s message hj (show i % 128 + 1 < 128 by omega)
      rwa [← Nat.add_assoc, hsplit] at hnext
    · rw [Bool.and_eq_true, beq_iff_eq, beq_iff_eq] at hfinal
      refine ⟨hfinal.2, ?_⟩
      rw [bundle_finalPublicValues, ← hfinal.1, Nat.add_sub_cancel]
      rfl
  -- a dummy segment, with its selectors off
  · obtain ⟨hmain, hprep⟩ := bundle_dummy s message (by omega) hi'
    rw [window_checkerAt (bundle_main_width s message) (bundle_prep_width s message) hph hi]
    exact zeroRow_vanish hmain hprep

/-- Completeness for a message of any length: the matrices have the least power-of-two height that
fits the blocks, and `eval` vanishes on every row, whatever row follows the last; the real segments
are the traces of their blocks and the rows after them are zero, so that the last row is row 127 of
the last block if the number of blocks is a power of two, and zero if not. -/
theorem buildMessageAirBundle_complete (s : State) (message : List U8) :
    let blocks := paddedBlocks message
    let bundle := buildMessageAirBundle s message
    bundle.main.height = bundle.preprocessed.height ∧
    bundle.main.height = 2 ^ bundle.degreeBits ∧
    128 * blocks.length ≤ bundle.main.height ∧
    (∀ k, 128 * blocks.length ≤ 2 ^ k → bundle.main.height ≤ 2 ^ k) ∧
    (∀ wrap, airVanishes bundle.main bundle.preprocessed bundle.finalPublicValues wrap = true) ∧
    (∀ (j : ℕ) (hj : j < blocks.length), ∀ r < 128, bundle.main.rowView (128 * j + r) =
      (buildPlonky3AirTrace (compressBlock (chainState s (blocks.take j)) blocks[j])).rowView r) ∧
    (∀ i, 128 * blocks.length ≤ i → i < bundle.main.height →
      ∀ c, bundle.main.rowView i c = 0 ∧ bundle.preprocessed.rowView i c = 0) ∧
    (bundle.main.height = 128 * blocks.length ↔ ∃ k, blocks.length = 2 ^ k) := by
  have hpos := paddedBlocks_length_pos message
  dsimp only
  rw [bundle_main_height, bundle_prep_height, bundle_degreeBits, trailingZeros_totalRows]
  refine ⟨rfl, totalRows_eq message, ?_, fun k hk => totalRows_le_pow message hk, bundle_vanishes s message,
    fun j hj r hr => ?_, fun i hn hi c => ?_, totalRows_eq_iff message⟩
  · have := segment_le_totalRows message (show (paddedBlocks message).length - 1 < _ by omega)
    omega
  · rw [Nat.mul_comm, bundle_main_segment s message hj hr, airTrace_rowView _ hr, segTrace, blockAt,
      List.getD_eq_getElem _ _ hj]
  · obtain ⟨hmain, hprep⟩ := bundle_dummy s message hn hi
    rw [hmain, hprep]
    exact ⟨cell_replicate c, cell_replicate c⟩

/-! ## Soundness -/

section Soundness

variable {s : State} {message : List U8} {M : RowMajorMatrix} {publicValues : Vector BabyBear 8} {wrap : ℕ}
  (hw : M.width = (buildMessageAirBundle s message).main.width)
  (hh : M.height = (buildMessageAirBundle s message).main.height)
  (h : airVanishes M (buildMessageAirBundle s message).preprocessed publicValues wrap = true)
include hw hh h

/-- A real segment of an accepted matrix is the run of its block; the last one fixes the public
values. -/
theorem message_segment_run {j : ℕ} (hj : j < (paddedBlocks message).length) :
    SegmentRun (fun r => M.rowView (j * 128 + r)) (segTrace s (paddedBlocks message) j) ∧
      (j + 1 = (paddedBlocks message).length → publicValues = publicValuesOf (segTrace s (paddedBlocks message) j)) := by
  rw [bundle_main_width] at hw
  rw [bundle_main_height] at hh
  have hle := segment_le_totalRows message hj
  have hP : ∀ r < 128, PrepAt ((buildMessageAirBundle s message).preprocessed.rowView (j * 128 + r))
      (chainState s ((paddedBlocks message).take j)) (traceWord (segTrace s (paddedBlocks message) j)) r
      (j + 1 == (paddedBlocks message).length && r == 80) := fun r hr => bundle_prepAt s message hj hr
  have hseg := segmentHolds_of_airVanishes hw (bundle_prep_width s message)
    (by rw [bundle_prep_height, hh]) h (by rw [hh]; exact hle) hP
  exact ⟨hseg.run hP, fun hlast => hseg.publicValues_eq hP (by rw [beq_iff_eq.2 hlast]; rfl)⟩

end Soundness

/-- Soundness for a message of any length: an accepted matrix with arbitrary cells has, in rows 0 to
80 of real segment `i`, the limbs of the recorded states of block `i` from the chaining value `H i`,
and the public values of the last block, whatever the other rows hold. -/
theorem buildMessageAirBundle_sound (s : State) (message : List U8) (M : RowMajorMatrix)
    (publicValues : Vector BabyBear 8) (wrap : ℕ)
    (hw : M.width = (buildMessageAirBundle s message).main.width)
    (hh : M.height = (buildMessageAirBundle s message).main.height)
    (h : airVanishes M (buildMessageAirBundle s message).preprocessed publicValues wrap = true) :
    let blocks := paddedBlocks message
    let H := fun i => chainState s (blocks.take i)
    0 < blocks.length ∧ H 0 = s ∧ ∀ (i : ℕ) (hi : i < blocks.length),
      let t := compressBlock (H i) blocks[i]
      H (i + 1) = feedForward (H i) t.lastRoundState ∧
      (∀ r ≤ 80, ∀ w < 8, ∀ l < 4,
        M.rowView (128 * i + r) (limbCol w l) = fromU16 (u64ToLimbs (t.roundStates[r]!)[w]!)[l]!) ∧
      (i + 1 = blocks.length → publicValues = t.lastRoundState.map bb) := by
  refine ⟨paddedBlocks_length_pos message, rfl, fun i hi => ?_⟩
  obtain ⟨hrun, hpub⟩ := message_segment_run hw hh h hi
  rw [segTrace, blockAt, List.getD_eq_getElem _ _ hi] at hrun hpub
  refine ⟨?_, fun r hr w hw' l hl => ?_, hpub⟩
  · show chainState s ((paddedBlocks message).take (i + 1)) = _
    rw [chainState_take_succ s _ i hi, compressBlock_outputState, compressBlock_roundStates_last]
  · rw [fromU16_u64ToLimbs _ hl, mul_comm]
    exact hrun.state r hr w hw' l hl

/-- The honest trace of 300 zero bytes: three chained blocks, and a dummy segment after them. -/
theorem buildMessageAirBundle_sound_threeBlocks :
    let bundle := buildMessageAirBundle initialState (List.replicate 300 0)
    let blocks := paddedBlocks (List.replicate 300 0)
    let H := fun i => chainState initialState (blocks.take i)
    blocks.length = 3 ∧ bundle.main.height = 4 * 128 ∧ ∀ (i : ℕ) (hi : i < blocks.length),
      let t := compressBlock (H i) blocks[i]
      H (i + 1) = feedForward (H i) t.lastRoundState ∧
      (∀ r ≤ 80, ∀ w < 8, ∀ l < 4,
        bundle.main.rowView (128 * i + r) (limbCol w l) = fromU16 (u64ToLimbs (t.roundStates[r]!)[w]!)[l]!) ∧
      (i + 1 = blocks.length → bundle.finalPublicValues = t.lastRoundState.map bb) := by
  refine ⟨paddedBlocks_length_threeBlocks, ?_, ?_⟩
  · rw [bundle_main_height, totalRows_threeBlocks]
  · exact (buildMessageAirBundle_sound initialState (List.replicate 300 0) _ _ 0 rfl rfl
      (bundle_vanishes initialState (List.replicate 300 0) 0)).2.2

/-! ## The statement is determined by the preprocessed matrix -/

/-- Equal preprocessed rows 0 to 15 come from equal blocks. -/
theorem block_eq_of_prepAt {P : ℕ → RowView} {s s' t t' : State} {b b' : Block} {final final' : ℕ → Bool}
    (h : ∀ r < 16, PrepAt (P r) s (traceWord (compressBlock t b)) r (final r))
    (h' : ∀ r < 16, PrepAt (P r) s' (traceWord (compressBlock t' b')) r (final' r)) : b = b' := by
  refine blockWord_inj fun r hr => ?_
  have := (h r hr).word.inj (h' r hr).word
  rwa [traceWord_compressBlock _ _ (by omega), traceWord_compressBlock _ _ (by omega), W_lt _ hr, W_lt _ hr] at this

/-- The round selector marks the real segments. -/
theorem bundle_roundSelector (s : State) (message : List U8) {j : ℕ} (hj : j * 128 < totalRows message) :
    (buildMessageAirBundle s message).preprocessed.rowView (j * 128) prepRoundSelectorCol =
      fromBool (j < (paddedBlocks message).length) := by
  by_cases h : j < (paddedBlocks message).length
  · rw [decide_eq_true h]
    exact (bundle_prepAt s message h (show 0 < 128 by omega)).round
  · rw [decide_eq_false h, (bundle_dummy s message (by omega) hj).2]
    exact cell_replicate _

/-- The number of blocks can be read off the preprocessed matrix. -/
theorem paddedBlocks_length_le_of_bundle {s s' : State} {message message' : List U8}
    (h : (buildMessageAirBundle s message).preprocessed = (buildMessageAirBundle s' message').preprocessed) :
    (paddedBlocks message').length ≤ (paddedBlocks message).length := by
  have htotal : totalRows message = totalRows message' := by
    rw [← bundle_prep_height s, ← bundle_prep_height s', h]
  -- the segment after the last real one is dummy in one matrix and real in the other
  by_contra hlt
  have hj : (paddedBlocks message).length < (paddedBlocks message').length := by omega
  have hle := segment_le_totalRows message' hj
  have hsel := bundle_roundSelector s message (j := (paddedBlocks message).length) (by omega)
  rw [h, bundle_roundSelector s' message' (by omega), decide_eq_true hj, decide_eq_false (by omega)] at hsel
  exact one_ne_zero hsel

/-- The state and the message of a bundle can be read off its preprocessed matrix. -/
theorem statement_of_bundle {s s' : State} {message message' : List U8}
    (h : (buildMessageAirBundle s message).preprocessed = (buildMessageAirBundle s' message').preprocessed) :
    s = s' ∧ message = message' := by
  have hlen : (paddedBlocks message).length = (paddedBlocks message').length :=
    le_antisymm (paddedBlocks_length_le_of_bundle h.symm) (paddedBlocks_length_le_of_bundle h)
  have hpos := paddedBlocks_length_pos message
  constructor
  -- the states are read off row 0, the blocks off rows 0 to 15 of their segments
  · have h0 := (bundle_prepAt s message hpos (show 0 < 128 by omega)).state
    rw [h] at h0
    exact h0.inj (bundle_prepAt s' message' (by omega) (show 0 < 128 by omega)).state
  · refine paddedBlocks_injective (List.ext_getElem hlen fun j hj hj' => ?_)
    have hrow : ∀ r < 16, _ := fun r (hr : r < 16) => bundle_prepAt s message hj (show r < 128 by omega)
    have hrow' : ∀ r < 16, _ := fun r (hr : r < 16) => bundle_prepAt s' message' hj' (show r < 128 by omega)
    rw [h] at hrow
    have := block_eq_of_prepAt hrow hrow'
    rwa [blockAt, blockAt, List.getD_eq_getElem _ _ hj, List.getD_eq_getElem _ _ hj'] at this

/-- The state and the block can be read off the preprocessed matrix of a block. -/
theorem prepTrace_eq_iff {s s' : State} {b b' : Block} :
    buildPlonky3PreprocessedTraceFromInstance s b = buildPlonky3PreprocessedTraceFromInstance s' b' ↔
      s = s' ∧ b = b' := by
  constructor
  · intro h
    have hrow : ∀ r < 16, _ := fun r (hr : r < 16) => prepTrace_prepAt s b (show r < 128 by omega)
    rw [h] at hrow
    exact ⟨(hrow 0 (by omega)).state.inj (prepTrace_prepAt s' b' (by omega)).state,
      block_eq_of_prepAt hrow fun r hr => prepTrace_prepAt s' b' (by omega)⟩
  · rintro ⟨rfl, rfl⟩
    rfl

/-- The preprocessed matrix binds the statement: of a message of any length, and of a single block. -/
theorem preprocessed_binds :
    (∀ (s s' : State) (message message' : List U8),
      (buildMessageAirBundle s message).preprocessed = (buildMessageAirBundle s' message').preprocessed ↔
        s = s' ∧ message = message') ∧
    ∀ (s s' : State) (b b' : Block),
      buildPlonky3PreprocessedTraceFromInstance s b = buildPlonky3PreprocessedTraceFromInstance s' b' ↔
        s = s' ∧ b = b' := by
  refine ⟨fun s s' message message' => ⟨statement_of_bundle, ?_⟩, fun s s' b b' => prepTrace_eq_iff⟩
  rintro ⟨rfl, rfl⟩
  rfl

end Sha512Circuit
