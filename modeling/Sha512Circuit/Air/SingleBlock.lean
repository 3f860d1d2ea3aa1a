/-
The AIR of one block: the row checker accepts only main traces whose rounds are those of the
instance, it accepts the honest trace, and on traces built from a recorded witness it agrees with
the word-level validator.
-/
import Sha512Circuit.Air.Windows
import Sha512Circuit.Compress.Validate

namespace Sha512Circuit

/-! ## Soundness -/

/-- An accepted main trace of one block is one segment, whose rows 0 to 80 are the run. -/
theorem verifyWithPreprocessed_run {s : State} {b : Block} {M : RowMajorMatrix} {publicValues : Vector BabyBear 8}
    (hw : M.width = airWidth) (hh : M.height = traceRows)
    (h : verifyWithPreprocessed M (buildPlonky3PreprocessedTraceFromInstance s b) publicValues = true) :
    SegmentRun M.rowView (compressBlock s b) ∧ publicValues = publicValuesOf (compressBlock s b) := by
  have hph : (buildPlonky3PreprocessedTraceFromInstance s b).height = M.height := by rw [prepTrace_height, hh]; rfl
  rw [verifyWithPreprocessed_eq hw (prepTrace_width s b) hph hh] at h
  have hP : ∀ r < 128, PrepAt ((buildPlonky3PreprocessedTraceFromInstance s b).rowView (0 + r)) s
      (traceWord (compressBlock s b)) r (r == 80) := fun r hr => by
    rw [Nat.zero_add]
    exact prepTrace_prepAt s b hr
  have hseg := segmentHolds_of_airVanishes hw (prepTrace_width s b) hph h
    (show 0 + 128 ≤ M.height by rw [hh]; exact le_rfl) hP
  have hrun := hseg.run hP
  simp only [Nat.zero_add] at hrun
  exact ⟨hrun, hseg.publicValues_eq hP rfl⟩

/-- Honest cells of a round row: its words and its carries. -/
theorem roundRow_cells (t : BlockTrace) {r : ℕ} (hr : r < 80) :
    (∀ i < 16, WordAt ((buildPlonky3AirTrace t).rowView r) (limbCol i)
      (roundWords t.roundStates[r]! t.words[r]! K[r]! i)) ∧
    ∀ c, IsCarryCol c → CarryAt ((buildPlonky3AirTrace t).rowView r) c
      (rowCarry (roundWords t.roundStates[r]! t.words[r]! K[r]!) (schedOps t.words r) c) := by
  have hfill := roundRow_filled t (lagsBefore (traceWord t) r) r
  rw [airTrace_rowView t (by omega), traceRow, if_pos hr]
  exact ⟨hfill.words, hfill.carryAt⟩

/-- The row checker passes the honest trace. -/
theorem airTrace_verifies (s : State) (b : Block) :
    verifyWithPreprocessed (buildPlonky3AirTrace (compressBlock s b)) (buildPlonky3PreprocessedTraceFromInstance s b)
      (publicValuesOf (compressBlock s b)) = true := by
  have hh := airTrace_height (compressBlock s b)
  rw [verifyWithPreprocessed_eq (airTrace_width _) (prepTrace_width s b) (by rw [prepTrace_height, hh]) hh]
  exact airTrace_vanishes s b 127

/-- Soundness for one block: a main trace with arbitrary cells on which `eval` reports no violation
has the limbs of the recorded states in rows 0 to 80, the honest words and carries in the rounds,
and the public values of the instance. -/
theorem verifyWithPreprocessed_sound (s : State) (b : Block) (M : RowMajorMatrix) (publicValues : Vector BabyBear 8)
    (hw : M.width = airWidth) (hh : M.height = traceRows)
    (h : verifyWithPreprocessed M (buildPlonky3PreprocessedTraceFromInstance s b) publicValues = true) :
    let t := compressBlock s b
    (∀ r ≤ 80, ∀ i < 8, ∀ l < 4, M.rowView r (limbCol i l) = fromU16 (u64ToLimbs (t.roundStates[r]!)[i]!)[l]!) ∧
    (∀ r < 80, ∀ i, wordW ≤ i → i < wordCount → ∀ l < 4,
      M.rowView r (limbCol i l) = (buildPlonky3AirTrace t).rowView r (limbCol i l)) ∧
    (∀ r < 80, ∀ c, carryT1Base ≤ c → c < lagLimbBase →
      M.rowView r c = (buildPlonky3AirTrace t).rowView r c) ∧
    publicValues = t.lastRoundState.map bb := by
  obtain ⟨hrun, hpub⟩ := verifyWithPreprocessed_run hw hh h
  refine ⟨fun r hr i hi l hl => ?_, fun r hr i _ hi l hl => ?_, fun r hr c h1 h2 => ?_, hpub⟩
  · rw [fromU16_u64ToLimbs _ hl]
    exact hrun.state r hr i hi l hl
  · rw [hrun.words r hr i hi l hl, (roundRow_cells _ hr).1 i hi l hl]
  · rw [(hrun.carries r hr c h1 h2).cell, ((roundRow_cells _ hr).2 c (.inl ⟨h1, h2⟩)).cell]

/-- The honest trace of the all-zero block from the standard's initial state: row 80. -/
theorem verifyWithPreprocessed_sound_zeroBlock :
    let t := compressBlock initialState (Vector.replicate 128 0)
    ∀ i < 8, ∀ l < 4, (buildPlonky3AirTrace t).rowView 80 (limbCol i l) =
      fromU16 (u64ToLimbs (t.roundStates[80]!)[i]!)[l]! :=
  (verifyWithPreprocessed_sound initialState (Vector.replicate 128 0) (buildPlonky3AirTrace _) (publicValuesOf _)
    (airTrace_width _) (airTrace_height _) (airTrace_verifies _ _)).1 80 le_rfl

/-! ## Completeness -/

/-- Completeness for one block: the honest trace passes, and `eval` vanishes on every row, whatever
row follows the last. -/
theorem verifyPlonky3AirTraceWithInstance_complete (s : State) (b : Block) :
    verifyPlonky3AirTraceWithInstance (buildPlonky3AirTrace (compressBlock s b)) s b = true ∧
    ∀ wrap, airVanishes (buildPlonky3AirTrace (compressBlock s b)) (buildPlonky3PreprocessedTraceFromInstance s b)
      (publicValuesOf (compressBlock s b)) wrap = true := by
  refine ⟨?_, airTrace_vanishes s b⟩
  unfold verifyPlonky3AirTraceWithInstance
  rw [if_neg (by rw [airTrace_width, airTrace_height]; simp)]
  exact airTrace_verifies s b

/-! ## Agreement with the word-level validator -/

/-- A trace whose main matrix passes for an instance records the instance's words and states. -/
theorem eq_of_airTrace_run {t : BlockTrace} {s : State} {b : Block}
    (h : SegmentRun (buildPlonky3AirTrace t).rowView (compressBlock s b)) :
    t.words = (compressBlock s b).words ∧ t.roundStates = (compressBlock s b).roundStates := by
  have hrow : ∀ r < 128, (buildPlonky3AirTrace t).rowView r = (traceRow t r).cell := fun r hr => airTrace_rowView t hr
  constructor
  · refine Bytes.ext_getElem! fun r hr => ?_
    have := h.words r hr 8 (by omega)
    rw [hrow r (by omega)] at this
    have hword := (traceRow_word t r).1
    rw [traceWord, if_pos hr] at hword
    exact hword.inj this
  · refine Bytes.ext_getElem! fun r hr => ?_
    obtain ⟨carry, hfill⟩ := exists_traceRow_filled t r
    have hstate : StateAt (traceRow t r).cell (traceState t r) := fun i hi => by
      rw [← traceWords_state t r hi]
      exact hfill.words i (by omega)
    have := h.state r (by omega)
    rw [hrow r (by omega)] at this
    rw [traceState, if_pos (by omega)] at hstate
    exact hstate.inj this

/-- The two validators agree on every recorded trace: the word-level one accepts exactly when the
AIR accepts the trace built from it for the block of its first sixteen words and the feed-forward
is right. -/
theorem verifyBlockTrace_iff_air (t : BlockTrace) :
    (∀ i < 16, blockWord (blockOfWords t.words) i = t.words[i]!) ∧
    (verifyBlockTrace t = true ↔
      verifyPlonky3AirTraceWithInstance (buildPlonky3AirTrace t) t.inputState (blockOfWords t.words) = true ∧
      ∀ (i : ℕ) (hi : i < 8), t.outputState[i] = t.inputState[i] + t.lastRoundState[i]) := by
  refine ⟨fun i hi => blockWord_blockOfWords t.words hi, fun h => ⟨?_, fun i hi => ?_⟩, fun ⟨h, hout⟩ => ?_⟩
  -- an accepted trace is a recorded compression, and those pass the AIR
  · have ht := eq_compressBlock_of_verifyBlockTrace h
    generalize t.inputState = s at ht ⊢
    generalize blockOfWords t.words = b at ht ⊢
    subst ht
    unfold verifyPlonky3AirTraceWithInstance
    rw [if_neg (by rw [airTrace_width, airTrace_height]; simp)]
    exact airTrace_verifies s b
  · have hff := ((verifyBlockTrace_iff t).1 h).2.2.2
    rw [hff, feedForward_eq, Vector.getElem_ofFn]; rfl
  · unfold verifyPlonky3AirTraceWithInstance at h
    rw [if_neg (by rw [airTrace_width, airTrace_height]; simp)] at h
    obtain ⟨hrun, -⟩ := verifyWithPreprocessed_run (airTrace_width t) (airTrace_height t) h
    obtain ⟨hwords, hstates⟩ := eq_of_airTrace_run hrun
    -- the run fixes words and states, the remaining hypothesis the output
    have ht : t = compressBlock t.inputState (blockOfWords t.words) := by
      refine BlockTrace.ext (compressBlock_inputState _ _).symm hwords hstates ?_
      have hlast : t.lastRoundState = Fips.rounds (Fips.W (blockWord (blockOfWords t.words))) t.inputState 80 := by
        rw [← compressBlock_roundStates_last, BlockTrace.lastRoundState, hstates]
      rw [compressBlock_outputState, feedForward_eq, ← hlast]
      refine Vector.ext fun i hi => ?_
      rw [Vector.getElem_ofFn]
      exact hout i hi
    rw [ht]
    exact verifyBlockTrace_compressBlock _ _

end Sha512Circuit
