/-
Block boundaries: the verdict on a row that is the last one, or whose transition selector is off,
does not depend on the row that follows; so neither on how the last row is followed nor on the cells
of another segment.
-/
import Sha512Circuit.Air.Message

namespace Sha512Circuit

/-! ## One row -/

/-- The verdict on a window depends on the next row only through the transition constraints, and not
at all if one of their two filters is zero. -/
theorem vanish_eval_congr {w w' : AirWindow} (hloc : w.loc = w'.loc) (hprep : w.locPrep = w'.locPrep)
    (hpub : w.publicValues = w'.publicValues) (hlast : w.isLast = w'.isLast) (htrans : w.isTransition = w'.isTransition)
    (h : w.next = w'.next ∨ w.isTransition = 0 ∨ w.locPrep prepTransitionSelectorCol = 0) :
    Vanish (eval w) ↔ Vanish (eval w') := by
  rw [vanish_eval, vanish_eval, ← hloc, ← hprep, ← hpub, ← hlast, ← htrans]
  rcases h with h | h | h
  · rw [← h]
  · simp only [h, true_or]
  · simp only [h, true_or, or_true]

/-- Two checkers that agree on the local rows and the flags, at a boundary. -/
theorem run_violated_congr {main main' prep prep' : RowMajorMatrix} {isFirst isLast : Bool}
    {publicValues : Vector BabyBear 8} (hloc : main.rowView 0 = main'.rowView 0)
    (hprep : prep.rowView 0 = prep'.rowView 0) (h : isLast = true ∨ prep.rowView 0 prepTransitionSelectorCol = 0) :
    (AirConstraintChecker.new main prep isFirst isLast publicValues).run.violated =
      (AirConstraintChecker.new main' prep' isFirst isLast publicValues).run.violated := by
  have key : ∀ b b' : Bool, (b = false ↔ b' = false) → b = b' := by decide
  refine key _ _ ?_
  rw [run_violated, run_violated]
  refine and_congr_right fun _ => vanish_eval_congr hloc hprep rfl rfl rfl (.inr ?_)
  rcases h with rfl | h
  · exact .inl rfl
  · exact .inr h

/-! ## The last row -/

/-- A row accepted under one successor of the last row is accepted under any other. -/
theorem rowAccepted_wrap {main prep : RowMajorMatrix} {publicValues : Vector BabyBear 8} (hw : main.width = airWidth)
    (hpw : prep.width = airWidth) {r : ℕ} (hr : r < main.height) (hpr : r < prep.height) (wrap wrap' : ℕ) :
    rowAccepted main prep publicValues r wrap = rowAccepted main prep publicValues r wrap' := by
  rw [Bool.eq_iff_iff, rowAccepted_iff, rowAccepted_iff, window_checkerAt_of_lt hw hpw hr hpr,
    window_checkerAt_of_lt hw hpw hr hpr]
  refine vanish_eval_congr rfl rfl rfl rfl rfl ?_
  dsimp only
  by_cases hlast : r + 1 < main.height
  · exact .inl (by rw [nextRow, nextRow, if_pos hlast, if_pos hlast])
  · have : (r + 1 == main.height) = true := beq_iff_eq.2 (by omega)
    exact .inr (.inl (by rw [this]; rfl))

/-- The debug checker against windows whose last row is followed by row `wrap`, for a main trace of
the shape its caller checks: with more rows than the preprocessed trace it would panic. -/
theorem verifyWithPreprocessed_eq_airVanishes {main prep : RowMajorMatrix} {publicValues : Vector BabyBear 8}
    (hw : main.width = airWidth) (hh : main.height ≤ traceRows) (wrap : ℕ) :
    verifyWithPreprocessed main prep publicValues =
      (decide (prep.width = airWidth ∧ prep.height = traceRows) && airVanishes main prep publicValues wrap) := by
  unfold verifyWithPreprocessed airVanishes
  by_cases hp : prep.width = airWidth ∧ prep.height = traceRows
  · rw [if_neg (by tauto), decide_eq_true hp, Bool.true_and, Bool.eq_iff_iff]
    simp only [List.all_eq_true, List.mem_range]
    refine forall₂_congr fun r hr => ?_
    rw [rowAccepted_wrap hw hp.1 hr (by omega) r wrap]
  · rw [if_pos (by tauto), decide_eq_false hp, Bool.false_and]

/-! ## Segments -/

/-- Two matrices of the AIR width with `total` rows that agree on the rows of segment `j`. -/
structure AgreeOnSegment (total j : ℕ) (m m' : RowMajorMatrix) : Prop where
  width : m.width = airWidth
  width' : m'.width = airWidth
  height : m.height = total
  height' : m'.height = total
  row : ∀ r < 128, m.rowView (j * 128 + r) = m'.rowView (j * 128 + r)

/-- Cutting a matrix off after segment `j` leaves the segment. -/
theorem agreeOnSegment_rowsUpTo {total j : ℕ} {m : RowMajorMatrix} {f : ℕ → Row} (hw : m.width = airWidth)
    (hh : m.height = total) (hrow : ∀ i < total, m.rowView i = (f i).cell) (hj : (j + 1) * 128 ≤ total) :
    AgreeOnSegment total j m (.ofRows (rowsUpTo total f ((j + 1) * 128))) := by
  refine ⟨hw, rfl, hh, ofRows_range_height _ _, fun r hr => ?_⟩
  rw [rowsUpTo, ofRows_range_rowView _ (by omega), if_pos (by omega), hrow _ (by omega)]

theorem rowsUpTo_rowView_after {total m i : ℕ} (f : ℕ → Row) (hi : i < total) (hm : m ≤ i) :
    (RowMajorMatrix.ofRows (rowsUpTo total f m)).rowView i = zeroRow.cell := by
  rw [rowsUpTo, ofRows_range_rowView _ hi, if_neg (not_lt.2 hm)]

/-- The first row of a block holds the first round constant, and has the round selector on. -/
theorem bundle_start_ne_zeroRow (s : State) (message : List U8) {j : ℕ} (hj : j < (paddedBlocks message).length) :
    (buildMessageAirBundle s message).main.rowView (j * 128) ≠ zeroRow.cell ∧
      (buildMessageAirBundle s message).preprocessed.rowView (j * 128) ≠ zeroRow.cell := by
  constructor
  · intro h
    have hK := (traceRow_word (segTrace s (paddedBlocks message) j) 0).2 (by omega)
    have hzero : WordAt zeroRow.cell (limbCol wordK) 0 := fun l _ => by
      rw [limb_zero, Nat.cast_zero]
      exact cell_replicate _
    rw [← bundle_main_segment s message hj (by omega), Nat.add_zero, h] at hK
    exact absurd (hK.inj hzero) (by decide)
  · intro h
    have hround := (bundle_prepAt s message hj (show 0 < 128 by omega)).round
    rw [Nat.add_zero, h] at hround
    exact zero_ne_one ((cell_replicate _).symm.trans hround)

/-- The transition selector of a bundle is off in the last row of every segment, real or dummy. -/
theorem bundle_transition_last (s : State) (message : List U8) {j : ℕ} (hj : j * 128 + 127 < totalRows message) :
    (buildMessageAirBundle s message).preprocessed.rowView (j * 128 + 127) prepTransitionSelectorCol = 0 := by
  by_cases h : j < (paddedBlocks message).length
  · rw [(bundle_prepAt s message h (show 127 < 128 by omega)).transition]
    rfl
  · rw [(bundle_dummy s message (by omega) hj).2]
    exact cell_replicate _

/-- The verdict on the rows of a segment depends on the segment only. -/
theorem rowAccepted_segment {s : State} {message : List U8} {j r : ℕ} {M M' P P' : RowMajorMatrix}
    {publicValues : Vector BabyBear 8} (hj : (j + 1) * 128 ≤ totalRows message) (hr : r < 128)
    (hM : AgreeOnSegment (totalRows message) j M M')
    (hP : AgreeOnSegment (totalRows message) j (buildMessageAirBundle s message).preprocessed P)
    (hP' : AgreeOnSegment (totalRows message) j (buildMessageAirBundle s message).preprocessed P') (wrap wrap' : ℕ) :
    rowAccepted M P publicValues (j * 128 + r) wrap = rowAccepted M' P' publicValues (j * 128 + r) wrap' := by
  have hi : j * 128 + r < totalRows message := by omega
  rw [Bool.eq_iff_iff, rowAccepted_iff, rowAccepted_iff,
    window_checkerAt_of_lt hM.width hP.width' (hM.height ▸ hi) (hP.height' ▸ hi),
    window_checkerAt_of_lt hM.width' hP'.width' (hM.height' ▸ hi) (hP'.height' ▸ hi), hM.height, hM.height', hP.height',
    hP'.height']
  refine vanish_eval_congr (hM.row r hr) ((hP.row r hr).symm.trans (hP'.row r hr)) rfl rfl rfl ?_
  dsimp only
  -- within the segment the next rows agree, after its last row the selector is off
  by_cases hlast : r = 127
  · subst hlast
    exact .inr (.inr (by rw [← hP.row 127 hr, bundle_transition_last s message hi]))
  · rw [nextRow, nextRow, if_pos (by omega), if_pos (by omega), Nat.add_assoc]
    exact .inl (hM.row (r + 1) (by omega))

/-- Block boundaries isolate rows: at a boundary the verdict on a window does not depend on its next
rows; so the debug checker agrees with any choice of the row after the last, and the verdict on a row
of a message trace does not depend on the cells of other segments. -/
theorem boundaries_isolate :
    (∀ (main main' prep prep' : RowMajorMatrix) (isFirst isLast : Bool) (publicValues : Vector BabyBear 8),
      main.rowView 0 = main'.rowView 0 → prep.rowView 0 = prep'.rowView 0 →
      isLast = true ∨ prep.rowView 0 prepTransitionSelectorCol = 0 →
      (AirConstraintChecker.new main prep isFirst isLast publicValues).run.violated =
        (AirConstraintChecker.new main' prep' isFirst isLast publicValues).run.violated) ∧
    (∀ (main prep : RowMajorMatrix) (publicValues : Vector BabyBear 8) (wrap : ℕ),
      main.width = airWidth → main.height ≤ traceRows →
      verifyWithPreprocessed main prep publicValues =
        (decide (prep.width = airWidth ∧ prep.height = traceRows) && airVanishes main prep publicValues wrap)) ∧
    ∀ (s : State) (message : List U8) (j r : ℕ) (M M' P P' : RowMajorMatrix) (publicValues : Vector BabyBear 8)
      (wrap wrap' : ℕ), (j + 1) * 128 ≤ totalRows message → r < 128 →
      AgreeOnSegment (totalRows message) j M M' →
      AgreeOnSegment (totalRows message) j (buildMessageAirBundle s message).preprocessed P →
      AgreeOnSegment (totalRows message) j (buildMessageAirBundle s message).preprocessed P' →
      rowAccepted M P publicValues (j * 128 + r) wrap = rowAccepted M' P' publicValues (j * 128 + r) wrap' := by
  refine ⟨fun main main' prep prep' isFirst isLast publicValues hloc hprep h => run_violated_congr hloc hprep h,
    fun main prep publicValues wrap hw hh => verifyWithPreprocessed_eq_airVanishes hw hh wrap, ?_⟩
  exact fun s message j r M M' P P' publicValues wrap wrap' hj hr hM hP hP' =>
    rowAccepted_segment hj hr hM hP hP' wrap wrap'

/-- A last row of zeros before two different rows; the honest trace of the zero block; and the matrices
of 300 zero bytes, cut off after their second block or not. -/
theorem boundaries_isolate_zeros :
    ((AirConstraintChecker.new (.ofRows [zeroRow, zeroRow]) (.ofRows [zeroRow]) false true
        (Vector.replicate 8 0)).run.violated =
      (AirConstraintChecker.new (.ofRows [zeroRow, Vector.replicate airWidth 1]) (.ofRows [zeroRow]) false true
        (Vector.replicate 8 0)).run.violated) ∧
    verifyWithPreprocessed (buildPlonky3AirTrace (compressBlock initialState (Vector.replicate 128 0)))
        (buildPlonky3PreprocessedTraceFromInstance initialState (Vector.replicate 128 0)) (Vector.replicate 8 0) =
      (decide ((buildPlonky3PreprocessedTraceFromInstance initialState (Vector.replicate 128 0)).width = airWidth ∧
          (buildPlonky3PreprocessedTraceFromInstance initialState (Vector.replicate 128 0)).height = traceRows) &&
        airVanishes (buildPlonky3AirTrace (compressBlock initialState (Vector.replicate 128 0)))
          (buildPlonky3PreprocessedTraceFromInstance initialState (Vector.replicate 128 0)) (Vector.replicate 8 0) 0) ∧
    let message : List U8 := List.replicate 300 0
    let bundle := buildMessageAirBundle initialState message
    ∃ M P : RowMajorMatrix,
      AgreeOnSegment (totalRows message) 1 bundle.main M ∧ AgreeOnSegment (totalRows message) 1 bundle.preprocessed P ∧
      bundle.main.rowView 256 ≠ M.rowView 256 ∧ bundle.preprocessed.rowView 256 ≠ P.rowView 256 ∧
      ∀ r < 128, rowAccepted bundle.main bundle.preprocessed bundle.finalPublicValues (1 * 128 + r) 0 = true ∧
        rowAccepted M P bundle.finalPublicValues (1 * 128 + r) 0 = true := by
  obtain ⟨hrow, hcyclic, hsegment⟩ := boundaries_isolate
  refine ⟨hrow _ _ _ _ _ _ _ ?_ rfl (.inl rfl), hcyclic _ _ _ 0 (airTrace_width _) (airTrace_height _).le, ?_⟩
  · rw [ofRows_rowView _ (by simp), ofRows_rowView _ (by simp)]
    rfl
  · intro message bundle
    have hn : (paddedBlocks message).length = 3 := paddedBlocks_length_threeBlocks
    have htotal : totalRows message = 4 * 128 := totalRows_threeBlocks
    have hj : (1 + 1) * 128 ≤ totalRows message := by omega
    have hM := agreeOnSegment_rowsUpTo (bundle_main_width initialState message) (bundle_main_height initialState message)
      (fun i hi => bundle_main_rowView initialState message hi) hj
    have hP := agreeOnSegment_rowsUpTo (bundle_prep_width initialState message) (bundle_prep_height initialState message)
      (fun i hi => bundle_prep_rowView initialState message hi) hj
    have hself : AgreeOnSegment (totalRows message) 1 bundle.preprocessed bundle.preprocessed :=
      ⟨hP.width, hP.width, hP.height, hP.height, fun _ _ => rfl⟩
    have hcut := fun f => rowsUpTo_rowView_after (m := (1 + 1) * 128) f (show 256 < totalRows message by omega) le_rfl
    obtain ⟨hmain, hprep⟩ := bundle_start_ne_zeroRow initialState message (show 2 < (paddedBlocks message).length by omega)
    refine ⟨_, _, hM, hP, fun h => hmain (h.trans (hcut _)), fun h => hprep (h.trans (hcut _)), fun r hr => ?_⟩
    have hrow : rowAccepted bundle.main bundle.preprocessed bundle.finalPublicValues (1 * 128 + r) 0 = true :=
      rowAccepted_iff.2 ((airVanishes_iff 0).1 (bundle_vanishes initialState message 0) _
        (by rw [bundle_main_height]; omega))
    exact ⟨hrow, (hsegment initialState message 1 r _ _ _ _ _ 0 0 hj hr hM hself hP).symm.trans hrow⟩

end Sha512Circuit
