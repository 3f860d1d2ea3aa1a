/-
The matrices of a message as stacks of the matrices of its blocks: what the row checker accepts block
by block it accepts as one stack, what it accepts as a stack it accepts block by block up to the last
row of a segment, and a message of one block has the matrices of that block.
-/
import Sha512Circuit.Air.SingleBlock
import Sha512Circuit.Air.Boundaries

namespace Sha512Circuit

/-! ## One window for another -/

/-- A verdict carries over to a window with the same rows, apart from the final selector, if the
public values are right and the flags ask for no more. -/
theorem Vanish.of_window {w w' : AirWindow} (h : Vanish (eval w')) (hloc : w.loc = w'.loc)
    (hprep : ∀ c, c ≠ prepFinalSelectorCol → w.locPrep c = w'.locPrep c)
    (hpub : Vanish (evalPublic w.loc w.locPrep w.publicValues))
    (htrans : w.isTransition = 0 ∨ w.locPrep prepTransitionSelectorCol = 0 ∨ w'.isTransition ≠ 0 ∧ w.next = w'.next)
    (hlast : w.isLast = 0 ∨ w'.isLast ≠ 0) : Vanish (eval w) := by
  have h1 := prepBlockStartSelectorCol_eq
  have h2 := prepTransitionSelectorCol_eq
  have h3 := prepRoundSelectorCol_eq
  have h4 := prepInitWSelectorCol_eq
  have h5 := prepFinalSelectorCol_eq
  have hround := hprep prepRoundSelectorCol (by omega)
  have hinit := hprep prepInitWSelectorCol (by omega)
  have hlimb : ∀ v < 16, ∀ l < 4, w.locPrep (limbCol v l) = w'.locPrep (limbCol v l) := fun v hv l hl =>
    hprep _ (by rw [limbCol_eq]; omega)
  rw [vanish_eval] at h ⊢
  obtain ⟨hinst, hstart, -, hbits, hbitwise, hrange, hlags, htransition, hlastRow⟩ := h
  rw [hround, hloc]
  refine ⟨?_, ?_, hloc ▸ hpub, hbits, hbitwise, hrange, hlags, ?_, ?_⟩
  · rw [evalInstance_iff] at hinst ⊢
    obtain ⟨hK, hW, h0⟩ := hinst
    rw [hround, hinit]
    refine ⟨fun l hl => ?_, fun l hl => ?_, h0⟩
    · rw [hlimb _ (by decide) l hl]
      exact hK l hl
    · rw [hlimb _ (by decide) l hl]
      exact hW l hl
  · rw [evalBlockStart_iff] at hstart ⊢
    intro i hi l hl
    rw [hprep prepBlockStartSelectorCol (by omega), hlimb i (by omega) l hl]
    exact hstart i hi l hl
  -- the transition constraints read the two round selectors only
  · rcases htrans with h | h | ⟨hne, hnext⟩
    · exact .inl h
    · exact .inr (.inl h)
    · rcases htransition with h | h | h
      · exact absurd h hne
      · exact .inr (.inl ((hprep _ (by omega)).trans h))
      · refine .inr (.inr ?_)
        rw [evalTransition_iff] at h ⊢
        rwa [hround, hinit, hnext]
  · rcases hlast with h | h
    · exact .inl h
    · exact .inr (hlastRow.resolve_left h)

/-! ## The preprocessed rows of a segment -/

section Segments

variable (s : State) (message : List U8)

/-- A real segment of the preprocessed matrix of a message is the matrix of its block, with the final
selector of the last block only. -/
theorem bundle_prep_segment {j r : ℕ} (hj : j < (paddedBlocks message).length) (hr : r < 128) {c : ℕ}
    (hc : c ≠ prepFinalSelectorCol) :
    (buildMessageAirBundle s message).preprocessed.rowView (j * 128 + r) c =
      (buildPlonky3PreprocessedTraceFromInstance (chainState s ((paddedBlocks message).take j))
        (blockAt (paddedBlocks message) j)).rowView r c := by
  have hle := segment_le_totalRows message hj
  have hbundle := bundle_prepAt s message hj hr
  have hblock := prepTrace_prepAt (chainState s ((paddedBlocks message).take j)) (blockAt (paddedBlocks message) j) hr
  -- the two rewritten selectors already had their values
  by_cases h1 : c = prepBlockStartSelectorCol
  · rw [h1, hbundle.blockStart, hblock.blockStart]
  by_cases h2 : c = prepTransitionSelectorCol
  · rw [h2, hbundle.transition, hblock.transition]
  · rw [bundle_prep_rowView s message (by omega), prepTrace_rowView _ _ hr, bundlePrepRow,
      show (j * 128 + r) / 128 = j by omega, show (j * 128 + r) % 128 = r by omega, if_pos hj, rewriteSelectors,
      cell_set!_ne _ _ (Ne.symm hc), cell_set!_ne _ _ (Ne.symm h2), cell_set!_ne _ _ (Ne.symm h1)]
    rfl

/-- The window of row `r` of the matrices of one block. -/
theorem window_block {M : RowMajorMatrix} (hw : M.width = airWidth) (hh : M.height = 128) (b : Block)
    (publicValues : Vector BabyBear 8) {r : ℕ} (hr : r < 128) (wrap : ℕ) :
    (checkerAt M (buildPlonky3PreprocessedTraceFromInstance s b) publicValues r wrap).window =
      { loc := M.rowView r, next := M.rowView (nextRow 128 r wrap)
        locPrep := (buildPlonky3PreprocessedTraceFromInstance s b).rowView r
        nextPrep := (buildPlonky3PreprocessedTraceFromInstance s b).rowView (nextRow 128 r wrap)
        publicValues, isFirst := fromBool (r == 0), isLast := fromBool (r + 1 == 128)
        isTransition := fromBool !(r + 1 == 128) } := by
  have hph := prepTrace_height s b
  rw [window_checkerAt hw (prepTrace_width s b) (by rw [hph, hh]) (by rwa [hh]), hh]

/-- The window of a row of a main matrix of the height of a message. -/
theorem window_bundle {M : RowMajorMatrix} (hw : M.width = airWidth) (hh : M.height = totalRows message)
    (publicValues : Vector BabyBear 8) {i : ℕ} (hi : i < totalRows message) (wrap : ℕ) :
    (checkerAt M (buildMessageAirBundle s message).preprocessed publicValues i wrap).window =
      { loc := M.rowView i, next := M.rowView (nextRow (totalRows message) i wrap)
        locPrep := (buildMessageAirBundle s message).preprocessed.rowView i
        nextPrep := (buildMessageAirBundle s message).preprocessed.rowView (nextRow (totalRows message) i wrap)
        publicValues, isFirst := fromBool (i == 0), isLast := fromBool (i + 1 == totalRows message)
        isTransition := fromBool !(i + 1 == totalRows message) } := by
  have hph := bundle_prep_height s message
  rw [window_checkerAt hw (bundle_prep_width s message) (by rw [hph, hh]) (by rwa [hh]), hh]

/-- A matrix is accepted for a message if the rows of its real segments are, and the others are zero. -/
theorem airVanishes_of_segments {M : RowMajorMatrix} (hw : M.width = airWidth) (hh : M.height = totalRows message)
    {publicValues : Vector BabyBear 8} {wrap : ℕ}
    (hseg : ∀ j < (paddedBlocks message).length, ∀ r < 128,
      rowAccepted M (buildMessageAirBundle s message).preprocessed publicValues (j * 128 + r) wrap = true)
    (hdummy : ∀ i < totalRows message, ¬ i / 128 < (paddedBlocks message).length → M.rowView i = zeroRow.cell) :
    airVanishes M (buildMessageAirBundle s message).preprocessed publicValues wrap = true := by
  rw [airVanishes_iff, hh]
  intro i hi
  by_cases hj : i / 128 < (paddedBlocks message).length
  · have hrow := hseg (i / 128) hj (i % 128) (Nat.mod_lt i (by omega))
    rw [Nat.div_add_mod'] at hrow
    exact rowAccepted_iff.1 hrow
  -- a dummy segment has no selectors either
  · rw [window_bundle s message hw hh _ hi]
    exact zeroRow_vanish (hdummy i hi hj) (bundle_dummy s message (by omega) hi).2

end Segments

/-! ## Stacks and segments -/

theorem cell_rowOfView {m : RowMajorMatrix} (hw : m.width = airWidth) (r : ℕ) :
    (rowOfView (m.rowView r)).cell = m.rowView r := by
  funext c
  unfold rowOfView Row.cell
  rw [Array.getD_eq_getD_getElem?, Vector.toArray_ofFn, Array.getElem?_ofFn]
  split
  · rfl
  · case isFalse hc => rw [rowView_of_ge hw r (not_lt.1 hc)]; rfl

/-- Matrices of one segment each, one below the other, and zero rows to fill up. -/
def stackSegments (Ms : ℕ → RowMajorMatrix) (n total : ℕ) : RowMajorMatrix :=
  .ofRows ((List.range total).map fun i =>
    if i / 128 < n then rowOfView ((Ms (i / 128)).rowView (i % 128)) else zeroRow)

/-- Segment `j` of a matrix, as a matrix of its own. -/
def segmentRows (M : RowMajorMatrix) (j : ℕ) : RowMajorMatrix :=
  .ofRows ((List.range 128).map fun r => rowOfView (M.rowView (j * 128 + r)))

theorem stackSegments_height (Ms : ℕ → RowMajorMatrix) (n total : ℕ) : (stackSegments Ms n total).height = total :=
  ofRows_range_height _ _

theorem stackSegments_rowView {Ms : ℕ → RowMajorMatrix} {n total j r : ℕ} (hw : (Ms j).width = airWidth) (hj : j < n)
    (hr : r < 128) (hi : j * 128 + r < total) : (stackSegments Ms n total).rowView (j * 128 + r) = (Ms j).rowView r := by
  have hdiv : (j * 128 + r) / 128 = j := by omega
  have hmod : (j * 128 + r) % 128 = r := by omega
  rw [stackSegments, ofRows_range_rowView _ hi, hdiv, hmod, if_pos hj, cell_rowOfView hw]

theorem stackSegments_dummy {Ms : ℕ → RowMajorMatrix} {n total i : ℕ} (hn : ¬ i / 128 < n) (hi : i < total) :
    (stackSegments Ms n total).rowView i = zeroRow.cell := by
  rw [stackSegments, ofRows_range_rowView _ hi, if_neg hn]

theorem segmentRows_height (M : RowMajorMatrix) (j : ℕ) : (segmentRows M j).height = 128 := ofRows_range_height _ _

theorem segmentRows_rowView {M : RowMajorMatrix} (hw : M.width = airWidth) (j : ℕ) {r : ℕ} (hr : r < 128) :
    (segmentRows M j).rowView r = M.rowView (j * 128 + r) := by
  rw [segmentRows, ofRows_range_rowView _ hr, cell_rowOfView hw]

/-! ## From blocks to a message -/

/-- A row of an accepted matrix of one block. -/
theorem vanish_of_verify {s : State} {b : Block} {M : RowMajorMatrix}
    (h : verifyPlonky3AirTraceWithInstance M s b = true) : M.width = airWidth ∧ M.height = 128 ∧
      ∀ r < 128, Vanish (eval (checkerAt M (buildPlonky3PreprocessedTraceFromInstance s b)
        (publicValuesOf (compressBlock s b)) r 127).window) := by
  unfold verifyPlonky3AirTraceWithInstance at h
  split at h
  · cases h
  · rename_i hshape
    obtain ⟨hw, hh⟩ := not_or.1 hshape
    have hw := not_not.1 hw
    have hh : M.height = traceRows := not_not.1 hh
    rw [verifyWithPreprocessed_eq hw (prepTrace_width s b) (by rw [prepTrace_height, hh]; rfl) hh, airVanishes_iff, hh] at h
    exact ⟨hw, hh, h⟩

theorem verify_of_vanish {s : State} {b : Block} {M : RowMajorMatrix} (hw : M.width = airWidth) (hh : M.height = 128)
    (h : ∀ r < 128, Vanish (eval (checkerAt M (buildPlonky3PreprocessedTraceFromInstance s b)
      (publicValuesOf (compressBlock s b)) r 127).window)) : verifyPlonky3AirTraceWithInstance M s b = true := by
  have hh : M.height = traceRows := hh
  unfold verifyPlonky3AirTraceWithInstance
  rw [if_neg (by rw [hw, hh]; simp), verifyWithPreprocessed_eq hw (prepTrace_width s b)
    (by rw [prepTrace_height, hh]; rfl) hh, airVanishes_iff, hh]
  exact h

section Message

variable {s : State} {message : List U8}

/-- A row of a real segment of a stack: the last row of the segment has the transition selector off. -/
theorem stackSegments_row {Ms : ℕ → RowMajorMatrix} {j r : ℕ} (hj : j < (paddedBlocks message).length) (hr : r < 128)
    (h : verifyPlonky3AirTraceWithInstance (Ms j) (chainState s ((paddedBlocks message).take j))
      (blockAt (paddedBlocks message) j) = true) (wrap : ℕ) :
    rowAccepted (stackSegments Ms (paddedBlocks message).length (totalRows message))
      (buildMessageAirBundle s message).preprocessed (buildMessageAirBundle s message).finalPublicValues
      (j * 128 + r) wrap = true := by
  have hle := segment_le_totalRows message hj
  have hi : j * 128 + r < totalRows message := by omega
  obtain ⟨hwj, hhj, hrow⟩ := vanish_of_verify h
  have hrow := hrow r hr
  rw [window_block _ hwj hhj _ _ hr] at hrow
  have hP := bundle_prepAt s message hj hr
  have hb := prepTrace_prepAt (chainState s ((paddedBlocks message).take j)) (blockAt (paddedBlocks message) j) hr
  have hloc := stackSegments_rowView hwj hj hr hi
  rw [rowAccepted_iff, window_bundle s message rfl (stackSegments_height _ _ _) _ hi]
  refine hrow.of_window hloc (fun c hc => bundle_prep_segment s message hj hr hc) ?_ ?_ ?_
  · have hpub := ((vanish_eval _).1 hrow).2.2.1
    rw [evalPublic_iff] at hpub ⊢
    intro k hk
    dsimp only at hpub ⊢
    rw [hP.final]
    cases hf : (j + 1 == (paddedBlocks message).length && r == 80) with
    | false => exact zero_mul _
    | true =>
      rw [Bool.and_eq_true, beq_iff_eq] at hf
      have := hpub k hk
      rw [hb.final, hf.2] at this
      rw [hloc, bundle_finalPublicValues, ← hf.1, Nat.add_sub_cancel]
      exact this
  · dsimp only
    by_cases hlast : r = 127
    · subst hlast
      exact .inr (.inl (bundle_transition_last s message hi))
    · refine .inr (.inr ⟨?_, ?_⟩)
      · rw [beq_eq_false_iff_ne.2 (by omega)]
        exact one_ne_zero
      · rw [nextRow, nextRow, if_pos (by omega), if_pos (by omega), Nat.add_assoc]
        exact stackSegments_rowView hwj hj (by omega) (by omega)
  · dsimp only
    by_cases hlast : j * 128 + r + 1 = totalRows message
    · have hr127 : r = 127 := by omega
      subst hr127
      exact .inr one_ne_zero
    · rw [beq_eq_false_iff_ne.2 hlast]
      exact .inl rfl

/-- A stack of accepted matrices of the blocks is accepted for the message. -/
theorem stackSegments_vanishes {Ms : ℕ → RowMajorMatrix}
    (h : ∀ j < (paddedBlocks message).length, verifyPlonky3AirTraceWithInstance (Ms j)
      (chainState s ((paddedBlocks message).take j)) (blockAt (paddedBlocks message) j) = true) (wrap : ℕ) :
    airVanishes (stackSegments Ms (paddedBlocks message).length (totalRows message))
      (buildMessageAirBundle s message).preprocessed (buildMessageAirBundle s message).finalPublicValues wrap = true := by
  refine airVanishes_of_segments s message rfl (stackSegments_height _ _ _) (fun j hj r hr => ?_) fun i hi hn => ?_
  · exact stackSegments_row hj hr (h j hj) wrap
  · exact stackSegments_dummy hn hi

/-- The rows of a block in an accepted matrix of a message pass for the block alone; the last one if
it is the last row of the matrix. -/
theorem segmentRows_vanish {M : RowMajorMatrix} {publicValues : Vector BabyBear 8} {wrap : ℕ}
    (hw : M.width = airWidth) (hh : M.height = totalRows message)
    (h : airVanishes M (buildMessageAirBundle s message).preprocessed publicValues wrap = true)
    {j : ℕ} (hj : j < (paddedBlocks message).length) {r : ℕ} (hr : r < 128)
    (hlast : r = 127 → totalRows message = (j + 1) * 128) (wrap' : ℕ) :
    rowAccepted (segmentRows M j) (buildPlonky3PreprocessedTraceFromInstance
      (chainState s ((paddedBlocks message).take j)) (blockAt (paddedBlocks message) j))
      (publicValuesOf (segTrace s (paddedBlocks message) j)) r wrap' = true := by
  have hle := segment_le_totalRows message hj
  have hb := prepTrace_prepAt (chainState s ((paddedBlocks message).take j)) (blockAt (paddedBlocks message) j) hr
  have hloc := segmentRows_rowView hw j hr
  obtain ⟨hrun, -⟩ := message_segment_run (by rw [bundle_main_width]; exact hw) (by rw [bundle_main_height]; exact hh) h hj
  have hrow := (airVanishes_iff wrap).1 h (j * 128 + r) (by omega)
  rw [window_bundle s message hw hh _ (by omega)] at hrow
  rw [rowAccepted_iff, window_block _ rfl (segmentRows_height M j) _ _ hr]
  refine hrow.of_window hloc (fun c hc => (bundle_prep_segment s message hj hr hc).symm) ?_ ?_ ?_
  -- the run of the block fixes the state of row 80
  · rw [evalPublic_iff]
    intro k hk
    dsimp only
    rw [hb.final]
    by_cases h80 : r = 80
    · subst h80
      rw [hloc, packWordFromLimbs_eq fun l hl => hrun.state 80 le_rfl k hk l hl, publicValuesOf, Vector.getElem_map,
        getElem!_pos _ 80 (by omega), getElem!_pos _ k hk]
      exact mul_eq_zero_of_right _ (sub_self _)
    · rw [beq_eq_false_iff_ne.2 h80]
      exact zero_mul _
  · dsimp only
    by_cases h127 : r = 127
    · subst h127
      exact .inl rfl
    · refine .inr (.inr ⟨?_, ?_⟩)
      · rw [beq_eq_false_iff_ne.2 (by omega)]
        exact one_ne_zero
      · rw [nextRow, nextRow, if_pos (by omega), if_pos (by omega), Nat.add_assoc]
        exact segmentRows_rowView hw j (by omega)
  · dsimp only
    by_cases h127 : r = 127
    · have hend : j * 128 + r + 1 = totalRows message := by have := hlast h127; omega
      rw [beq_iff_eq.2 hend]
      exact .inr one_ne_zero
    · rw [beq_eq_false_iff_ne.2 (by omega)]
      exact .inl rfl

end Message

/-- A message is checked block by block: matrices accepted for its blocks from their chaining values,
stacked and filled up with zero rows, are accepted for the message; and of a matrix accepted for the
message, with arbitrary cells and public values, the rows of each block pass the row checker of that
block but for the last row of the segment, which is checked to the end only at the end of the matrix. -/
theorem segments_compose (s : State) (message : List U8) :
    let blocks := paddedBlocks message
    let H := fun j => chainState s (blocks.take j)
    let bundle := buildMessageAirBundle s message
    (∀ Ms : ℕ → RowMajorMatrix,
      (∀ (j : ℕ) (hj : j < blocks.length), verifyPlonky3AirTraceWithInstance (Ms j) (H j) blocks[j] = true) →
      ∀ wrap, airVanishes (stackSegments Ms blocks.length (totalRows message)) bundle.preprocessed
        bundle.finalPublicValues wrap = true) ∧
    ∀ (M : RowMajorMatrix) (publicValues : Vector BabyBear 8) (wrap : ℕ),
      M.width = airWidth → M.height = totalRows message →
      airVanishes M bundle.preprocessed publicValues wrap = true → ∀ (j : ℕ) (hj : j < blocks.length),
        (∀ r < 127, ∀ wrap', rowAccepted (segmentRows M j)
          (buildPlonky3PreprocessedTraceFromInstance (H j) blocks[j]) (publicValuesOf (compressBlock (H j) blocks[j]))
          r wrap' = true) ∧
        (totalRows message = (j + 1) * 128 →
          verifyPlonky3AirTraceWithInstance (segmentRows M j) (H j) blocks[j] = true) := by
  have hblock : ∀ (j : ℕ) (hj : j < (paddedBlocks message).length),
      blockAt (paddedBlocks message) j = (paddedBlocks message)[j] := fun j hj => List.getD_eq_getElem _ _ hj
  refine ⟨fun Ms h wrap => stackSegments_vanishes (fun j hj => ?_) wrap, fun M publicValues wrap hw hh h j hj => ?_⟩
  · rw [hblock j hj]
    exact h j hj
  · have hrow := fun r hr hlast => segmentRows_vanish hw hh h hj (r := r) hr hlast
    unfold segTrace at hrow
    rw [hblock j hj] at hrow
    refine ⟨fun r hr wrap' => hrow r (by omega) (by omega) wrap', fun hend => ?_⟩
    refine verify_of_vanish rfl (segmentRows_height M j) fun r hr => ?_
    exact rowAccepted_iff.1 (hrow r hr (fun _ => hend) 127)

/-- The honest matrices of the three blocks of 300 zero bytes, stacked over a dummy segment; the rows of
these blocks in the honest matrix of the message; and the second of the two blocks of 200 zero bytes,
which ends the matrix. -/
theorem segments_compose_threeBlocks :
    let message : List U8 := List.replicate 300 0
    let blocks := paddedBlocks message
    let H := fun j => chainState initialState (blocks.take j)
    let bundle := buildMessageAirBundle initialState message
    let message' : List U8 := List.replicate 200 0
    let blocks' := paddedBlocks message'
    let bundle' := buildMessageAirBundle initialState message'
    blocks.length = 3 ∧ totalRows message = 4 * 128 ∧
    airVanishes (stackSegments (fun j => buildPlonky3AirTrace (compressBlock (H j) (blockAt blocks j))) blocks.length
      (totalRows message)) bundle.preprocessed bundle.finalPublicValues 0 = true ∧
    (∀ (j : ℕ) (hj : j < blocks.length), ∀ r < 127, rowAccepted (segmentRows bundle.main j)
      (buildPlonky3PreprocessedTraceFromInstance (H j) blocks[j]) (publicValuesOf (compressBlock (H j) blocks[j]))
      r 0 = true) ∧
    blocks'.length = 2 ∧ ∀ hj : 1 < blocks'.length,
      verifyPlonky3AirTraceWithInstance (segmentRows bundle'.main 1) (chainState initialState (blocks'.take 1))
        blocks'[1] = true := by
  intro message blocks H bundle message' blocks' bundle'
  obtain ⟨hstack, hsegment⟩ := segments_compose initialState message
  refine ⟨paddedBlocks_length_threeBlocks, totalRows_threeBlocks, hstack _ (fun j hj => ?_) 0, fun j hj r hr => ?_,
    paddedBlocks_length_twoBlocks, fun hj => ?_⟩
  · rw [← List.getD_eq_getElem _ (Vector.replicate 128 0) hj]
    exact verify_of_vanish (airTrace_width _) (airTrace_height _) fun r hr =>
      (airVanishes_iff 127).1 (airTrace_vanishes _ _ 127) r (by rwa [airTrace_height])
  · exact (hsegment _ _ 0 (bundle_main_width _ _) (bundle_main_height _ _) (bundle_vanishes _ _ 0) j hj).1 r hr 0
  · exact ((segments_compose initialState message').2 _ _ 0 (bundle_main_width _ _) (bundle_main_height _ _)
      (bundle_vanishes _ _ 0) 1 hj).2 totalRows_twoBlocks

/-! ## One block -/

section OneBlock

variable {s : State} {message : List U8} {b : Block} (hb : paddedBlocks message = [b])
include hb

theorem totalRows_oneBlock : totalRows message = 128 := by
  rw [totalRows, hb]
  rfl

theorem segTrace_oneBlock : segTrace s (paddedBlocks message) 0 = compressBlock s b := by
  rw [segTrace, hb]
  rfl

theorem bundle_main_oneBlock : (buildMessageAirBundle s message).main = buildPlonky3AirTrace (compressBlock s b) := by
  have htrace := segTrace_oneBlock (s := s) hb
  rw [buildMessageAirBundle_eq, buildPlonky3AirTrace_eq, totalRows_oneBlock hb]
  refine congrArg RowMajorMatrix.ofRows (List.map_congr_left fun r hr => ?_)
  have hr : r < 128 := List.mem_range.1 hr
  rw [bundleMainRow, show r / 128 = 0 by omega, show r % 128 = r by omega, if_pos (paddedBlocks_length_pos message), htrace]

theorem bundle_prep_oneBlock :
    (buildMessageAirBundle s message).preprocessed = buildPlonky3PreprocessedTraceFromInstance s b := by
  have htrace := segTrace_oneBlock (s := s) hb
  have hpos := paddedBlocks_length_pos message
  have hrows : (buildMessageAirBundle s message).preprocessed =
      .ofRows ((List.range 128).map (bundlePrepRow s (paddedBlocks message))) := by
    rw [buildMessageAirBundle_eq, totalRows_oneBlock hb]
  rw [hrows]
  refine congrArg RowMajorMatrix.ofRows (List.map_congr_left fun r hr => ?_)
  have hr : r < 128 := List.mem_range.1 hr
  have hcell : (bundlePrepRow s (paddedBlocks message) r).cell =
      (preprocessedRow s ((buildPlonky3AirTrace (compressBlock s b)).rowView r) r).cell := by
    have hview := bundle_prep_rowView s message (i := 0 * 128 + r) (by rw [totalRows_oneBlock hb]; omega)
    have hblock := prepTrace_rowView s b hr
    rw [Nat.zero_mul, Nat.zero_add] at hview
    rw [airTrace_rowView _ hr, ← hview, ← hblock]
    funext c
    by_cases hc : c = prepFinalSelectorCol
    · have hP := (bundle_prepAt s message hpos hr).final
      rw [Nat.zero_mul, Nat.zero_add, hb] at hP
      rw [hc, hP, (prepTrace_prepAt s b hr).final]
      rfl
    · have hseg := bundle_prep_segment s message hpos hr hc
      rw [Nat.zero_mul, Nat.zero_add] at hseg
      rw [hseg, hb]
      rfl
  rw [← rowOfView_cell (bundlePrepRow s (paddedBlocks message) r), hcell, rowOfView_cell]

/-- The bundle of a message of one block is made of the matrices and the public values of the block. -/
theorem bundle_oneBlock : buildMessageAirBundle s message =
    { main := buildPlonky3AirTrace (compressBlock s b)
      preprocessed := buildPlonky3PreprocessedTraceFromInstance s b
      finalState := (compressBlock s b).outputState
      finalPublicValues := publicValuesOf (compressBlock s b)
      degreeBits := 7 } := by
  have hmain := bundle_main_oneBlock (s := s) hb
  have hprep := bundle_prep_oneBlock (s := s) hb
  have hstate := bundle_finalState s message
  have hpub := bundle_finalPublicValues s message
  have hdeg := bundle_degreeBits s message
  have htrace := segTrace_oneBlock (s := s) hb
  have hlen : (paddedBlocks message).length = 1 := by rw [hb]; rfl
  rw [hlen, htrace] at hpub
  rw [hb] at hstate
  rw [trailingZeros_totalRows, hlen, Nat.clog_one_right] at hdeg
  generalize buildMessageAirBundle s message = bundle at hmain hprep hstate hpub hdeg
  obtain ⟨main, prep, final, pub, deg⟩ := bundle
  dsimp only at hmain hprep hstate hpub hdeg
  subst hmain hprep hstate hpub hdeg
  rfl

end OneBlock

/-- The messages of one block. -/
theorem paddedBlocks_oneBlock {message : List U8} (h : message.length ≤ 111) :
    paddedBlocks message = [toBlock (padMessage message)] := by
  obtain ⟨b, hb⟩ : ∃ b, paddedBlocks message = [b] := by
    rw [← List.length_eq_one_iff, paddedBlocks_length]
    omega
  have hflat := flatMap_paddedBlocks message
  rw [hb, List.flatMap_cons, List.flatMap_nil, List.append_nil] at hflat
  rw [hb, ← hflat, show toBlock b.toList = b from Vector.toList_inj.1 (toBlock_toList b.length_toList)]

end Sha512Circuit
