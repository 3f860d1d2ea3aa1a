/-
Statements with a common beginning: the rows of the whole blocks they share are the same rows in both
matrices, in no other case, and such rows of an accepted trace can be taken over into another one.
-/
import Sha512Circuit.Air.Determined
import Sha512Circuit.Air.Stacking
import Sha512Circuit.Compress.Extension

namespace Sha512Circuit

/-! ## Honest rows -/

theorem blockAt_take (blocks : List Block) {j k : ℕ} (h : j < k) : blockAt (blocks.take k) j = blockAt blocks j := by
  unfold blockAt
  rw [List.getD_eq_getElem?_getD, List.getD_eq_getElem?_getD, List.getElem?_take_of_lt h]

section Shared

variable {s s' : State} {message message' : List U8} {k : ℕ} (hk : 128 * k ≤ message.length)
  (hk' : 128 * k ≤ message'.length)
include hk hk'

/-- The chaining value before a block, and the block, below a common beginning. -/
theorem shared_block (h : message.take (128 * k) = message'.take (128 * k)) {j : ℕ} (hj : j < k) :
    chainState s ((paddedBlocks message).take j) = chainState s ((paddedBlocks message').take j) ∧
      blockAt (paddedBlocks message) j = blockAt (paddedBlocks message') j := by
  have hblocks := (take_paddedBlocks_iff hk hk').2 h
  constructor
  · rw [← Nat.min_eq_left hj.le, ← List.take_take, hblocks, List.take_take]
  · rw [← blockAt_take _ hj, hblocks, blockAt_take _ hj]

theorem shared_segTrace (h : message.take (128 * k) = message'.take (128 * k)) {j : ℕ} (hj : j < k) :
    segTrace s (paddedBlocks message) j = segTrace s (paddedBlocks message') j := by
  obtain ⟨hchain, hblock⟩ := shared_block (s := s) hk hk' h hj
  rw [segTrace, segTrace, hchain, hblock]

/-- Rows below a common beginning lie within both matrices, in a segment that is not the last. -/
theorem shared_row {i : ℕ} (hi : i < 128 * k) : ∃ j r, j < k ∧ r < 128 ∧ i = j * 128 + r ∧
    j + 1 < (paddedBlocks message).length ∧ j + 1 < (paddedBlocks message').length := by
  have hlen := lt_paddedBlocks_length hk
  have hlen' := lt_paddedBlocks_length hk'
  exact ⟨i / 128, i % 128, by omega, Nat.mod_lt i (by omega), by omega, by omega, by omega⟩

theorem shared_prep (h : message.take (128 * k) = message'.take (128 * k)) {i : ℕ} (hi : i < 128 * k) :
    (buildMessageAirBundle s message).preprocessed.rowView i = (buildMessageAirBundle s message').preprocessed.rowView i := by
  obtain ⟨j, r, hj, hr, rfl, hlt, hlt'⟩ := shared_row hk hk' hi
  have hle := segment_le_totalRows message (show j < _ by omega)
  have hle' := segment_le_totalRows message' (show j < _ by omega)
  have hfinal : (j + 1 == (paddedBlocks message).length) = (j + 1 == (paddedBlocks message').length) := by
    rw [beq_eq_false_iff_ne.2 (by omega), beq_eq_false_iff_ne.2 (by omega)]
  rw [bundle_prep_rowView s message (by omega), bundle_prep_rowView s message' (by omega), bundlePrepRow, bundlePrepRow,
    show (j * 128 + r) / 128 = j by omega, if_pos (by omega), if_pos (by omega), hfinal,
    (shared_block hk hk' h hj).1, shared_segTrace hk hk' h hj]

theorem shared_main (h : message.take (128 * k) = message'.take (128 * k)) {i : ℕ} (hi : i < 128 * k) :
    (buildMessageAirBundle s message).main.rowView i = (buildMessageAirBundle s message').main.rowView i := by
  obtain ⟨j, r, hj, hr, rfl, hlt, hlt'⟩ := shared_row hk hk' hi
  rw [bundle_main_segment s message (by omega) hr, bundle_main_segment s message' (by omega) hr,
    shared_segTrace hk hk' h hj]

/-- Blocks with the same sixteen words, one by one, are a common beginning. -/
theorem take_eq_of_words (h : ∀ j < k, ∀ r < 16, traceWord (segTrace s (paddedBlocks message) j) r =
    traceWord (segTrace s' (paddedBlocks message') j) r) : message.take (128 * k) = message'.take (128 * k) := by
  have hlen := lt_paddedBlocks_length hk
  have hlen' := lt_paddedBlocks_length hk'
  refine (take_paddedBlocks_iff hk hk').1 (List.ext_getElem ?_ fun j hj hj' => ?_)
  · rw [List.length_take, List.length_take, Nat.min_eq_left hlen.le, Nat.min_eq_left hlen'.le]
  have hjk : j < k := (List.length_take_le _ _).trans_lt' hj
  have hblock : blockAt (paddedBlocks message) j = blockAt (paddedBlocks message') j := by
    refine blockWord_inj fun r hr => ?_
    have := h j hjk r hr
    rwa [segTrace, segTrace, traceWord_compressBlock _ _ (by omega), traceWord_compressBlock _ _ (by omega), W_lt _ hr,
      W_lt _ hr] at this
  rw [List.getElem_take, List.getElem_take]
  rwa [blockAt, blockAt, List.getD_eq_getElem _ _ (by omega), List.getD_eq_getElem _ _ (by omega)] at hblock

/-- The statements can be read off the preprocessed rows of a common beginning. -/
theorem beginning_of_prep (hpos : 0 < k) (h : ∀ i < 128 * k, (buildMessageAirBundle s message).preprocessed.rowView i =
    (buildMessageAirBundle s' message').preprocessed.rowView i) :
    s = s' ∧ message.take (128 * k) = message'.take (128 * k) := by
  have hlen := lt_paddedBlocks_length hk
  have hlen' := lt_paddedBlocks_length hk'
  have hwords : ∀ j < k, ∀ r < 16, traceWord (segTrace s (paddedBlocks message) j) r =
      traceWord (segTrace s' (paddedBlocks message') j) r := fun j hj r hr => by
    have hw := (bundle_prepAt s message (show j < _ by omega) (show r < 128 by omega)).word
    rw [h _ (by omega)] at hw
    exact hw.inj (bundle_prepAt s' message' (show j < _ by omega) (show r < 128 by omega)).word
  refine ⟨?_, take_eq_of_words hk hk' hwords⟩
  have h0 := (bundle_prepAt s message (show 0 < _ by omega) (show 0 < 128 by omega)).state
  rw [h _ (by omega)] at h0
  exact h0.inj (bundle_prepAt s' message' (show 0 < _ by omega) (show 0 < 128 by omega)).state

/-- The statements can be read off the main rows of a common beginning. -/
theorem beginning_of_main (hpos : 0 < k) (h : ∀ i < 128 * k, (buildMessageAirBundle s message).main.rowView i =
    (buildMessageAirBundle s' message').main.rowView i) :
    s = s' ∧ message.take (128 * k) = message'.take (128 * k) := by
  have hlen := lt_paddedBlocks_length hk
  have hlen' := lt_paddedBlocks_length hk'
  have hwords : ∀ j < k, ∀ r < 16, traceWord (segTrace s (paddedBlocks message) j) r =
      traceWord (segTrace s' (paddedBlocks message') j) r := fun j hj r hr => by
    have hw := (traceRow_word (segTrace s (paddedBlocks message) j) r).1
    rw [← bundle_main_segment s message (by omega) (by omega), h _ (by omega),
      bundle_main_segment s' message' (by omega) (by omega)] at hw
    exact hw.inj (traceRow_word (segTrace s' (paddedBlocks message') j) r).1
  refine ⟨?_, take_eq_of_words hk hk' hwords⟩
  obtain ⟨hrun, -⟩ := message_segment_run rfl rfl (bundle_vanishes s message 0) (show 0 < _ by omega)
  obtain ⟨hrun', -⟩ := message_segment_run rfl rfl (bundle_vanishes s' message' 0) (show 0 < _ by omega)
  have h0 := hrun.state 0 (by omega)
  rw [h _ (by omega)] at h0
  have hstate := h0.inj (hrun'.state 0 (by omega))
  rwa [segTrace, segTrace, compressBlock_roundStates _ _ (by omega), compressBlock_roundStates _ _ (by omega)] at hstate

end Shared

/-! ## Accepted rows -/

/-- The first `n` rows of one matrix before the other rows of another one. -/
def spliceRows (n : ℕ) (M M' : RowMajorMatrix) : RowMajorMatrix :=
  .ofRows ((List.range M'.height).map fun i => rowOfView (if i < n then M.rowView i else M'.rowView i))

theorem spliceRows_height (n : ℕ) (M M' : RowMajorMatrix) : (spliceRows n M M').height = M'.height :=
  ofRows_range_height _ _

theorem spliceRows_rowView {n : ℕ} {M M' : RowMajorMatrix} (hw : M.width = airWidth) (hw' : M'.width = airWidth) {i : ℕ}
    (hi : i < M'.height) : (spliceRows n M M').rowView i = if i < n then M.rowView i else M'.rowView i := by
  rw [spliceRows, ofRows_range_rowView _ hi]
  split
  · exact cell_rowOfView hw i
  · exact cell_rowOfView hw' i

section Splice

variable {s : State} {message message' : List U8} {k : ℕ} {M M' : RowMajorMatrix}
  {publicValues publicValues' : Vector BabyBear 8} {wrap wrap' : ℕ} (hw : M.width = airWidth)
  (hh : M.height = totalRows message) (hw' : M'.width = airWidth) (hh' : M'.height = totalRows message')
include hw hw' hh'

/-- The rows of an accepted matrix stay accepted after other rows before them. -/
theorem spliceRows_after (h' : airVanishes M' (buildMessageAirBundle s message').preprocessed publicValues' wrap' = true)
    {i : ℕ} (hi : i < totalRows message') (hik : ¬ i < 128 * k) :
    rowAccepted (spliceRows (128 * k) M M') (buildMessageAirBundle s message').preprocessed publicValues' i wrap' = true := by
  obtain ⟨j, r, hr, rfl⟩ : ∃ j r, r < 128 ∧ i = j * 128 + r := ⟨i / 128, i % 128, Nat.mod_lt i (by omega), by omega⟩
  have hj : (j + 1) * 128 ≤ totalRows message' := by
    rw [totalRows, traceRows_eq] at hi ⊢
    omega
  have hM : AgreeOnSegment (totalRows message') j (spliceRows (128 * k) M M') M' :=
    { width := rfl, width' := hw', height := by rw [spliceRows_height, hh'], height' := hh'
      row := fun r hr => by rw [spliceRows_rowView hw hw' (by omega), if_neg (by omega)] }
  have hP : AgreeOnSegment (totalRows message') j (buildMessageAirBundle s message').preprocessed _ :=
    ⟨bundle_prep_width _ _, bundle_prep_width _ _, bundle_prep_height _ _, bundle_prep_height _ _, fun _ _ => rfl⟩
  rw [rowAccepted_segment hj hr hM hP hP wrap' wrap', rowAccepted_iff]
  exact (airVanishes_iff wrap').1 h' _ (by omega)

variable (hk : 128 * k ≤ message.length) (hk' : 128 * k ≤ message'.length)
  (hbegin : message.take (128 * k) = message'.take (128 * k))
  (h : airVanishes M (buildMessageAirBundle s message).preprocessed publicValues wrap = true)
include hh hk hk' hbegin h

/-- The rows of a common beginning stay accepted before the rows of another message: none of them is a
last row or has the final selector. -/
theorem spliceRows_before {i : ℕ} (hik : i < 128 * k) :
    rowAccepted (spliceRows (128 * k) M M') (buildMessageAirBundle s message').preprocessed publicValues' i wrap' = true := by
  obtain ⟨j, r, hj, hr, hir, hlt, hlt'⟩ := shared_row hk hk' hik
  have hle := segment_le_totalRows message hlt
  have hle' := segment_le_totalRows message' (lt_paddedBlocks_length hk')
  have hrows : ∀ {i}, i < 128 * k → (spliceRows (128 * k) M M').rowView i = M.rowView i := fun hi => by
    rw [spliceRows_rowView hw hw' (by omega), if_pos hi]
  have hrow := (airVanishes_iff wrap).1 h i (by omega)
  rw [window_bundle s message hw hh _ (by omega)] at hrow
  rw [rowAccepted_iff, window_bundle s message' rfl (by rw [spliceRows_height, hh']) _ (by omega)]
  refine hrow.of_window (hrows hik) (fun c _ => ?_) ?_ ?_ ?_
  · exact congrFun (shared_prep hk hk' hbegin hik).symm c
  · rw [evalPublic_iff]
    intro w hw
    dsimp only
    rw [hir, (bundle_prepAt s message' (show j < _ by omega) hr).final, beq_eq_false_iff_ne.2 (by omega), Bool.false_and]
    exact zero_mul _
  · dsimp only
    by_cases hlast : r = 127
    · subst hlast
      rw [hir]
      exact .inr (.inl (bundle_transition_last s message' (by omega)))
    · refine .inr (.inr ⟨?_, ?_⟩)
      · rw [beq_eq_false_iff_ne.2 (by omega)]
        exact one_ne_zero
      · rw [nextRow, nextRow, if_pos (by omega), if_pos (by omega), hrows (by omega)]
  · dsimp only
    rw [beq_eq_false_iff_ne.2 (by omega)]
    exact .inl rfl

/-- Rows of a common beginning are taken over from one accepted matrix into another. -/
theorem spliceRows_vanishes
    (h' : airVanishes M' (buildMessageAirBundle s message').preprocessed publicValues' wrap' = true) :
    airVanishes (spliceRows (128 * k) M M') (buildMessageAirBundle s message').preprocessed publicValues' wrap' = true := by
  rw [airVanishes_iff, spliceRows_height, hh']
  intro i hi
  rw [← rowAccepted_iff]
  by_cases hik : i < 128 * k
  · exact spliceRows_before hw hh hw' hh' hk hk' hbegin h hik
  · exact spliceRows_after hw hw' hh' h' hi hik

end Splice

/-- A common beginning of two statements is a common beginning of their matrices: for the first `k`
whole blocks of both messages, the first `128 k` preprocessed rows agree exactly if the initial states
and the bytes of these blocks do, and so do the first `128 k` main rows; and over a common beginning
these rows of any accepted matrix, with arbitrary cells and public values, in place of those of another
one leave that one accepted. -/
theorem beginnings_agree (s s' : State) (message message' : List U8) (k : ℕ) (hpos : 0 < k)
    (hk : 128 * k ≤ message.length) (hk' : 128 * k ≤ message'.length) :
    let bundle := buildMessageAirBundle s message
    let bundle' := buildMessageAirBundle s' message'
    let same := s = s' ∧ message.take (128 * k) = message'.take (128 * k)
    ((∀ i < 128 * k, bundle.preprocessed.rowView i = bundle'.preprocessed.rowView i) ↔ same) ∧
    ((∀ i < 128 * k, bundle.main.rowView i = bundle'.main.rowView i) ↔ same) ∧
    (same → ∀ (M M' : RowMajorMatrix) (publicValues publicValues' : Vector BabyBear 8) (wrap wrap' : ℕ),
      M.width = airWidth → M.height = bundle.main.height → M'.width = airWidth → M'.height = bundle'.main.height →
      airVanishes M bundle.preprocessed publicValues wrap = true →
      airVanishes M' bundle'.preprocessed publicValues' wrap' = true →
        airVanishes (spliceRows (128 * k) M M') bundle'.preprocessed publicValues' wrap' = true) := by
  refine ⟨⟨beginning_of_prep hk hk' hpos, ?_⟩, ⟨beginning_of_main hk hk' hpos, ?_⟩, ?_⟩
  · rintro ⟨rfl, hbegin⟩ i hi
    exact shared_prep hk hk' hbegin hi
  · rintro ⟨rfl, hbegin⟩ i hi
    exact shared_main hk hk' hbegin hi
  · rintro ⟨rfl, hbegin⟩ M M' publicValues publicValues' wrap wrap' hw hh hw' hh' h h'
    rw [bundle_main_height] at hh hh'
    exact spliceRows_vanishes hw hh hw' hh' hk hk' hbegin h h'

/-- A block of zeros, and the same block with a byte after it. -/
theorem beginnings_agree_zeros :
    let bundle := buildMessageAirBundle initialState (List.replicate 128 0)
    let bundle' := buildMessageAirBundle initialState (List.replicate 128 0 ++ [1])
    (∀ i < 128 * 1, bundle.main.rowView i = bundle'.main.rowView i) ∧
    airVanishes (spliceRows (128 * 1) bundle.main bundle'.main) bundle'.preprocessed bundle'.finalPublicValues 0 = true := by
  have hlen : 128 * 1 ≤ (List.replicate 128 (0 : U8)).length := by rw [List.length_replicate]
  have hlen' : 128 * 1 ≤ (List.replicate 128 (0 : U8) ++ [1]).length := by
    rw [List.length_append, List.length_replicate]
    omega
  have hbegin : (List.replicate 128 (0 : U8)).take (128 * 1) = (List.replicate 128 (0 : U8) ++ [1]).take (128 * 1) :=
    (List.take_append_of_le_length hlen).symm
  obtain ⟨-, hmain, hsplice⟩ := beginnings_agree initialState initialState _ _ 1 (by omega) hlen hlen'
  exact ⟨hmain.2 ⟨rfl, hbegin⟩, hsplice ⟨rfl, hbegin⟩ _ _ _ _ 0 0 (bundle_main_width _ _) rfl (bundle_main_width _ _) rfl
    (bundle_vanishes _ _ 0) (bundle_vanishes _ _ 0)⟩

end Sha512Circuit
