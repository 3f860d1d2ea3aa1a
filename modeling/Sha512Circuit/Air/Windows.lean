/-
Row windows of whole matrices: what `eval` sees at row `r` of a matrix pair, a segment of an
accepted matrix, and rows of a matrix that is the honest trace of an instance.
-/
import Sha512Circuit.Air.Segment
import Sha512Circuit.Air.Honest

namespace Sha512Circuit

/-! ## Windows -/

theorem rowSlice_size {m : RowMajorMatrix} (hw : m.width = airWidth) {r : ℕ} (hr : r < m.height) :
    (m.rowSlice r).size = airWidth := by
  have hle : (r + 1) * m.width ≤ m.values.size :=
    le_trans (Nat.mul_le_mul_right _ hr) (Nat.div_mul_le_self _ _)
  unfold RowMajorMatrix.rowSlice
  rw [Array.size_extract_of_le hle, hw, Nat.add_mul, Nat.one_mul, Nat.add_sub_cancel_left]

theorem rowSlice_size_le {m : RowMajorMatrix} (hw : m.width = airWidth) (r : ℕ) : (m.rowSlice r).size ≤ airWidth := by
  unfold RowMajorMatrix.rowSlice
  rw [hw, Array.size_extract, Nat.add_mul, Nat.one_mul]
  omega

/-- No row of a matrix of the AIR width has further columns. -/
theorem rowView_of_ge {m : RowMajorMatrix} (hw : m.width = airWidth) (r : ℕ) {c : ℕ} (hc : airWidth ≤ c) :
    m.rowView r c = 0 := by
  have := rowSlice_size_le hw r
  unfold RowMajorMatrix.rowView
  rw [Array.getD_eq_getD_getElem?, Array.getElem?_eq_none (by omega)]
  rfl

/-- The two rows of a window cut from a matrix. -/
theorem rowView_window {m : RowMajorMatrix} (hw : m.width = airWidth) {r : ℕ} (hr : r < m.height) (n : ℕ) :
    (⟨m.rowSlice r ++ m.rowSlice n, airWidth⟩ : RowMajorMatrix).rowView 0 = m.rowView r ∧
      (⟨m.rowSlice r ++ m.rowSlice n, airWidth⟩ : RowMajorMatrix).rowView 1 = m.rowView n := by
  have hA := rowSlice_size hw hr
  have hB := rowSlice_size_le hw n
  have h0 : (⟨m.rowSlice r ++ m.rowSlice n, airWidth⟩ : RowMajorMatrix).rowSlice 0 = m.rowSlice r := by
    unfold RowMajorMatrix.rowSlice at hA ⊢
    rw [Nat.zero_mul, Nat.zero_add, Nat.one_mul, ← hA, Array.extract_append_left, Array.extract_size]
  have h1 : (⟨m.rowSlice r ++ m.rowSlice n, airWidth⟩ : RowMajorMatrix).rowSlice 1 = m.rowSlice n := by
    show (m.rowSlice r ++ m.rowSlice n).extract (1 * airWidth) ((1 + 1) * airWidth) = _
    rw [Nat.one_mul, Nat.add_mul, Nat.one_mul, ← hA, Array.extract_append_right, Array.extract_eq_self_of_le (hA ▸ hB)]
  unfold RowMajorMatrix.rowView
  rw [h0, h1]
  exact ⟨rfl, rfl⟩

/-- Acceptance of a whole matrix, row by row. -/
theorem airVanishes_iff {main prep : RowMajorMatrix} {publicValues : Vector BabyBear 8} (wrap : ℕ) :
    airVanishes main prep publicValues wrap = true ↔ ∀ r < main.height,
      Vanish (eval (checkerAt main prep publicValues r wrap).window) := by
  unfold airVanishes
  simp only [List.all_eq_true, List.mem_range, rowAccepted_iff]

/-- The window of row `r` of two matrices, with its flags. -/
theorem window_checkerAt_of_lt {main prep : RowMajorMatrix} {publicValues : Vector BabyBear 8}
    (hw : main.width = airWidth) (hpw : prep.width = airWidth) {r : ℕ} (hr : r < main.height) (hpr : r < prep.height) (wrap : ℕ) :
    (checkerAt main prep publicValues r wrap).window =
      { loc := main.rowView r, next := main.rowView (nextRow main.height r wrap)
        locPrep := prep.rowView r, nextPrep := prep.rowView (nextRow prep.height r wrap)
        publicValues, isFirst := fromBool (r == 0), isLast := fromBool (r + 1 == main.height)
        isTransition := fromBool !(r + 1 == main.height) } := by
  obtain ⟨m0, m1⟩ := rowView_window hw hr (nextRow main.height r wrap)
  obtain ⟨p0, p1⟩ := rowView_window hpw hpr (nextRow prep.height r wrap)
  unfold AirConstraintChecker.window checkerAt AirConstraintChecker.new
  dsimp only
  rw [m0, m1, p0, p1]

section Matrices

variable {main prep : RowMajorMatrix} {publicValues : Vector BabyBear 8} (hw : main.width = airWidth)
  (hpw : prep.width = airWidth) (hph : prep.height = main.height)
include hw hpw hph

/-- The window of row `r` of two matrices of one height. -/
theorem window_checkerAt {r : ℕ} (hr : r < main.height) (wrap : ℕ) :
    (checkerAt main prep publicValues r wrap).window =
      { loc := main.rowView r, next := main.rowView (nextRow main.height r wrap)
        locPrep := prep.rowView r, nextPrep := prep.rowView (nextRow main.height r wrap)
        publicValues, isFirst := fromBool (r == 0), isLast := fromBool (r + 1 == main.height)
        isTransition := fromBool !(r + 1 == main.height) } := by
  rw [window_checkerAt_of_lt hw hpw hr (hph ▸ hr), hph]

/-- The row checker of `air.rs` follows the last row by itself. -/
theorem verifyWithPreprocessed_eq (hh : main.height = traceRows) :
    verifyWithPreprocessed main prep publicValues = airVanishes main prep publicValues 127 := by
  unfold verifyWithPreprocessed airVanishes
  rw [if_neg (by rw [hpw, hph, hh]; simp)]
  refine Bool.eq_iff_iff.2 ?_
  simp only [List.all_eq_true, List.mem_range, rowAccepted_iff]
  refine forall₂_congr fun r hr => ?_
  -- the two checkers differ in the successor of row 127 only, and there both take row 127
  have hnext : nextRow main.height r r = nextRow main.height r 127 := by
    rw [hh, traceRows_eq] at hr ⊢
    unfold nextRow
    split
    · rfl
    · omega
  rw [window_checkerAt hw hpw hph hr, window_checkerAt hw hpw hph hr, hnext]

/-- A segment of an accepted matrix. -/
theorem segmentHolds_of_airVanishes {wrap base : ℕ} {s : State} {w : ℕ → U64} {final : ℕ → Bool}
    (h : airVanishes main prep publicValues wrap = true) (hbase : base + 128 ≤ main.height)
    (hP : ∀ r < 128, PrepAt (prep.rowView (base + r)) s w r (final r)) :
    SegmentHolds (fun r => main.rowView (base + r)) (fun r => prep.rowView (base + r)) publicValues := by
  have hrow : ∀ r < 128, _ := fun r (hr : r < 128) => by
    have := (airVanishes_iff wrap).1 h (base + r) (by omega)
    rw [window_checkerAt hw hpw hph (by omega), vanish_eval] at this
    exact this
  refine ⟨fun r hr => (hrow r hr).1, (hrow 0 (by omega)).2.1, (hrow 80 (by omega)).2.2.1,
    fun r hr => (hrow r hr).2.2.2.1, fun r hr => (hrow r hr).2.2.2.2.1, fun r hr => (hrow r hr).2.2.2.2.2.1,
    fun r hr => (hrow r hr).2.2.2.2.2.2.1, fun r hr => ?_⟩
  have hlast : (base + r + 1 == main.height) = false := beq_eq_false_iff_ne.2 (by omega)
  have hnext : nextRow main.height (base + r) wrap = base + (r + 1) := if_pos (by omega)
  have htrans : prep.rowView (base + r) prepTransitionSelectorCol = 1 := by
    rw [(hP r (by omega)).transition, traceRows_eq, decide_eq_true (by omega)]; rfl
  rcases (hrow r (by omega)).2.2.2.2.2.2.2.1 with h | h | h
  · rw [hlast] at h
    exact absurd h one_ne_zero
  · exact absurd (htrans.symm.trans h) one_ne_zero
  · rw [hnext] at h
    exact h

/-- A row of a matrix that copies row `r` of the honest trace of an instance. -/
theorem vanish_of_traceRow {wrap i r : ℕ} {s : State} {b : Block} {final : Bool} (hi : i < main.height) (hr : r < 128)
    (hloc : main.rowView i = (traceRow (compressBlock s b) r).cell)
    (hnext : r < 127 → i + 1 < main.height ∧ main.rowView (i + 1) = (traceRow (compressBlock s b) (r + 1)).cell)
    (hP : PrepAt (prep.rowView i) s (traceWord (compressBlock s b)) r final)
    (hfinal : final = true → r = 80 ∧ publicValues = publicValuesOf (compressBlock s b)) :
    Vanish (eval (checkerAt main prep publicValues i wrap).window) := by
  rw [window_checkerAt hw hpw hph hi]
  refine @traceRow_vanish s b _ r final hr hloc (fun h => ?_) hP hfinal fun hlast => ?_
  · obtain ⟨hlt, hrow⟩ := hnext h
    have hn : nextRow main.height i wrap = i + 1 := if_pos hlt
    dsimp only
    rw [hn, hrow]
  · by_contra h
    obtain ⟨hlt, -⟩ := hnext (by omega)
    refine hlast ?_
    dsimp only
    rw [beq_eq_false_iff_ne.2 (by omega)]; rfl

end Matrices

/-- The honest main trace passes against the preprocessed trace of its instance, whatever row
follows the last. -/
theorem airTrace_vanishes (s : State) (b : Block) (wrap : ℕ) :
    airVanishes (buildPlonky3AirTrace (compressBlock s b)) (buildPlonky3PreprocessedTraceFromInstance s b)
      (publicValuesOf (compressBlock s b)) wrap = true := by
  have hh := airTrace_height (compressBlock s b)
  have hph : (buildPlonky3PreprocessedTraceFromInstance s b).height =
      (buildPlonky3AirTrace (compressBlock s b)).height := by rw [prepTrace_height, hh]
  rw [airVanishes_iff]
  intro r hr
  rw [hh] at hr
  refine vanish_of_traceRow (airTrace_width _) (prepTrace_width s b) hph (by rw [hh]; exact hr) hr
    (airTrace_rowView _ hr) (fun h => ⟨by rw [hh]; omega, airTrace_rowView _ (by omega)⟩) (prepTrace_prepAt s b hr)
    fun hf => ⟨beq_iff_eq.1 hf, rfl⟩

end Sha512Circuit
