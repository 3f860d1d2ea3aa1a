/-
The preprocessed matrix row by row: the instance data and the five selectors that `eval` reads.
-/
import Sha512Circuit.Air.TraceSpec
import Sha512Circuit.Compress.Hash

namespace Sha512Circuit

/-! ## Preprocessed rows -/

/-- Preprocessed row `row` of a block: the initial state `s`, the words `w` and the selectors; the
final selector is `final`. -/
structure PrepAt (prep : RowView) (s : State) (w : ℕ → U64) (row : ℕ) (final : Bool) : Prop where
  state : StateAt prep s
  constant : row < 80 → WordAt prep (limbCol wordK) K[row]!
  word : WordAt prep (limbCol wordW) (w row)
  blockStart : prep prepBlockStartSelectorCol = fromBool (row == 0)
  transition : prep prepTransitionSelectorCol = fromBool (row + 1 < traceRows)
  round : prep prepRoundSelectorCol = fromBool (row < 80)
  initW : prep prepInitWSelectorCol = fromBool (row < 16)
  final : prep prepFinalSelectorCol = fromBool final

section PrepAt

variable {prep : RowView} {s : State} {w : ℕ → U64} {row : ℕ} {final : Bool} (h : PrepAt prep s w row final)
include h

theorem PrepAt.round_one (hr : row < 80) : prep prepRoundSelectorCol = 1 := by
  rw [h.round, decide_eq_true hr]; rfl

theorem PrepAt.round_zero (hr : 80 ≤ row) : prep prepRoundSelectorCol = 0 := by
  rw [h.round, decide_eq_false (Nat.not_lt.2 hr)]; rfl

theorem PrepAt.initW_one (hr : row < 16) : prep prepInitWSelectorCol = 1 := by
  rw [h.initW, decide_eq_true hr]; rfl

theorem PrepAt.initW_zero (hr : 16 ≤ row) : prep prepInitWSelectorCol = 0 := by
  rw [h.initW, decide_eq_false (Nat.not_lt.2 hr)]; rfl

/-- The selector of the schedule recurrence is on in rounds 16 to 79. -/
theorem PrepAt.sched_one (h16 : 16 ≤ row) (hr : row < 80) :
    prep prepRoundSelectorCol * (1 - prep prepInitWSelectorCol) = 1 := by
  rw [h.round_one hr, h.initW_zero h16, sub_zero, one_mul]

theorem PrepAt.sched_zero (hr : row < 16 ∨ 80 ≤ row) :
    prep prepRoundSelectorCol * (1 - prep prepInitWSelectorCol) = 0 := by
  rcases hr with hr | hr
  · rw [h.initW_one hr, sub_self, mul_zero]
  · rw [h.round_zero hr, zero_mul]

end PrepAt

/-- The loop that copies the limbs of `W` and `K`. -/
def copyWK (dst : Row) (src : RowView) : Row :=
  (List.range limbsPerWord).foldl (fun dst limb =>
    (dst.set! (limbCol wordW limb) (src (limbCol wordW limb))).set! (limbCol wordK limb) (src (limbCol wordK limb))) dst

theorem copyWK_frame (dst : Row) (src : RowView) {c : ℕ} (h : c < 32 ∨ 40 ≤ c) :
    (copyWK dst src).cell c = dst.cell c := by
  refine Loop.foldl_frame Row.cell (W := fun l c => limbCol wordW l = c ∨ limbCol wordK l = c)
    (fun s l c hc => ?_) (List.range limbsPerWord) dst c fun l hl => ?_
  · rw [cell_set!_ne _ _ fun h => hc (.inr h), cell_set!_ne _ _ fun h => hc (.inl h)]
  · have hl : l < 4 := List.mem_range.1 hl
    rw [limbCol_eq, limbCol_eq, wordW, wordK]; omega

theorem copyWK_cell (dst : Row) (src : RowView) {l : ℕ} (hl : l < 4) :
    (copyWK dst src).cell (limbCol wordW l) = src (limbCol wordW l) ∧
      (copyWK dst src).cell (limbCol wordK l) = src (limbCol wordK l) := by
  refine Loop.foldl_range_inv (P := fun n (row : Row) => ∀ l < n,
    row.cell (limbCol wordW l) = src (limbCol wordW l) ∧ row.cell (limbCol wordK l) = src (limbCol wordK l)) 4
    (fun l hl => absurd hl (Nat.not_lt_zero l)) (fun n hn row ih l hl => ?_) l hl
  have hW : ∀ l, limbCol wordW l = 32 + l := fun l => limbCol_eq 8 l
  have hK : ∀ l, limbCol wordK l = 36 + l := fun l => limbCol_eq 9 l
  have hw := airWidth_eq
  rw [hW, hK, hW, hK]
  rcases Nat.lt_succ_iff_lt_or_eq.1 hl with hl | rfl
  · rw [cell_set!_ne _ _ (by omega), cell_set!_ne _ _ (by omega), cell_set!_ne _ _ (by omega),
      cell_set!_ne _ _ (by omega), ← hW, ← hK]
    exact ih l hl
  · rw [cell_set!_ne _ _ (by omega), cell_set!_self _ _ (by omega), cell_set!_self _ _ (by omega)]
    exact ⟨rfl, rfl⟩

/-- The five selector writes. -/
def setSelectors (dst : Row) (row : ℕ) : Row :=
  ((((dst.set! prepRoundSelectorCol (fromBool (row < 80))).set! prepInitWSelectorCol
    (fromBool (row < 16))).set! prepBlockStartSelectorCol (fromBool (row == 0))).set! prepTransitionSelectorCol
    (fromBool (row + 1 < traceRows))).set! prepFinalSelectorCol (fromBool (row == 80))

theorem setSelectors_frame (dst : Row) (row : ℕ) {c : ℕ} (h : c < 1071) : (setSelectors dst row).cell c = dst.cell c := by
  have h1 := prepBlockStartSelectorCol_eq
  have h2 := prepTransitionSelectorCol_eq
  have h3 := prepRoundSelectorCol_eq
  have h4 := prepInitWSelectorCol_eq
  have h5 := prepFinalSelectorCol_eq
  unfold setSelectors
  rw [cell_set!_ne _ _ (by omega), cell_set!_ne _ _ (by omega), cell_set!_ne _ _ (by omega),
    cell_set!_ne _ _ (by omega), cell_set!_ne _ _ (by omega)]

/-- The initial-state loop writes the limbs of its words. -/
theorem stateLoop_eq (initialState : State) (dst : Row) :
    initialState.toList.zipIdx.foldl (fun (dst : Row) (v : U64 × ℕ) =>
      fillRow dst limbsPerWord (limbCol (wordA + v.2)) fun limb =>
        fromU16 (((v.1 >>> (16 * limb)) &&& 0xffff).truncate 16)) dst =
      initialState.toList.zipIdx.foldl (fun row v => setWordLimbs row v.2 v.1) dst := by
  refine List.foldl_ext _ _ _ fun row v _ => ?_
  rw [setWordLimbs, fillRow, fillRow, wordA, Nat.zero_add, limbsPerWord_eq]
  refine List.foldl_ext _ _ _ fun row l hl => ?_
  rw [fromU16_shift, fromU16_u64ToLimbs _ (List.mem_range.1 hl)]

theorem preprocessedRow_eq (initialState : State) (src : RowView) (row : ℕ) :
    preprocessedRow initialState src row =
      initialState.toList.zipIdx.foldl (fun row v => setWordLimbs row v.2 v.1)
        (setSelectors (copyWK (Vector.replicate airWidth 0) src) row) :=
  stateLoop_eq initialState _

section Row

variable {s : State} {src : RowView} {row : ℕ}

/-- The initial-state loop leaves the columns from 32 on alone. -/
theorem preprocessedRow_cell {c : ℕ} (hc : 32 ≤ c) :
    (preprocessedRow s src row).cell c = (setSelectors (copyWK (Vector.replicate airWidth 0) src) row).cell c := by
  have hlen : s.toList.length = 8 := by simp
  rw [preprocessedRow_eq]
  exact setWords_frame _ 0 _ (by rw [hlen]; omega)

/-- The limbs of `W` and `K` are copied from the witness row. -/
theorem preprocessedRow_copies {v l : ℕ} (hv : v = wordW ∨ v = wordK) (hl : l < 4) :
    (preprocessedRow s src row).cell (limbCol v l) = src (limbCol v l) := by
  rcases hv with rfl | rfl
  · rw [preprocessedRow_cell (by rw [limbCol_eq, wordW]; omega),
      setSelectors_frame _ _ (by rw [limbCol_eq, wordW]; omega)]
    exact (copyWK_cell _ src hl).1
  · rw [preprocessedRow_cell (by rw [limbCol_eq, wordK]; omega),
      setSelectors_frame _ _ (by rw [limbCol_eq, wordK]; omega)]
    exact (copyWK_cell _ src hl).2

/-- Between the words and the selectors a preprocessed row is zero. -/
theorem preprocessedRow_rest {c : ℕ} (h : 40 ≤ c) (hc : c < prepBlockStartSelectorCol) :
    (preprocessedRow s src row).cell c = 0 := by
  rw [prepBlockStartSelectorCol_eq] at hc
  rw [preprocessedRow_cell (by omega), setSelectors_frame _ _ hc, copyWK_frame _ _ (.inr h), cell_replicate]

/-- A preprocessed row built from a witness row that holds `w row` and the round constant. -/
theorem preprocessedRow_prepAt {w : ℕ → U64} (hW : WordAt src (limbCol wordW) (w row))
    (hK : row < 80 → WordAt src (limbCol wordK) K[row]!) :
    PrepAt (preprocessedRow s src row).cell s w row (row == 80) := by
  have hlen : s.toList.length = 8 := by simp
  have h1 := prepBlockStartSelectorCol_eq
  have h2 := prepTransitionSelectorCol_eq
  have h3 := prepRoundSelectorCol_eq
  have h4 := prepInitWSelectorCol_eq
  have h5 := prepFinalSelectorCol_eq
  have hw := airWidth_eq
  constructor
  · intro i hi
    have := setWords_wordAt s.toList 0 (setSelectors (copyWK (Vector.replicate airWidth 0) src) row)
      (by rw [hlen]; omega) i (by omega)
    rw [preprocessedRow_eq]
    rwa [Nat.zero_add, List.getD_eq_getElem _ _ (by omega), Vector.getElem_toList, ← getElem!_pos s i hi] at this
  · exact fun hr => (hK hr).of_eq fun l hl => preprocessedRow_copies (.inr rfl) hl
  · exact hW.of_eq fun l hl => preprocessedRow_copies (.inl rfl) hl
  · rw [preprocessedRow_cell (by omega), setSelectors, cell_set!_ne _ _ (by omega), cell_set!_ne _ _ (by omega),
      cell_set!_self _ _ (by omega)]
  · rw [preprocessedRow_cell (by omega), setSelectors, cell_set!_ne _ _ (by omega), cell_set!_self _ _ (by omega)]
  · rw [preprocessedRow_cell (by omega), setSelectors, cell_set!_ne _ _ (by omega), cell_set!_ne _ _ (by omega),
      cell_set!_ne _ _ (by omega), cell_set!_ne _ _ (by omega), cell_set!_self _ _ (by omega)]
  · rw [preprocessedRow_cell (by omega), setSelectors, cell_set!_ne _ _ (by omega), cell_set!_ne _ _ (by omega),
      cell_set!_ne _ _ (by omega), cell_set!_self _ _ (by omega)]
  · rw [preprocessedRow_cell (by omega), setSelectors, cell_set!_self _ _ (by omega)]

end Row

/-! ## One block -/

section Block

variable (s : State) (b : Block)

theorem prepTrace_height : (buildPlonky3PreprocessedTraceFromInstance s b).height = 128 := by
  unfold buildPlonky3PreprocessedTraceFromInstance
  rw [ofRows_height]; simp

theorem prepTrace_width : (buildPlonky3PreprocessedTraceFromInstance s b).width = airWidth := rfl

/-- Row `row` of the preprocessed matrix of an instance. -/
theorem prepTrace_rowView {row : ℕ} (hr : row < 128) :
    (buildPlonky3PreprocessedTraceFromInstance s b).rowView row =
      (preprocessedRow s (traceRow (compressBlock s b) row).cell row).cell := by
  have hr' : row < ((List.range traceRows).map fun row =>
      preprocessedRow s ((buildPlonky3AirTrace (compressBlock s b)).rowView row) row).length := by
    rw [List.length_map, List.length_range, traceRows_eq]; exact hr
  unfold buildPlonky3PreprocessedTraceFromInstance
  rw [ofRows_rowView _ hr', List.getElem_map, List.getElem_range, airTrace_rowView _ hr]

/-- The words of a row of the main trace. -/
theorem traceRow_word (t : BlockTrace) (row : ℕ) :
    WordAt (traceRow t row).cell (limbCol wordW) (traceWord t row) ∧
      (row < 80 → WordAt (traceRow t row).cell (limbCol wordK) K[row]!) := by
  unfold traceRow traceWord
  by_cases h : row < 80
  · rw [if_pos h, if_pos h]
    have hf := roundRow_filled t (lagsBefore (traceWord t) row) row
    exact ⟨hf.words 8 (by omega), fun _ => hf.words 9 (by omega)⟩
  · rw [if_neg h, if_neg h]
    refine ⟨?_, fun h' => absurd h' h⟩
    cases row != 127 with
    | true => exact (stateRow_filled _ _).words 8 (by omega)
    | false => exact (lastRow_filled _ _).words 8 (by omega)

/-- From row 80 on the main trace has no round constant. -/
theorem traceRow_constant (t : BlockTrace) {row : ℕ} (h : 80 ≤ row) :
    WordAt (traceRow t row).cell (limbCol wordK) 0 := by
  unfold traceRow
  rw [if_neg (Nat.not_lt.2 h)]
  cases row != 127 with
  | true => exact (stateRow_filled _ _).words 9 (by omega)
  | false => exact (lastRow_filled _ _).words 9 (by omega)

/-- The preprocessed rows of one instance. -/
theorem prepTrace_prepAt {row : ℕ} (hr : row < 128) :
    PrepAt ((buildPlonky3PreprocessedTraceFromInstance s b).rowView row) s (traceWord (compressBlock s b)) row
      (row == 80) := by
  rw [prepTrace_rowView s b hr]
  exact preprocessedRow_prepAt (traceRow_word _ row).1 (traceRow_word _ row).2

theorem traceWord_compressBlock {i : ℕ} (hi : i < 80) :
    traceWord (compressBlock s b) i = Fips.W (blockWord b) i := by
  rw [traceWord, if_pos hi, compressBlock_words s b hi]

end Block

end Sha512Circuit
