/-
The layout of the preprocessed matrix of one block, cell by cell: what it holds for every instance,
and when that is the documented layout with the words of the block in the first sixteen rows only.
-/
import Sha512Circuit.Air.PrepSpec
import Sha512Circuit.Compress.Validate

namespace Sha512Circuit

/-! ## The layout -/

/-- A preprocessed matrix with the initial state `s` in every row, the round constants in rows 0 to
79, the word `w row` in the `W` columns, the selectors, and zeros everywhere else. -/
structure PrepLayout (m : RowMajorMatrix) (s : State) (w : ℕ → U64) : Prop where
  width : m.width = airWidth
  height : m.height = traceRows
  row : ∀ r < traceRows, PrepAt (m.rowView r) s w r (r == 80)
  constant : ∀ r < traceRows, 80 ≤ r → WordAt (m.rowView r) (limbCol wordK) 0
  rest : ∀ r < traceRows, ∀ c, 40 ≤ c → c < prepBlockStartSelectorCol → m.rowView r c = 0

theorem PrepLayout.congr {m : RowMajorMatrix} {s : State} {w w' : ℕ → U64} (h : PrepLayout m s w)
    (hw : ∀ r < traceRows, w' r = w r) : PrepLayout m s w' where
  width := h.width
  height := h.height
  row r hr :=
    let hp := h.row r hr
    ⟨hp.state, hp.constant, hw r hr ▸ hp.word, hp.blockStart, hp.transition, hp.round, hp.initW, hp.final⟩
  constant := h.constant
  rest := h.rest

section Block

variable (s : State) (b : Block)

/-- The matrix of an instance holds the whole computed schedule. -/
theorem prepTrace_layout :
    PrepLayout (buildPlonky3PreprocessedTraceFromInstance s b) s (traceWord (compressBlock s b)) where
  width := prepTrace_width s b
  height := prepTrace_height s b
  row r hr := prepTrace_prepAt s b hr
  constant r hr h80 := by
    rw [prepTrace_rowView s b hr]
    exact (traceRow_constant _ h80).of_eq fun l hl => preprocessedRow_copies (.inr rfl) hl
  rest r hr c h40 hc := by
    rw [prepTrace_rowView s b hr]
    exact preprocessedRow_rest h40 hc

/-- No other words fit the `W` columns. -/
theorem prepTrace_layout_iff {w : ℕ → U64} :
    PrepLayout (buildPlonky3PreprocessedTraceFromInstance s b) s w ↔
      ∀ r < traceRows, w r = traceWord (compressBlock s b) r := by
  constructor
  · exact fun h r hr => (h.row r hr).word.inj ((prepTrace_layout s b).row r hr).word
  · exact fun h => (prepTrace_layout s b).congr h

end Block

/-! ## The documented words -/

/-- The documented `W` word of a row: the word of the block in rows 0 to 15 and zero after. -/
def documentedWord (b : Block) (r : ℕ) : U64 := if r < 16 then blockWord b r else 0

/-- The schedule runs backwards: sixteen zero words come from zero words only. -/
theorem W_eq_zero_of_next {M : ℕ → U64} (h : ∀ t, 16 ≤ t → t < 32 → Fips.W M t = 0) :
    ∀ n ≤ 16, ∀ t, 16 - n ≤ t → t < 32 → Fips.W M t = 0
  | 0, _, t, ht, ht' => h t ht ht'
  | n + 1, hn, t, ht, ht' => by
    have ih := W_eq_zero_of_next h n (by omega)
    by_cases hlt : 16 - n ≤ t
    · exact ih t hlt ht'
    · have hnext := h (t + 16) (by omega) (by omega)
      have hsigma : smallSigma1 0 = 0 ∧ smallSigma0 0 = 0 := by decide
      rw [W_ge M (by omega), ih (t + 16 - 2) (by omega) (by omega), ih (t + 16 - 7) (by omega) (by omega),
        ih (t + 16 - 15) (by omega) (by omega), hsigma.1, hsigma.2, Nat.add_sub_cancel] at hnext
      simpa using hnext

theorem W_eq_zero {M : ℕ → U64} (h : ∀ t < 16, M t = 0) (t : ℕ) : Fips.W M t = 0 := by
  induction t using Nat.strong_induction_on with
  | _ t ih =>
    have hsigma : smallSigma1 0 = 0 ∧ smallSigma0 0 = 0 := by decide
    rcases Nat.lt_or_ge t 16 with ht | ht
    · rw [W_lt M ht, h t ht]
    · rw [W_ge M ht, ih (t - 2) (by omega), ih (t - 7) (by omega), ih (t - 15) (by omega), ih (t - 16) (by omega),
        hsigma.1, hsigma.2]
      rfl

theorem blockWord_zero {i : ℕ} (hi : i < 16) : blockWord (Vector.replicate 128 0) i = 0 := by
  interval_cases i <;> decide

/-- The words of a block are all zero exactly for the zero block. -/
theorem blockWord_eq_zero_iff {b : Block} : (∀ t < 16, blockWord b t = 0) ↔ b = Vector.replicate 128 0 := by
  constructor
  · exact fun h => blockWord_inj fun t ht => (h t ht).trans (blockWord_zero ht).symm
  · rintro rfl t ht
    exact blockWord_zero ht

/-- The preprocessed matrix has the documented layout, with words in rows 0 to 15 only, exactly for
the zero block: rows 16 to 79 hold the computed schedule. -/
theorem prepTrace_documented_iff (s : State) (b : Block) :
    PrepLayout (buildPlonky3PreprocessedTraceFromInstance s b) s (documentedWord b) ↔ b = Vector.replicate 128 0 := by
  rw [prepTrace_layout_iff, ← blockWord_eq_zero_iff]
  constructor
  · intro h t ht
    have hnext : ∀ t, 16 ≤ t → t < 32 → Fips.W (blockWord b) t = 0 := fun t h16 h32 => by
      rw [← traceWord_compressBlock s b (by omega), ← h t (by rw [traceRows_eq]; omega), documentedWord,
        if_neg (by omega)]
    rw [← W_lt (blockWord b) ht]
    exact W_eq_zero_of_next hnext 16 le_rfl t (by omega) (by omega)
  · intro h r hr
    have hdoc : documentedWord b r = 0 := by
      unfold documentedWord
      split
      · exact h r ‹_›
      · rfl
    rw [hdoc]
    by_cases h80 : r < 80
    · rw [traceWord_compressBlock s b h80, W_eq_zero h]
    · rw [traceWord, if_neg h80]

/-- A block of ones has a non-zero word in row 16. -/
theorem prepTrace_undocumented : ¬ PrepLayout
    (buildPlonky3PreprocessedTraceFromInstance initialState (Vector.replicate 128 1)) initialState
    (documentedWord (Vector.replicate 128 1)) := by
  intro h
  have h16 := (prepTrace_layout_iff _ _).1 h 16 (by decide)
  have hword : ∀ i < 16, blockWord (Vector.replicate 128 1) i = 0x0101010101010101 := by
    intro i hi
    interval_cases i <;> decide
  rw [traceWord_compressBlock _ _ (by omega), W_ge _ le_rfl, W_lt _ (by omega), W_lt _ (by omega), W_lt _ (by omega),
    W_lt _ (by omega), hword _ (by omega), hword _ (by omega), hword _ (by omega), hword _ (by omega)] at h16
  exact absurd h16 (by decide)

end Sha512Circuit
