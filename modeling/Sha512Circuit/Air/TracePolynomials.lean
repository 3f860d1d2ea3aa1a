/-
The row-by-row check as polynomial identities: with the columns of both matrices as polynomials on a
cyclic domain and the next row as the shift `ω X`, every row satisfies `eval` exactly if
`X^n - 1` divides every constraint polynomial; so for a message there are column polynomials exactly
for its final public values.
-/
import Sha512Circuit.Air.Symbolic
import Sha512Circuit.Air.Boundaries
import Sha512Circuit.Api.SizeGuard
import Sha512Circuit.Lib.CyclicDomain

namespace Sha512Circuit

open Polynomial CyclicDomain

/-! ## Flags -/

/-- The verdict on a window depends on the row flags only through their zeros. -/
theorem vanish_eval_flags {w w' : AirWindow} (hloc : w.loc = w'.loc) (hnext : w.next = w'.next)
    (hprep : w.locPrep = w'.locPrep) (hpub : w.publicValues = w'.publicValues)
    (hlast : w.isLast = 0 ↔ w'.isLast = 0) (htrans : w.isTransition = 0 ↔ w'.isTransition = 0) :
    Vanish (eval w) ↔ Vanish (eval w') := by
  rw [vanish_eval, vanish_eval, hloc, hnext, hprep, hpub, hlast, htrans]

theorem fromBool_eq_zero (b : Bool) : fromBool b = 0 ↔ b = false := by
  cases b
  · exact ⟨fun _ => rfl, fun _ => rfl⟩
  · exact ⟨fun h => absurd h one_ne_zero, fun h => absurd h (by decide)⟩

/-! ## Column polynomials -/

/-- Polynomials that take the values of a matrix on the domain, one for each column. -/
def Interpolates (ω : BabyBear) (m : RowMajorMatrix) (cols : ℕ → BabyBear[X]) : Prop :=
  ∀ r < m.height, ∀ c, (cols c).eval (ω ^ r) = m.rowView r c

/-- The interpolants of the columns of a matrix. -/
noncomputable def columnPolys (ω : BabyBear) (m : RowMajorMatrix) (c : ℕ) : BabyBear[X] :=
  interpolant ω m.height fun r => m.rowView r c

theorem columnPolys_interpolates {ω : BabyBear} {m : RowMajorMatrix} (hω : IsPrimitiveRoot ω m.height) :
    Interpolates ω m (columnPolys ω m) :=
  fun _ hr _ => eval_interpolant hω _ hr

theorem natDegree_columnPolys_lt {ω : BabyBear} {n : ℕ} {m : RowMajorMatrix} (hh : m.height = n) (hn : n ≠ 0)
    (hω : IsPrimitiveRoot ω n) (c : ℕ) : (columnPolys ω m c).natDegree < n := by
  subst hh
  have hdeg := natDegree_interpolant hω fun r => m.rowView r c
  unfold columnPolys
  omega

/-- The window of a prover: the columns, their shifts as the next row, constant public values, and
the selectors of the domain as row flags. -/
noncomputable def polyWindow {ω : BabyBear} {n : ℕ} (sel : Selectors ω n) (cols prep : ℕ → BabyBear[X])
    (publicValues : Vector BabyBear 8) : Symbolic.Window BabyBear[X] :=
  { loc := cols, next := fun c => shift ω (cols c), locPrep := prep
    publicValues := publicValues.map C, isLast := sel.isLast, isTransition := sel.isTransition }

/-- `X^n - 1` divides every constraint polynomial. -/
def ConstraintsDivisible {ω : BabyBear} {n : ℕ} (sel : Selectors ω n) (cols prep : ℕ → BabyBear[X])
    (publicValues : Vector BabyBear 8) : Prop :=
  ∀ P ∈ Symbolic.eval (polyWindow sel cols prep publicValues), X ^ n - 1 ∣ P

/-- The constraint polynomials at a point are the constraints on the values there. -/
theorem eval_polyWindow {ω : BabyBear} {n : ℕ} (sel : Selectors ω n) (cols prep : ℕ → BabyBear[X])
    (publicValues : Vector BabyBear 8) (x : BabyBear) :
    (Symbolic.eval (polyWindow sel cols prep publicValues)).map (Polynomial.eval x) =
      Sha512Circuit.eval
        { loc := fun c => (cols c).eval x, next := fun c => (shift ω (cols c)).eval x
          locPrep := fun c => (prep c).eval x, nextPrep := fun _ => 0, publicValues
          isFirst := 0, isLast := sel.isLast.eval x, isTransition := sel.isTransition.eval x } := by
  have hpub : (publicValues.map C).map (evalRingHom x) = publicValues := by
    rw [Vector.map_map]
    refine Vector.ext fun i hi => ?_
    rw [Vector.getElem_map]
    exact eval_C
  rw [← coe_evalRingHom, Symbolic.eval_map, ← Symbolic.eval_expr]
  unfold Symbolic.Window.map polyWindow AirWindow.expr
  dsimp only
  rw [hpub]

section Matrices

variable {main prep : RowMajorMatrix} {ω : BabyBear} {n : ℕ} (hw : main.width = airWidth) (hh : main.height = n)
  (hpw : prep.width = airWidth) (hph : prep.height = n) (hω : IsPrimitiveRoot ω n) (hn : n ≠ 0)
include hw hh hpw hph hω hn

/-- The constraint polynomials at a point of the domain are the constraints on its row. -/
theorem vanish_polyWindow_iff (sel : Selectors ω n) {cols pcols : ℕ → BabyBear[X]} (hcols : Interpolates ω main cols)
    (hpcols : Interpolates ω prep pcols) (publicValues : Vector BabyBear 8) {r : ℕ} (hr : r < n) :
    (∀ P ∈ Symbolic.eval (polyWindow sel cols pcols publicValues), P.eval (ω ^ r) = 0) ↔
      Vanish (Sha512Circuit.eval (checkerAt main prep publicValues r 0).window) := by
  subst hh
  have hmap : (∀ P ∈ Symbolic.eval (polyWindow sel cols pcols publicValues), P.eval (ω ^ r) = 0) ↔
      Vanish ((Symbolic.eval (polyWindow sel cols pcols publicValues)).map (Polynomial.eval (ω ^ r))) := by
    unfold Vanish
    rw [List.forall_mem_map]
  rw [hmap, window_checkerAt hw hpw hph hr, eval_polyWindow]
  refine vanish_eval_flags (funext fun c => hcols r hr c) (funext fun c => ?_) (funext fun c => hpcols r (hph ▸ hr) c)
    rfl ?_ ?_
  · dsimp only
    rw [eval_shift_of_lt hω _ hr]
    exact hcols _ (by split <;> omega) c
  · dsimp only
    rw [sel.isLast_eval r hr, fromBool_eq_zero, beq_eq_false_iff_ne]
  · dsimp only
    rw [sel.isTransition_eval r hr, fromBool_eq_zero, Bool.not_eq_false', beq_iff_eq]

/-- Divisibility of the constraint polynomials is acceptance of every row, whatever row follows the
last. -/
theorem constraintsDivisible_iff (sel : Selectors ω n) {cols pcols : ℕ → BabyBear[X]}
    (hcols : Interpolates ω main cols) (hpcols : Interpolates ω prep pcols) (publicValues : Vector BabyBear 8)
    (wrap : ℕ) : ConstraintsDivisible sel cols pcols publicValues ↔ airVanishes main prep publicValues wrap = true := by
  have hwrap : airVanishes main prep publicValues wrap = airVanishes main prep publicValues 0 := by
    unfold airVanishes
    rw [Bool.eq_iff_iff]
    simp only [List.all_eq_true, List.mem_range]
    exact forall₂_congr fun r hr => by rw [rowAccepted_wrap hw hpw hr (by omega) wrap 0]
  rw [hwrap, airVanishes_iff, hh]
  unfold ConstraintsDivisible
  simp only [vanishing_dvd_iff hω hn]
  -- all constraints on all rows, constraint by constraint or row by row
  constructor
  · exact fun h r hr => (vanish_polyWindow_iff hw hh hpw hph hω hn sel hcols hpcols publicValues hr).1
      fun P hP => h P hP r hr
  · exact fun h P hP r hr => (vanish_polyWindow_iff hw hh hpw hph hω hn sel hcols hpcols publicValues hr).2 (h r hr) P hP

end Matrices

/-- The row-by-row check is a divisibility of polynomials: for column polynomials that take the
values of both matrices on a domain, `eval` vanishes on every row exactly if `X^n - 1` divides every
constraint polynomial; on the rows of one block this is the debug checker. -/
theorem rowCheck_iff_divisible (main prep : RowMajorMatrix) (publicValues : Vector BabyBear 8) (n : ℕ) (hn : n ≠ 0)
    (hw : main.width = airWidth) (hh : main.height = n) (hpw : prep.width = airWidth) (hph : prep.height = n)
    (ω : BabyBear) (hω : IsPrimitiveRoot ω n) (sel : Selectors ω n) (cols pcols : ℕ → BabyBear[X])
    (hcols : Interpolates ω main cols) (hpcols : Interpolates ω prep pcols) :
    (∀ wrap, airVanishes main prep publicValues wrap = true ↔
      ∀ P ∈ Symbolic.eval (polyWindow sel cols pcols publicValues), X ^ n - 1 ∣ P) ∧
    (n = traceRows → (verifyWithPreprocessed main prep publicValues = true ↔
      ∀ P ∈ Symbolic.eval (polyWindow sel cols pcols publicValues), X ^ n - 1 ∣ P)) := by
  have key := fun wrap => constraintsDivisible_iff hw hh hpw hph hω hn sel hcols hpcols publicValues wrap
  refine ⟨fun wrap => (key wrap).symm, fun hrows => ?_⟩
  rw [verifyWithPreprocessed_eq_airVanishes hw (by omega) 0, decide_eq_true ⟨hpw, hph.trans hrows⟩, Bool.true_and]
  exact (key 0).symm

/-- The domain of one block exists, and the honest trace of the zero block is divisible there. -/
theorem rowCheck_iff_divisible_zeroBlock :
    ∃ (ω : BabyBear) (hω : IsPrimitiveRoot ω traceRows),
      ∀ P ∈ Symbolic.eval (polyWindow (standardSelectors hω (by decide))
        (columnPolys ω (buildPlonky3AirTrace (compressBlock initialState (Vector.replicate 128 0))))
        (columnPolys ω (buildPlonky3PreprocessedTraceFromInstance initialState (Vector.replicate 128 0)))
        (publicValuesOf (compressBlock initialState (Vector.replicate 128 0)))), X ^ traceRows - 1 ∣ P := by
  obtain ⟨ω, hω⟩ := (exists_domain_iff 7).2 (by decide)
  have hω : IsPrimitiveRoot ω traceRows := hω
  have hh := airTrace_height (compressBlock initialState (Vector.replicate 128 0))
  have hph := prepTrace_height initialState (Vector.replicate 128 0)
  refine ⟨ω, hω, ?_⟩
  exact ((rowCheck_iff_divisible _ _ _ traceRows (by decide) (airTrace_width _) hh (prepTrace_width _ _) hph ω hω _ _ _
    (columnPolys_interpolates (by rwa [hh])) (columnPolys_interpolates (by rwa [hph]))).1 0).1 (airTrace_vanishes _ _ 0)

/-! ## Messages -/

/-- One polynomial for each column of the trace, read by column number. -/
noncomputable def columnsOf (T : Fin airWidth → BabyBear[X]) (c : ℕ) : BabyBear[X] :=
  if h : c < airWidth then T ⟨c, h⟩ else 0

theorem columnsOf_interpolates {ω : BabyBear} {m : RowMajorMatrix} (hw : m.width = airWidth)
    (hω : IsPrimitiveRoot ω m.height) : Interpolates ω m (columnsOf fun c => columnPolys ω m c) := by
  intro r hr c
  unfold columnsOf
  split
  · exact columnPolys_interpolates hω r hr c
  · case isFalse hc => rw [eval_zero, rowView_of_ge hw r (not_lt.1 hc)]

/-- The values of column polynomials on the domain. -/
noncomputable def matrixOf (ω : BabyBear) (n : ℕ) (T : Fin airWidth → BabyBear[X]) : RowMajorMatrix :=
  .ofRows ((List.range n).map fun r => Vector.ofFn fun c => (T c).eval (ω ^ r))

theorem matrixOf_height (ω : BabyBear) (n : ℕ) (T : Fin airWidth → BabyBear[X]) : (matrixOf ω n T).height = n :=
  ofRows_range_height _ _

theorem matrixOf_interpolates (ω : BabyBear) (n : ℕ) (T : Fin airWidth → BabyBear[X]) :
    Interpolates ω (matrixOf ω n T) (columnsOf T) := by
  intro r hr c
  rw [matrixOf_height] at hr
  rw [matrixOf, ofRows_range_rowView _ hr]
  unfold columnsOf Row.cell
  rw [Array.getD_eq_getD_getElem?, Vector.toArray_ofFn, Array.getElem?_ofFn]
  split <;> simp

theorem totalRows_ne_zero (message : List U8) : totalRows message ≠ 0 := by
  rw [totalRows_eq]
  exact pow_ne_zero _ two_ne_zero

section Message

variable {s : State} {message : List U8} {ω : BabyBear} (hω : IsPrimitiveRoot ω (totalRows message))
  {pcols : ℕ → BabyBear[X]} (hpcols : Interpolates ω (buildMessageAirBundle s message).preprocessed pcols)
include hω hpcols

/-- Column polynomials that satisfy the constraints have the values of an accepted matrix. -/
theorem airVanishes_matrixOf (sel : Selectors ω (totalRows message)) (T : Fin airWidth → BabyBear[X])
    (publicValues : Vector BabyBear 8) :
    ConstraintsDivisible sel (columnsOf T) pcols publicValues ↔
      airVanishes (matrixOf ω (totalRows message) T) (buildMessageAirBundle s message).preprocessed publicValues 0 = true := by
  exact constraintsDivisible_iff rfl (matrixOf_height _ _ _) (bundle_prep_width s message) (bundle_prep_height s message)
    hω (totalRows_ne_zero message) sel (matrixOf_interpolates _ _ _) hpcols publicValues 0

/-- Columns that satisfy the constraints have, on the rows of block `j`, the recorded states of its
compression from the chaining value before it. -/
theorem columns_states {sel : Selectors ω (totalRows message)} {T : Fin airWidth → BabyBear[X]}
    {publicValues : Vector BabyBear 8} (h : ConstraintsDivisible sel (columnsOf T) pcols publicValues)
    {j : ℕ} (hj : j < (paddedBlocks message).length) {r : ℕ} (hr : r ≤ 80) {w l : ℕ} (hw : w < 8) (hl : l < 4) :
    (columnsOf T (limbCol w l)).eval (ω ^ (128 * j + r)) =
      fromU16 (u64ToLimbs ((segTrace s (paddedBlocks message) j).roundStates[r]!)[w]!)[l]! := by
  have hseg := segment_le_totalRows message hj
  obtain ⟨hrun, -⟩ := message_segment_run (by rw [bundle_main_width]; rfl)
    (by rw [matrixOf_height, bundle_main_height]) ((airVanishes_matrixOf hω hpcols sel T publicValues).1 h) hj
  rw [matrixOf_interpolates ω (totalRows message) T _ (by rw [matrixOf_height]; omega), fromU16_u64ToLimbs _ hl, mul_comm]
  exact hrun.state r hr w hw l hl

/-- The honest columns satisfy the constraints. -/
theorem columns_complete (sel : Selectors ω (totalRows message)) :
    ConstraintsDivisible sel (columnsOf fun c => columnPolys ω (buildMessageAirBundle s message).main c) pcols
      (buildMessageAirBundle s message).finalPublicValues := by
  have hmain := bundle_main_height s message
  exact (constraintsDivisible_iff (bundle_main_width s message) hmain (bundle_prep_width s message)
    (bundle_prep_height s message) hω (totalRows_ne_zero message) sel
    (columnsOf_interpolates (bundle_main_width s message) (by rwa [hmain])) hpcols _ 0).2 (bundle_vanishes s message 0)

/-- The public values are those of the last block. -/
theorem columns_publicValues {sel : Selectors ω (totalRows message)} {T : Fin airWidth → BabyBear[X]}
    {publicValues : Vector BabyBear 8} (h : ConstraintsDivisible sel (columnsOf T) pcols publicValues) :
    publicValues = (buildMessageAirBundle s message).finalPublicValues := by
  have hpos := paddedBlocks_length_pos message
  obtain ⟨-, hpub⟩ := message_segment_run (by rw [bundle_main_width]; rfl)
    (by rw [matrixOf_height, bundle_main_height]) ((airVanishes_matrixOf hω hpcols sel T publicValues).1 h)
    (show (paddedBlocks message).length - 1 < _ by omega)
  rw [bundle_finalPublicValues]
  exact hpub (by omega)

end Message

/-- What the constraint polynomials of a message establish, whatever the degrees of the columns:
columns that satisfy them carry on the domain the states of the chained compressions and exist for no
public values but those of the bundle; for these there are columns below degree `n`. -/
theorem messageColumns_iff (s : State) (message : List U8) (publicValues : Vector BabyBear 8) (ω : BabyBear)
    (hω : IsPrimitiveRoot ω (totalRows message)) (sel : Selectors ω (totalRows message)) (pcols : ℕ → BabyBear[X])
    (hpcols : Interpolates ω (buildMessageAirBundle s message).preprocessed pcols) :
    (∀ T : Fin airWidth → BabyBear[X],
      (∀ P ∈ Symbolic.eval (polyWindow sel (columnsOf T) pcols publicValues), X ^ totalRows message - 1 ∣ P) →
      publicValues = (buildMessageAirBundle s message).finalPublicValues ∧
      ∀ j < (paddedBlocks message).length, ∀ r ≤ 80, ∀ w < 8, ∀ l < 4,
        (columnsOf T (limbCol w l)).eval (ω ^ (128 * j + r)) =
          fromU16 (u64ToLimbs ((segTrace s (paddedBlocks message) j).roundStates[r]!)[w]!)[l]!) ∧
    (publicValues = (buildMessageAirBundle s message).finalPublicValues →
      ∃ T : Fin airWidth → BabyBear[X], (∀ c, (T c).natDegree < totalRows message) ∧
        ∀ P ∈ Symbolic.eval (polyWindow sel (columnsOf T) pcols publicValues), X ^ totalRows message - 1 ∣ P) := by
  refine ⟨fun T h => ⟨columns_publicValues hω hpcols h, fun j hj r hr w hw l hl =>
    columns_states hω hpcols h hj hr hw hl⟩, ?_⟩
  rintro rfl
  exact ⟨fun c => columnPolys ω (buildMessageAirBundle s message).main c, fun c =>
    natDegree_columnPolys_lt (bundle_main_height s message) (totalRows_ne_zero message) hω c, columns_complete hω hpcols sel⟩

/-- The matrices of 300 zero bytes, three blocks and a dummy segment, have a domain of `2^9` points;
there are columns for the public values, and they carry the states of the three chained blocks. -/
theorem messageColumns_iff_threeBlocks :
    let message : List U8 := List.replicate 300 0
    let bundle := buildMessageAirBundle initialState message
    (paddedBlocks message).length = 3 ∧ totalRows message = 2 ^ 9 ∧
    ∃ (ω : BabyBear) (hω : IsPrimitiveRoot ω (totalRows message)) (T : Fin airWidth → BabyBear[X]),
      (∀ c, (T c).natDegree < totalRows message) ∧
      (∀ P ∈ Symbolic.eval (polyWindow (standardSelectors hω (totalRows_ne_zero message)) (columnsOf T)
        (columnPolys ω bundle.preprocessed) bundle.finalPublicValues), X ^ totalRows message - 1 ∣ P) ∧
      ∀ j < 3, ∀ r ≤ 80, ∀ w < 8, ∀ l < 4, (columnsOf T (limbCol w l)).eval (ω ^ (128 * j + r)) =
        fromU16 (u64ToLimbs ((segTrace initialState (paddedBlocks message) j).roundStates[r]!)[w]!)[l]! := by
  intro message bundle
  have hn : (paddedBlocks message).length = 3 := paddedBlocks_length_threeBlocks
  have hrows : totalRows message = 2 ^ 9 := totalRows_threeBlocks
  obtain ⟨ω, hω⟩ := (exists_domain_iff 9).2 (by decide)
  rw [← hrows] at hω
  obtain ⟨hstates, hcolumns⟩ := messageColumns_iff initialState message bundle.finalPublicValues ω hω
    (standardSelectors hω (totalRows_ne_zero message)) (columnPolys ω bundle.preprocessed)
    (columnPolys_interpolates (by rwa [bundle_prep_height]))
  obtain ⟨T, hdegree, hT⟩ := hcolumns rfl
  exact ⟨hn, hrows, ω, hω, T, hdegree, hT, fun j hj => (hstates T hT).2 j (by omega)⟩

end Sha512Circuit
