/-
The degree of the constraints: each polynomial handed to `assert_zero` has degree at most six in the
cells of the two rows, plus one for the transition flag, and the schedule recurrence attains it. So
the quotient of an accepted trace fits every blowup that the verifier policy admits.
-/
import Sha512Circuit.Air.TracePolynomials
import Mathlib.Algebra.Polynomial.Degree.SmallDegree

namespace Sha512Circuit

open Polynomial CyclicDomain

namespace Symbolic

/-! ## Lists of constraints -/

section Lists

variable {R : Type*} [CommRing R] {d j k : ℕ}

/-- Every constraint of a list has degree at most `k` in cells of degree `d`. -/
def AllDegreeLe (d k : ℕ) (cs : List R[X]) : Prop := ∀ P ∈ cs, DegreeLe d k P

theorem AllDegreeLe.mono {cs : List R[X]} (h : AllDegreeLe d j cs) (hjk : j ≤ k) : AllDegreeLe d k cs :=
  fun P hP => (h P hP).mono hjk

theorem allDegreeLe_nil : AllDegreeLe d k ([] : List R[X]) := fun _ h => absurd h List.not_mem_nil

theorem allDegreeLe_singleton {P : R[X]} (h : DegreeLe d k P) : AllDegreeLe d k [P] := by
  intro Q hQ
  rwa [List.mem_singleton.1 hQ]

theorem AllDegreeLe.append {cs cs' : List R[X]} (h : AllDegreeLe d k cs) (h' : AllDegreeLe d k cs') :
    AllDegreeLe d k (cs ++ cs') := fun P hP =>
  (List.mem_append.1 hP).elim (h P) (h' P)

theorem allDegreeLe_flatMap {ι : Type*} {l : List ι} {body : ι → List R[X]} (h : ∀ i ∈ l, AllDegreeLe d k (body i)) :
    AllDegreeLe d k (l.flatMap body) := by
  intro P hP
  obtain ⟨i, hi, hP⟩ := List.mem_flatMap.1 hP
  exact h i hi P hP

theorem allDegreeLe_forLimbs {body : ℕ → List R[X]} (h : ∀ limb, AllDegreeLe d k (body limb)) :
    AllDegreeLe d k (forLimbs body) :=
  allDegreeLe_flatMap fun limb _ => h limb

theorem AllDegreeLe.filtered {condition : R[X]} {cs : List R[X]} (hc : DegreeLe d j condition) (h : AllDegreeLe d k cs) :
    AllDegreeLe d (j + k) (filtered condition cs) := by
  intro P hP
  obtain ⟨Q, hQ, rfl⟩ := List.mem_map.1 hP
  exact hc.mul (h Q hQ)

theorem allDegreeLe_assertEq {x y : R[X]} (hx : DegreeLe d k x) (hy : DegreeLe d k y) : AllDegreeLe d k (assertEq x y) :=
  allDegreeLe_singleton (hx.sub hy)

theorem allDegreeLe_assertBool {x : R[X]} (hx : DegreeLe d 1 x) : AllDegreeLe d 2 (assertBool x) :=
  allDegreeLe_singleton (hx.mul (hx.sub degreeLe_one))

/-! ## Packing and bit polynomials -/

theorem degreeLe_packLe {n : ℕ} {bit : ℕ → R[X]} (h : ∀ i, DegreeLe d k (bit i)) : DegreeLe d k (packLe n bit) :=
  degreeLe_foldl_add _ _ (fun i _ => (h i).mul_const (natDegree_natCast _)) 0 degreeLe_zero

theorem degreeLe_packLimbExpr {bitExpr : ℕ → R[X]} (h : ∀ i, DegreeLe d k (bitExpr i)) (limb : ℕ) :
    DegreeLe d k (packLimbExpr bitExpr limb) :=
  degreeLe_packLe fun _ => h _

theorem degreeLe_xor2Expr {x y : R[X]} (hx : DegreeLe d j x) (hy : DegreeLe d k y) :
    DegreeLe d (j + k) (xor2Expr x y) :=
  ((hx.mono (by omega)).add (hy.mono (by omega))).sub ((hx.mul hy).mul_const (natDegree_natCast 2))

theorem degreeLe_xor3Expr {x y z : R[X]} (hx : DegreeLe d 1 x) (hy : DegreeLe d 1 y) (hz : DegreeLe d 1 z) :
    DegreeLe d 3 (xor3Expr x y z) :=
  degreeLe_xor2Expr (degreeLe_xor2Expr hx hy) hz

end Lists

section Groups

variable {R : Type*} [CommRing R] {d k : ℕ} {loc next prep : ℕ → R[X]} (hloc : ∀ c, DegreeLe d 1 (loc c))
include hloc

theorem degreeLe_packBits (base : ℕ) : DegreeLe d 1 (packBits loc base) := by
  unfold packBits
  generalize (List.range 64).reverse = l
  suffices key : ∀ acc, DegreeLe d 1 acc →
      DegreeLe d 1 (l.foldl (fun acc i => acc * ((2 : ℕ) : R[X]) + loc (base + i)) acc) from
    key 0 degreeLe_zero
  induction l with
  | nil => exact fun acc h => h
  | cons i l ih => exact fun acc h => ih _ ((h.mul_const (natDegree_natCast 2)).add (hloc _))

theorem degreeLe_packWordFromLimbs (word : ℕ) : DegreeLe d 1 (packWordFromLimbs loc word) :=
  (((hloc _).add ((hloc _).mul_const (natDegree_natCast _))).add ((hloc _).mul_const (natDegree_natCast _))).add
    ((hloc _).mul_const (natDegree_natCast _))

theorem degreeLe_lagBitExpr (lag bit : ℕ) : DegreeLe d 1 (lagBitExpr loc lag bit) := by
  unfold lagBitExpr
  split
  · exact hloc _
  · exact hloc _
  · exact degreeLe_zero

theorem degreeLe_smallSigma0Bit (bit : ℕ) : DegreeLe d 3 (smallSigma0Bit loc bit) := by
  refine degreeLe_xor3Expr (degreeLe_lagBitExpr hloc _ _) (degreeLe_lagBitExpr hloc _ _) ?_
  split
  · exact degreeLe_lagBitExpr hloc _ _
  · exact degreeLe_zero

theorem degreeLe_smallSigma1Bit (bit : ℕ) : DegreeLe d 3 (smallSigma1Bit loc bit) := by
  refine degreeLe_xor3Expr (degreeLe_lagBitExpr hloc _ _) (degreeLe_lagBitExpr hloc _ _) ?_
  split
  · exact degreeLe_lagBitExpr hloc _ _
  · exact degreeLe_zero

/-! ## Additions -/

theorem allDegreeLe_constrainCarryMax (carryCol max : ℕ) : AllDegreeLe d 2 (constrainCarryMax loc carryCol max) := by
  refine ((allDegreeLe_flatMap fun bit _ => allDegreeLe_assertBool (hloc _)).append ?_).append ?_
  · exact (allDegreeLe_assertEq (hloc _) (degreeLe_packLe fun _ => hloc _)).mono (by omega)
  · split
    · exact allDegreeLe_singleton ((hloc _).mul ((hloc _).add (hloc _)))
    · exact allDegreeLe_nil

/-- The limb loop, from the degrees of the sums and of what is emitted for them. -/
theorem allDegreeLe_constrainAddLimbs {j : ℕ} {sum out : ℕ → R[X]} {carryBase max : ℕ} {emit : R[X] → R[X] → List R[X]}
    (hj : 1 ≤ j) (hsum : ∀ l, DegreeLe d j (sum l)) (hout : ∀ l, DegreeLe d j (out l)) (hk : 2 ≤ k)
    (hemit : ∀ x y, DegreeLe d j x → DegreeLe d j y → AllDegreeLe d k (emit x y)) :
    AllDegreeLe d k (constrainAddLimbs loc sum out carryBase max emit) := by
  unfold constrainAddLimbs
  generalize List.range limbsPerWord = l
  -- the running carry is a cell or zero
  suffices key : ∀ st : R[X] × List R[X], DegreeLe d 1 st.1 → AllDegreeLe d k st.2 →
      AllDegreeLe d k (l.foldl (fun (st : R[X] × List R[X]) limb =>
        (loc (carryBase + limb), st.2 ++ constrainCarryMax loc (carryBase + limb) max ++
          emit (sum limb + st.1) (out limb + loc (carryBase + limb) * ((2 ^ 16 : ℕ) : R[X])))) st).2 from
    key (0, []) degreeLe_zero allDegreeLe_nil
  induction l with
  | nil => exact fun st _ h => h
  | cons limb l ih =>
    intro st hcarry h
    refine ih _ (hloc _) ((h.append ((allDegreeLe_constrainCarryMax hloc _ _).mono hk)).append (hemit _ _ ?_ ?_))
    · exact (hsum limb).add (hcarry.mono hj)
    · exact (hout limb).add (((hloc _).mul_const (natDegree_natCast _)).mono hj)

theorem allDegreeLe_constrainAdd5Limbs (op0 op1 op2 op3 op4 out carryBase : ℕ) :
    AllDegreeLe d 2 (constrainAdd5Limbs loc op0 op1 op2 op3 op4 out carryBase) :=
  allDegreeLe_constrainAddLimbs hloc le_rfl
    (fun _ => ((((hloc _).add (hloc _)).add (hloc _)).add (hloc _)).add (hloc _)) (fun _ => hloc _) le_rfl
    fun _ _ hx hy => (allDegreeLe_assertEq hx hy).mono (by omega)

theorem allDegreeLe_constrainAdd2Limbs (lhs rhs out carryBase : ℕ) :
    AllDegreeLe d 2 (constrainAdd2Limbs loc lhs rhs out carryBase) :=
  allDegreeLe_constrainAddLimbs hloc le_rfl (fun _ => (hloc _).add (hloc _)) (fun _ => hloc _) le_rfl
    fun _ _ hx hy => (allDegreeLe_assertEq hx hy).mono (by omega)

/-- A selector of degree two and the sum of two bit polynomials. -/
theorem allDegreeLe_constrainScheduleRecurrence {selector : R[X]} (hsel : DegreeLe d 2 selector) :
    AllDegreeLe d 5 (constrainScheduleRecurrence loc selector) := by
  have hcell : ∀ c, DegreeLe d 3 (loc c) := fun c => (hloc c).mono (by omega)
  refine allDegreeLe_constrainAddLimbs hloc (show 1 ≤ 3 by omega) (fun l => ?_) (fun _ => hcell _) (by omega)
    fun x y hx hy => allDegreeLe_singleton (hsel.mul (hx.sub hy))
  exact (((degreeLe_packLimbExpr (degreeLe_smallSigma1Bit hloc) l).add (hcell _)).add
    (degreeLe_packLimbExpr (degreeLe_smallSigma0Bit hloc) l)).add (hcell _)

/-! ## Groups of one row -/

theorem allDegreeLe_evalBitWord {roundSel : R[X]} (hsel : DegreeLe d 1 roundSel) (word base : ℕ) :
    AllDegreeLe d 3 (evalBitWord loc roundSel word base) := by
  have hbits := degreeLe_packBits hloc base
  unfold evalBitWord
  generalize packBits loc base = bits at hbits ⊢
  refine ((allDegreeLe_flatMap fun bit _ => ?_).append ?_).append (allDegreeLe_forLimbs fun limb => ?_)
  · exact allDegreeLe_singleton (hsel.mul ((hloc _).mul (degreeLe_one.sub (hloc _))))
  · exact allDegreeLe_singleton ((hsel.mul ((degreeLe_packWordFromLimbs hloc _).sub hbits)).mono (by omega))
  · exact allDegreeLe_singleton ((hsel.mul ((hloc _).sub (degreeLe_packLe fun _ => hloc _))).mono (by omega))

theorem allDegreeLe_evalBitwise {roundSel : R[X]} (hsel : DegreeLe d 1 roundSel) :
    AllDegreeLe d 4 (evalBitwise loc roundSel) := by
  have hcell : ∀ c, DegreeLe d 3 (loc c) := fun c => (hloc c).mono (by omega)
  have hsigma0 : ∀ i, DegreeLe d 3 (sigma0BitExpr loc i) := fun _ => degreeLe_xor3Expr (hloc _) (hloc _) (hloc _)
  have hsigma1 : ∀ i, DegreeLe d 3 (sigma1BitExpr loc i) := fun _ => degreeLe_xor3Expr (hloc _) (hloc _) (hloc _)
  have hch : ∀ i, DegreeLe d 3 (chBitExpr loc i) := fun _ =>
    (((hloc _).mul (hloc _)).add ((degreeLe_one.sub (hloc _)).mul (hloc _))).mono (by omega)
  have hmaj : ∀ i, DegreeLe d 3 (majBitExpr loc i) := fun _ =>
    ((((((hloc _).mul (hloc _)).add ((hloc _).mul (hloc _))).add ((hloc _).mul (hloc _))).mono (by omega)).sub
      ((((hloc _).mul (hloc _)).mul (hloc _)).mul_const (natDegree_natCast 2)))
  -- each of the four words: its selector times a cell against a packed limb
  have hword : ∀ {bitExpr : ℕ → R[X]} (c limb : ℕ), (∀ i, DegreeLe d 3 (bitExpr i)) →
      AllDegreeLe d 4 [roundSel * (loc c - packLimbExpr bitExpr limb)] := fun c limb h =>
    allDegreeLe_singleton (hsel.mul ((hcell c).sub (degreeLe_packLimbExpr h limb)))
  exact allDegreeLe_forLimbs fun limb =>
    (((hword _ _ hsigma0).append (hword _ _ hsigma1)).append (hword _ _ hch)).append (hword _ _ hmaj)

theorem allDegreeLe_evalRange : AllDegreeLe d 2 (evalRange loc) :=
  allDegreeLe_flatMap fun _ _ => (allDegreeLe_flatMap fun _ _ => allDegreeLe_assertBool (hloc _)).append
    ((allDegreeLe_assertEq (hloc _) (degreeLe_packLe fun _ => hloc _)).mono (by omega))

theorem allDegreeLe_evalLagBits : AllDegreeLe d 2 (evalLagBits loc) :=
  allDegreeLe_flatMap fun _ _ => (allDegreeLe_flatMap fun _ _ => allDegreeLe_assertBool (hloc _)).append
    (allDegreeLe_forLimbs fun _ => (allDegreeLe_assertEq (hloc _) (degreeLe_packLe fun _ => hloc _)).mono (by omega))

theorem allDegreeLe_evalLastRow : AllDegreeLe d 1 (evalLastRow loc) :=
  (allDegreeLe_flatMap fun _ _ => allDegreeLe_forLimbs fun _ => allDegreeLe_assertEq (hloc _) degreeLe_zero).append
    (allDegreeLe_flatMap fun _ _ => allDegreeLe_assertEq (hloc _) degreeLe_zero)

/-! ## Groups of several rows -/

theorem allDegreeLe_constrainAdd2LimbsAcrossRows (hnext : ∀ c, DegreeLe d 1 (next c)) (lhs rhs outNext carryBase : ℕ) :
    AllDegreeLe d 2 (constrainAdd2LimbsAcrossRows loc next lhs rhs outNext carryBase) :=
  allDegreeLe_constrainAddLimbs hloc le_rfl (fun _ => (hloc _).add (hloc _)) (fun _ => hnext _) le_rfl
    fun _ _ hx hy => (allDegreeLe_assertEq hx hy).mono (by omega)

theorem allDegreeLe_evalInstance (hprep : ∀ c, DegreeLe d 1 (prep c)) : AllDegreeLe d 2 (evalInstance loc prep) :=
  ((allDegreeLe_forLimbs fun _ => allDegreeLe_singleton ((hprep _).mul ((hloc _).sub (hprep _)))).append
    (allDegreeLe_forLimbs fun _ => allDegreeLe_singleton ((hprep _).mul ((hloc _).sub (hprep _))))).append
    (allDegreeLe_forLimbs fun _ => allDegreeLe_singleton ((degreeLe_one.sub (hprep _)).mul (hloc _)))

theorem allDegreeLe_evalBlockStart (hprep : ∀ c, DegreeLe d 1 (prep c)) : AllDegreeLe d 2 (evalBlockStart loc prep) :=
  allDegreeLe_flatMap fun _ _ => allDegreeLe_forLimbs fun _ =>
    allDegreeLe_singleton ((hprep _).mul ((hloc _).sub (hprep _)))

theorem allDegreeLe_evalPublic (hprep : ∀ c, DegreeLe d 1 (prep c)) {publicValues : Vector R[X] 8}
    (hpub : ∀ i, DegreeLe d 1 (publicValues.toArray.getD i 0)) : AllDegreeLe d 2 (evalPublic loc prep publicValues) :=
  allDegreeLe_flatMap fun i _ =>
    allDegreeLe_singleton ((hprep _).mul ((hpub i).sub (degreeLe_packWordFromLimbs hloc i)))

/-- The transition constraints before their filters: five cells in the schedule recurrence. -/
theorem allDegreeLe_evalTransition (hnext : ∀ c, DegreeLe d 1 (next c)) (hprep : ∀ c, DegreeLe d 1 (prep c)) :
    AllDegreeLe d 5 (evalTransition loc next prep) := by
  have hmove : ∀ x y, AllDegreeLe d 5 (assertEq (next x) (loc y)) := fun x y =>
    (allDegreeLe_assertEq (hnext x) (hloc y)).mono (by omega)
  refine ((((((?_ : AllDegreeLe d 5 _).append ?_).append ?_).append ?_).append ?_).append ?_).append ?_
  · exact (allDegreeLe_constrainAdd5Limbs hloc _ _ _ _ _ _ _).mono (by omega)
  · exact (allDegreeLe_constrainAdd2Limbs hloc _ _ _ _).mono (by omega)
  · exact (allDegreeLe_constrainAdd2LimbsAcrossRows hloc hnext _ _ _ _).mono (by omega)
  · exact (allDegreeLe_constrainAdd2LimbsAcrossRows hloc hnext _ _ _ _).mono (by omega)
  · exact allDegreeLe_forLimbs fun limb => (((((hmove _ _).append (hmove _ _)).append (hmove _ _)).append
      (hmove _ _)).append (hmove _ _)).append (hmove _ _)
  · refine allDegreeLe_flatMap fun lag _ => allDegreeLe_forLimbs fun limb => ?_
    split
    · exact hmove _ _
    · exact hmove _ _
  · exact allDegreeLe_constrainScheduleRecurrence hloc ((hprep _).mul (degreeLe_one.sub (hprep _)))

end Groups

/-! ## The whole of `eval` -/

/-- Degree at most six in the cells, and one more for the transition flag. -/
theorem natDegree_eval_le {R : Type*} [CommRing R] {d : ℕ} {w : Window R[X]} (hloc : ∀ c, (w.loc c).natDegree ≤ d)
    (hnext : ∀ c, (w.next c).natDegree ≤ d) (hprep : ∀ c, (w.locPrep c).natDegree ≤ d)
    (hpub : ∀ i, (w.publicValues.toArray.getD i 0).natDegree ≤ d) (hlast : w.isLast.natDegree ≤ d)
    (htrans : w.isTransition.natDegree ≤ 1) : ∀ P ∈ eval w, P.natDegree ≤ 6 * d + 1 := by
  have hloc := fun c => degreeLe_cell (hloc c)
  have hnext := fun c => degreeLe_cell (hnext c)
  have hprep := fun c => degreeLe_cell (hprep c)
  have hgroup : ∀ {k : ℕ} {cs : List R[X]}, k ≤ 6 → AllDegreeLe d k cs → ∀ P ∈ cs, P.natDegree ≤ 6 * d + 1 :=
    fun hk h P hP => le_trans (h.mono hk P hP) (Nat.le_succ _)
  unfold eval
  simp only [List.forall_mem_append]
  refine ⟨⟨⟨⟨⟨⟨⟨⟨?_, ?_⟩, ?_⟩, ?_⟩, ?_⟩, ?_⟩, ?_⟩, ?_⟩, ?_⟩
  · exact hgroup (by omega) (allDegreeLe_evalInstance hloc hprep)
  · exact hgroup (by omega) (allDegreeLe_evalBlockStart hloc hprep)
  · exact hgroup (by omega) (allDegreeLe_evalPublic hloc hprep fun i => degreeLe_cell (hpub i))
  · exact hgroup (by omega) (allDegreeLe_flatMap fun wb _ => allDegreeLe_evalBitWord hloc (hprep _) wb.1 wb.2)
  · exact hgroup (by omega) (allDegreeLe_evalBitwise hloc (hprep _))
  · exact hgroup (by omega) (allDegreeLe_evalRange hloc)
  · exact hgroup (by omega) (allDegreeLe_evalLagBits hloc)
  -- the transition flag is not a cell: its degree is one whatever the height
  · intro P hP
    obtain ⟨Q, hQ, rfl⟩ := List.mem_map.1 hP
    have hQ := ((allDegreeLe_evalTransition hloc hnext hprep).filtered (hprep prepTransitionSelectorCol)) Q hQ
    have := natDegree_mul_le_of_le htrans hQ
    omega
  · exact hgroup (by omega) ((allDegreeLe_evalLastRow hloc).filtered (degreeLe_cell hlast))

/-! ## The schedule recurrence -/

section Schedule

variable {E : Type*} [CommRing E]

/-- The first limb of the limb loop has no carry in. -/
theorem mem_constrainAddLimbs {row sum out : ℕ → E} {carryBase max : ℕ} {emit : E → E → List E} {P : E}
    (h : P ∈ emit (sum 0 + 0) (out 0 + row carryBase * ((2 ^ 16 : ℕ) : E))) :
    P ∈ constrainAddLimbs row sum out carryBase max emit := by
  have hrange : List.range limbsPerWord = [0, 1, 2, 3] := rfl
  unfold constrainAddLimbs
  simp only [hrange, List.foldl_cons, List.foldl_nil, List.mem_append, Nat.add_zero]
  tauto

/-- The lowest limb of the schedule recurrence, under its two filters. -/
theorem mem_eval_schedule (w : Window E) :
    w.isTransition * (w.locPrep prepTransitionSelectorCol *
      (w.locPrep prepRoundSelectorCol * (1 - w.locPrep prepInitWSelectorCol) *
        (packLimbExpr (smallSigma1Bit w.loc) 0 + w.loc (lagLimbCol 6 0) + packLimbExpr (smallSigma0Bit w.loc) 0 +
          w.loc (lagLimbCol 15 0) + 0 - (w.loc (limbCol wordW 0) + w.loc schedCarryBase * ((2 ^ 16 : ℕ) : E))))) ∈
      eval w := by
  have hsched : ∀ selector : E, _ ∈ constrainScheduleRecurrence w.loc selector := fun selector =>
    mem_constrainAddLimbs (List.mem_singleton.2 rfl)
  unfold eval filtered evalTransition
  simp only [List.mem_append, List.mem_map]
  exact .inl (.inr ⟨_, ⟨_, .inr (hsched _), rfl⟩, rfl⟩)

/-- With one value in every cell that limb is a cubic. -/
theorem schedule_const (y : E) :
    packLimbExpr (smallSigma1Bit fun _ => y) 0 + y + packLimbExpr (smallSigma0Bit fun _ => y) 0 + y + 0 -
      (y + y * ((2 ^ 16 : ℕ) : E)) = 524280 * y ^ 3 + (-786420) * y ^ 2 + 327675 * y + 0 := by
  have h1 : ∀ bit < 16, smallSigma1Bit (fun _ => y) bit = xor3Expr y y y := fun bit h => by
    rw [smallSigma1Bit, if_pos (by omega)]; rfl
  have h0 : ∀ bit < 16, smallSigma0Bit (fun _ => y) bit = xor3Expr y y y := fun bit h => by
    rw [smallSigma0Bit, if_pos (by omega)]; rfl
  have hpack : ∀ {e : ℕ → E}, (∀ bit < 16, e bit = xor3Expr y y y) → packLimbExpr e 0 = 65535 * xor3Expr y y y := by
    intro e he
    have hrange : List.range 16 = [0, 1, 2, 3, 4, 5, 6, 7, 8, 9, 10, 11, 12, 13, 14, 15] := rfl
    unfold packLimbExpr packLe
    simp only [hrange, List.foldl_cons, List.foldl_nil, Nat.zero_mul, Nat.zero_add]
    rw [he 0, he 1, he 2, he 3, he 4, he 5, he 6, he 7, he 8, he 9, he 10, he 11, he 12, he 13, he 14, he 15] <;>
      try omega
    push_cast
    ring
  rw [hpack h1, hpack h0]
  unfold xor3Expr xor2Expr
  push_cast
  ring

end Schedule

end Symbolic

/-! ## Columns of a trace -/

section Columns

variable {ω : BabyBear} {n : ℕ} (hω : IsPrimitiveRoot ω n) (hn : n ≠ 0)

/-- The constraint polynomials of columns below degree `n`. -/
theorem natDegree_polyWindow_le {cols pcols : ℕ → BabyBear[X]} (hcols : ∀ c, (cols c).natDegree < n)
    (hpcols : ∀ c, (pcols c).natDegree < n) (publicValues : Vector BabyBear 8) :
    ∀ P ∈ Symbolic.eval (polyWindow (standardSelectors hω hn) cols pcols publicValues),
      P.natDegree ≤ 6 * (n - 1) + 1 := by
  obtain ⟨hlast, htrans⟩ := natDegree_standardSelectors hω hn
  refine Symbolic.natDegree_eval_le (fun c => Nat.le_sub_one_of_lt (hcols c)) (fun c => ?_)
    (fun c => Nat.le_sub_one_of_lt (hpcols c)) (fun i => ?_) hlast.le htrans.le
  · exact le_trans (natDegree_shift ω (cols c)) (Nat.le_sub_one_of_lt (hcols c))
  · have hconst : (((publicValues.map C).toArray).getD i (0 : BabyBear[X])).natDegree = 0 := by
      rw [Array.getD_eq_getD_getElem?, Vector.toArray_map, Array.getElem?_map]
      cases publicValues.toArray[i]? with
      | none => exact natDegree_zero
      | some v => exact natDegree_C v
    exact hconst.le.trans (Nat.zero_le _)

/-- Columns that are all `X^(n-1)` attain the bound. -/
theorem natDegree_schedule_eq (h1 : 1 < n) (publicValues : Vector BabyBear 8) :
    ∃ P ∈ Symbolic.eval (polyWindow (standardSelectors hω hn) (fun _ => X ^ (n - 1)) (fun _ => X ^ (n - 1)) publicValues),
      P.natDegree = 6 * (n - 1) + 1 := by
  refine ⟨_, Symbolic.mem_eval_schedule _, ?_⟩
  obtain ⟨-, htrans⟩ := natDegree_standardSelectors hω hn
  have hY : (X ^ (n - 1) : BabyBear[X]).natDegree = n - 1 := natDegree_X_pow _
  have hone : (1 - X ^ (n - 1) : BabyBear[X]).natDegree = n - 1 := by
    rw [natDegree_sub_eq_right_of_natDegree_lt (by rw [hY, natDegree_one]; omega), hY]
  -- the sum against the expected word is a cubic in `X^(n-1)`
  have hcubic : (524280 * (X ^ (n - 1)) ^ 3 + (-786420) * (X ^ (n - 1)) ^ 2 + 327675 * X ^ (n - 1) + 0 :
      BabyBear[X]).natDegree = 3 * (n - 1) := by
    have hcomp : (524280 * (X ^ (n - 1)) ^ 3 + (-786420) * (X ^ (n - 1)) ^ 2 + 327675 * X ^ (n - 1) + 0 : BabyBear[X]) =
        (C 524280 * X ^ 3 + C (-786420) * X ^ 2 + C 327675 * X + C 0 : BabyBear[X]).comp (X ^ (n - 1)) := by
      simp only [C_neg, C_0, map_ofNat, add_comp, mul_comp, pow_comp, X_comp, neg_comp, ofNat_comp, zero_comp,
        Nat.cast_ofNat]
    rw [hcomp, natDegree_comp, natDegree_cubic (by decide), hY]
  have hne : ∀ {P : BabyBear[X]} {k : ℕ}, P.natDegree = k → 0 < k → P ≠ 0 := fun h hk h0 => by
    rw [h0, natDegree_zero] at h
    omega
  unfold polyWindow
  dsimp only
  rw [Symbolic.schedule_const, natDegree_mul (hne htrans one_pos), htrans, natDegree_mul (hne hY (by omega)), hY,
    natDegree_mul (mul_ne_zero (hne hY (by omega)) (hne hone (by omega))) (hne hcubic (by omega)),
    natDegree_mul (hne hY (by omega)) (hne hone (by omega)), hY, hone, hcubic]
  · omega
  · exact mul_ne_zero (mul_ne_zero (hne hY (by omega)) (hne hone (by omega))) (hne hcubic (by omega))
  · exact mul_ne_zero (hne hY (by omega))
      (mul_ne_zero (mul_ne_zero (hne hY (by omega)) (hne hone (by omega))) (hne hcubic (by omega)))

end Columns

/-- The verifier policy admits no blowup below three bits. -/
theorem logBlowup_of_policy {settings : Sha512ProofSettings} (h : meetsMinimumVerifierPolicy settings = true) :
    3 ≤ settings.logBlowup.toNat := by
  unfold meetsMinimumVerifierPolicy at h
  simp only [Bool.and_eq_true, decide_eq_true_eq] at h
  exact BitVec.le_def.1 h.1.1.1.2

/-- The constraint degree and the verifier policy: columns below degree `n` give constraints of degree
at most `6 (n - 1) + 1`, a bound that is attained; so the quotient of a satisfied constraint by
`X^n - 1` is below degree `2^log_blowup n` for all settings that meet the minimum policy. -/
theorem constraintDegree_policy (n : ℕ) (h1 : 1 < n) (ω : BabyBear) (hω : IsPrimitiveRoot ω n)
    (publicValues : Vector BabyBear 8) :
    (∀ cols pcols : ℕ → BabyBear[X], (∀ c, (cols c).natDegree < n) → (∀ c, (pcols c).natDegree < n) →
      ∀ P ∈ Symbolic.eval (polyWindow (standardSelectors hω (by omega)) cols pcols publicValues),
        P.natDegree ≤ 6 * (n - 1) + 1 ∧
        ∀ Q, P = (X ^ n - 1) * Q → ∀ settings : Sha512ProofSettings, meetsMinimumVerifierPolicy settings = true →
          Q.natDegree < 2 ^ settings.logBlowup.toNat * n) ∧
    ∃ cols pcols : ℕ → BabyBear[X], (∀ c, (cols c).natDegree < n) ∧ (∀ c, (pcols c).natDegree < n) ∧
      ∃ P ∈ Symbolic.eval (polyWindow (standardSelectors hω (by omega)) cols pcols publicValues),
        P.natDegree = 6 * (n - 1) + 1 := by
  have hn : n ≠ 0 := by omega
  constructor
  · intro cols pcols hcols hpcols P hP
    have hdeg := natDegree_polyWindow_le hω hn hcols hpcols publicValues P hP
    refine ⟨hdeg, fun Q hQ settings hpolicy => ?_⟩
    rw [natDegree_quotient hn hQ]
    have hblowup : 2 ^ 3 * n ≤ 2 ^ settings.logBlowup.toNat * n :=
      Nat.mul_le_mul_right n (Nat.pow_le_pow_right (by omega) (logBlowup_of_policy hpolicy))
    omega
  · have hX : (X ^ (n - 1) : BabyBear[X]).natDegree < n := by
      rw [natDegree_X_pow]
      omega
    exact ⟨fun _ => X ^ (n - 1), fun _ => X ^ (n - 1), fun _ => hX, fun _ => hX, natDegree_schedule_eq hω hn h1 publicValues⟩

/-- On the domain of one block some constraint has degree `763`. -/
theorem constraintDegree_policy_block :
    ∃ (ω : BabyBear) (hω : IsPrimitiveRoot ω 128) (cols pcols : ℕ → BabyBear[X]), (∀ c, (cols c).natDegree < 128) ∧
      (∀ c, (pcols c).natDegree < 128) ∧
      ∃ P ∈ Symbolic.eval (polyWindow (standardSelectors hω (by omega)) cols pcols (Vector.replicate 8 0)),
        P.natDegree = 763 := by
  obtain ⟨ω, hω⟩ := (exists_domain_iff 7).2 (by decide)
  exact ⟨ω, hω, (constraintDegree_policy 128 (by omega) ω hω (Vector.replicate 8 0)).2⟩

end Sha512Circuit
