/-
Polynomials on a cyclic domain: the `n` powers of a primitive root of unity are the zeros of
`X^n - 1`, so a polynomial vanishes on the whole domain exactly if `X^n - 1` divides it. Columns of
values have interpolants below degree `n`, the next row is a substitution `ω X`, and the first and
the last point are singled out by selector polynomials.
-/
import Mathlib.LinearAlgebra.Lagrange
import Mathlib.RingTheory.RootsOfUnity.PrimitiveRoots
import Mathlib.Algebra.Polynomial.Degree.Lemmas

namespace CyclicDomain

open Polynomial

/-! ## Degrees -/

section Degree

variable {R : Type*} [CommRing R]

/-- Degree at most `k` in cells of degree `d`. -/
def DegreeLe (d k : ℕ) (P : R[X]) : Prop := P.natDegree ≤ k * d

variable {d j k : ℕ} {P Q : R[X]}

theorem DegreeLe.mono (h : DegreeLe d j P) (hjk : j ≤ k) : DegreeLe d k P :=
  le_trans h (Nat.mul_le_mul_right d hjk)

theorem DegreeLe.add (hP : DegreeLe d k P) (hQ : DegreeLe d k Q) : DegreeLe d k (P + Q) :=
  natDegree_add_le_of_degree_le hP hQ

theorem DegreeLe.sub (hP : DegreeLe d k P) (hQ : DegreeLe d k Q) : DegreeLe d k (P - Q) :=
  le_trans (natDegree_sub_le_of_le hP hQ) (max_le le_rfl le_rfl)

theorem DegreeLe.mul (hP : DegreeLe d j P) (hQ : DegreeLe d k Q) : DegreeLe d (j + k) (P * Q) := by
  unfold DegreeLe
  rw [Nat.add_mul]
  exact natDegree_mul_le_of_le hP hQ

theorem DegreeLe.mul_const (hP : DegreeLe d k P) (hQ : Q.natDegree = 0) : DegreeLe d k (P * Q) := by
  have h := natDegree_mul_le_of_le hP hQ.le
  exact h

theorem degreeLe_of_natDegree_eq_zero (h : P.natDegree = 0) : DegreeLe d k P := by
  unfold DegreeLe
  rw [h]
  exact Nat.zero_le _

theorem degreeLe_zero : DegreeLe d k (0 : R[X]) := degreeLe_of_natDegree_eq_zero natDegree_zero

theorem degreeLe_one : DegreeLe d k (1 : R[X]) := degreeLe_of_natDegree_eq_zero natDegree_one

theorem degreeLe_cell (h : P.natDegree ≤ d) : DegreeLe d 1 P := by
  unfold DegreeLe
  rwa [Nat.one_mul]

/-- A loop that adds one term after another. -/
theorem degreeLe_foldl_add {ι : Type*} (f : ι → R[X]) (l : List ι) (hf : ∀ i ∈ l, DegreeLe d k (f i)) :
    ∀ acc, DegreeLe d k acc → DegreeLe d k (l.foldl (fun acc i => acc + f i) acc) := by
  induction l with
  | nil => exact fun acc h => h
  | cons i l ih =>
    intro acc h
    exact ih (fun i hi => hf i (List.mem_cons_of_mem _ hi)) _ (h.add (hf i List.mem_cons_self))

end Degree

/-! ## The vanishing polynomial -/

variable {F : Type*} [Field F] {ω : F} {n : ℕ}

theorem pow_injOn (hω : IsPrimitiveRoot ω n) : Set.InjOn (fun r => ω ^ r) (Finset.range n : Set ℕ) :=
  fun _ hi _ hj h => hω.pow_inj (Finset.mem_range.1 hi) (Finset.mem_range.1 hj) h

/-- A polynomial below degree `n` with zeros on the whole domain is zero. -/
theorem eq_zero_of_vanishes (hω : IsPrimitiveRoot ω n) {P : F[X]} (hd : P.degree < n)
    (h : ∀ r < n, P.eval (ω ^ r) = 0) : P = 0 :=
  eq_zero_of_degree_lt_of_eval_index_eq_zero (Finset.range n) (pow_injOn hω) (by rwa [Finset.card_range])
    fun r hr => h r (Finset.mem_range.1 hr)

theorem monic_vanishing (hn : n ≠ 0) : (X ^ n - 1 : F[X]).Monic := monic_X_pow_sub_C (1 : F) hn

theorem natDegree_vanishing : (X ^ n - 1 : F[X]).natDegree = n := natDegree_X_pow_sub_C (r := (1 : F))

theorem eval_vanishing (hω : IsPrimitiveRoot ω n) (r : ℕ) : (X ^ n - 1 : F[X]).eval (ω ^ r) = 0 := by
  rw [eval_sub, eval_pow, eval_X, eval_one, ← pow_mul, Nat.mul_comm, pow_mul, hω.pow_eq_one, one_pow, sub_self]

/-- Zeros on the whole domain are divisibility by the vanishing polynomial. -/
theorem vanishing_dvd_iff (hω : IsPrimitiveRoot ω n) (hn : n ≠ 0) (P : F[X]) :
    X ^ n - 1 ∣ P ↔ ∀ r < n, P.eval (ω ^ r) = 0 := by
  constructor
  · rintro ⟨Q, rfl⟩ r -
    rw [eval_mul, eval_vanishing hω, zero_mul]
  · intro h
    rw [← modByMonic_eq_zero_iff_dvd (monic_vanishing hn)]
    refine eq_zero_of_vanishes hω ?_ fun r hr => ?_
    · have := degree_modByMonic_lt P (monic_vanishing (F := F) hn)
      rwa [degree_eq_natDegree (monic_vanishing hn).ne_zero, natDegree_vanishing] at this
    -- the remainder differs from `P` by a multiple of the vanishing polynomial
    · rw [modByMonic_eq_sub_mul_div P (X ^ n - 1), eval_sub, eval_mul, eval_vanishing hω, zero_mul, sub_zero]
      exact h r hr

/-- The quotient by the vanishing polynomial is `n` degrees lower. -/
theorem natDegree_quotient {P Q : F[X]} (hn : n ≠ 0) (h : P = (X ^ n - 1) * Q) : Q.natDegree = P.natDegree - n := by
  by_cases hQ : Q = 0
  · rw [h, hQ, mul_zero, natDegree_zero, Nat.zero_sub]
  · rw [h, (monic_vanishing hn).natDegree_mul' hQ, natDegree_vanishing, Nat.add_sub_cancel_left]

/-- A polynomial that is not a multiple of `X^n - 1` looks like one, for any quotient, at no more points
than the degrees of the two sides. -/
theorem exists_quotient_points {P Q : F[X]} (h : ¬ X ^ n - 1 ∣ P) : ∃ Z : Finset F,
    Z.card ≤ max P.natDegree (n + Q.natDegree) ∧ ∀ x, P.eval x = (x ^ n - 1) * Q.eval x → x ∈ Z := by
  classical
  have hne : P - (X ^ n - 1) * Q ≠ 0 := fun h0 => h ⟨Q, sub_eq_zero.1 h0⟩
  have hdeg : ((X ^ n - 1 : F[X]) * Q).natDegree ≤ n + Q.natDegree :=
    le_trans natDegree_mul_le (by rw [natDegree_vanishing])
  refine ⟨(P - (X ^ n - 1) * Q).roots.toFinset, ?_, fun x hx => ?_⟩
  · calc (P - (X ^ n - 1) * Q).roots.toFinset.card
        ≤ Multiset.card (P - (X ^ n - 1) * Q).roots := Multiset.toFinset_card_le _
      _ ≤ (P - (X ^ n - 1) * Q).natDegree := card_roots' _
      _ ≤ max P.natDegree (n + Q.natDegree) := le_trans (natDegree_sub_le _ _) (max_le_max le_rfl hdeg)
  · rw [Multiset.mem_toFinset, mem_roots hne, IsRoot, eval_sub, eval_mul, eval_sub, eval_pow, eval_X, eval_one, hx,
      sub_self]

/-! ## Columns -/

/-- The interpolant of a column of `n` values. -/
noncomputable def interpolant (ω : F) (n : ℕ) (f : ℕ → F) : F[X] :=
  Lagrange.interpolate (Finset.range n) (fun r => ω ^ r) f

theorem eval_interpolant (hω : IsPrimitiveRoot ω n) (f : ℕ → F) {r : ℕ} (hr : r < n) :
    (interpolant ω n f).eval (ω ^ r) = f r :=
  Lagrange.eval_interpolate_at_node f (pow_injOn hω) (Finset.mem_range.2 hr)

theorem natDegree_interpolant (hω : IsPrimitiveRoot ω n) (f : ℕ → F) :
    (interpolant ω n f).natDegree ≤ n - 1 := by
  by_cases h0 : interpolant ω n f = 0
  · rw [h0, natDegree_zero]
    exact Nat.zero_le _
  · have h := Lagrange.degree_interpolate_lt f (pow_injOn hω)
    rw [Finset.card_range] at h
    have := (natDegree_lt_iff_degree_lt h0).2 h
    omega

/-- The column of the following rows. -/
noncomputable def shift (ω : F) (P : F[X]) : F[X] := P.comp (C ω * X)

theorem eval_shift (ω : F) (P : F[X]) (r : ℕ) : (shift ω P).eval (ω ^ r) = P.eval (ω ^ (r + 1)) := by
  rw [shift, eval_comp, eval_mul, eval_C, eval_X, pow_succ']

theorem natDegree_shift (ω : F) (P : F[X]) : (shift ω P).natDegree ≤ P.natDegree :=
  le_trans natDegree_comp_le (mul_le_of_le_one_right (Nat.zero_le _)
    (le_trans (natDegree_C_mul_le ω X) natDegree_X_le))

/-- The row after row `r` is row `r + 1`, and row 0 after the last. -/
theorem eval_shift_of_lt (hω : IsPrimitiveRoot ω n) (P : F[X]) {r : ℕ} (hr : r < n) :
    (shift ω P).eval (ω ^ r) = P.eval (ω ^ (if r + 1 < n then r + 1 else 0)) := by
  rw [eval_shift]
  split
  · rfl
  · rw [show r + 1 = n by omega, hω.pow_eq_one, pow_zero]

/-- The shifted column at a point of a larger ring. -/
theorem eval₂_shift {R : Type*} [CommSemiring R] (f : F →+* R) (x : R) (ω : F) (P : F[X]) :
    (shift ω P).eval₂ f x = P.eval₂ f (f ω * x) := by
  rw [shift, eval₂_comp, eval₂_mul, eval₂_C, eval₂_X]

/-! ## Selectors -/

/-- Polynomials that single out the first point, the last point, and the points before the last. -/
structure Selectors (ω : F) (n : ℕ) where
  isFirst : F[X]
  isLast : F[X]
  isTransition : F[X]
  isFirst_eval : ∀ r < n, isFirst.eval (ω ^ r) = 0 ↔ r ≠ 0
  isLast_eval : ∀ r < n, isLast.eval (ω ^ r) = 0 ↔ r + 1 ≠ n
  isTransition_eval : ∀ r < n, isTransition.eval (ω ^ r) = 0 ↔ r + 1 = n

/-- The vanishing polynomial without the factor of one point vanishes on the other points only. -/
theorem eval_quotient_point (hω : IsPrimitiveRoot ω n) {k : ℕ} (hk : k < n) {r : ℕ} (hr : r < n) :
    ((X ^ n - 1 : F[X]) /ₘ (X - C (ω ^ k))).eval (ω ^ r) = 0 ↔ r ≠ k := by
  have hn : n ≠ 0 := by omega
  have hfactor : (X - C (ω ^ k)) * ((X ^ n - 1 : F[X]) /ₘ (X - C (ω ^ k))) = X ^ n - 1 :=
    mul_divByMonic_eq_iff_isRoot.2 (eval_vanishing hω k)
  have hother : ∀ r < n, r ≠ k → ((X ^ n - 1 : F[X]) /ₘ (X - C (ω ^ k))).eval (ω ^ r) = 0 := by
    intro r hr hne
    have h := eval_vanishing hω r
    rw [← hfactor, eval_mul, eval_sub, eval_X, eval_C, mul_eq_zero, sub_eq_zero] at h
    exact h.resolve_left fun h => hne (hω.pow_inj hr hk h)
  refine ⟨fun h hrk => ?_, hother r hr⟩
  -- with a zero at the remaining point too it would be zero everywhere, and so would `X^n - 1`
  have hzero : ((X ^ n - 1 : F[X]) /ₘ (X - C (ω ^ k))) = 0 := by
    refine eq_zero_of_vanishes hω ?_ fun i hi => ?_
    · refine lt_of_le_of_lt degree_le_natDegree ?_
      rw [natDegree_divByMonic _ (monic_X_sub_C _), natDegree_vanishing, natDegree_X_sub_C, Nat.cast_lt]
      omega
    · rcases eq_or_ne i k with hik | hik
      · rw [hrk] at h
        rwa [hik]
      · exact hother i hi hik
  rw [hzero, mul_zero] at hfactor
  exact (monic_vanishing (F := F) hn).ne_zero hfactor.symm

/-- The selectors of a domain: `Z / (X - 1)`, `Z / (X - ω⁻¹)` and `X - ω⁻¹`. -/
noncomputable def standardSelectors (hω : IsPrimitiveRoot ω n) (hn : n ≠ 0) : Selectors ω n where
  isFirst := (X ^ n - 1) /ₘ (X - C (ω ^ 0))
  isLast := (X ^ n - 1) /ₘ (X - C (ω ^ (n - 1)))
  isTransition := X - C (ω ^ (n - 1))
  isFirst_eval := fun _ hr => eval_quotient_point hω (Nat.pos_of_ne_zero hn) hr
  isLast_eval := fun r hr => by
    rw [eval_quotient_point hω (by omega) hr]
    omega
  isTransition_eval := fun r hr => by
    rw [eval_sub, eval_X, eval_C, sub_eq_zero]
    constructor
    · intro h
      have := hω.pow_inj hr (by omega) h
      omega
    · intro h
      rw [show r = n - 1 by omega]

theorem natDegree_standardSelectors (hω : IsPrimitiveRoot ω n) (hn : n ≠ 0) :
    (standardSelectors hω hn).isLast.natDegree = n - 1 ∧ (standardSelectors hω hn).isTransition.natDegree = 1 := by
  constructor
  · show ((X ^ n - 1 : F[X]) /ₘ (X - C (ω ^ (n - 1)))).natDegree = n - 1
    rw [natDegree_divByMonic _ (monic_X_sub_C _), natDegree_vanishing, natDegree_X_sub_C]
  · exact natDegree_X_sub_C _

end CyclicDomain
