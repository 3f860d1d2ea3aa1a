/-
`eval` at a point outside the trace domain. The verifier runs it on the values of the columns at a
point of an extension field; there it computes the values of the prover's constraint polynomials, so
the quotient identities hold at every point for a trace that the row checker accepts, and for a trace
that it rejects at no more points than their degrees allow, whatever the quotients are.
-/
import Sha512Circuit.Air.ConstraintDegree

namespace Sha512Circuit

open Polynomial CyclicDomain

section Opened

variable {K : Type*} [Field K] (f : BabyBear →+* K) {ω : BabyBear} {n : ℕ}

/-- The window of a verifier: the columns at a point and at its shift, the selectors at the point. -/
noncomputable def openedWindow (sel : Selectors ω n) (cols prep : ℕ → BabyBear[X])
    (publicValues : Vector BabyBear 8) (x : K) : Symbolic.Window K :=
  { loc := fun c => (cols c).eval₂ f x, next := fun c => (cols c).eval₂ f (f ω * x)
    locPrep := fun c => (prep c).eval₂ f x, publicValues := publicValues.map f
    isLast := sel.isLast.eval₂ f x, isTransition := sel.isTransition.eval₂ f x }

/-- On opened values `eval` computes the values of the constraint polynomials. -/
theorem eval_openedWindow (sel : Selectors ω n) (cols prep : ℕ → BabyBear[X]) (publicValues : Vector BabyBear 8) (x : K) :
    Symbolic.eval (openedWindow f sel cols prep publicValues x) =
      (Symbolic.eval (polyWindow sel cols prep publicValues)).map (eval₂ f x) := by
  have hpub : (publicValues.map C).map (eval₂RingHom f x) = publicValues.map f := by
    rw [Vector.map_map]
    refine Vector.ext fun i hi => ?_
    rw [Vector.getElem_map, Vector.getElem_map]
    exact eval₂_C f x
  have hnext : ∀ c, eval₂RingHom f x (shift ω (cols c)) = (cols c).eval₂ f (f ω * x) := fun c => eval₂_shift f x ω _
  rw [← coe_eval₂RingHom, Symbolic.eval_map]
  unfold Symbolic.Window.map polyWindow openedWindow
  simp only [hpub, hnext]
  rfl

/-- The quotient identities at a point: constraint `i` on the opened values is the value of the
vanishing polynomial times that of quotient `i`. -/
def QuotientsAgree (sel : Selectors ω n) (cols prep : ℕ → BabyBear[X]) (publicValues : Vector BabyBear 8)
    (Q : ℕ → K[X]) (x : K) : Prop :=
  ∀ i c, (Symbolic.eval (openedWindow f sel cols prep publicValues x))[i]? = some c → c = (x ^ n - 1) * (Q i).eval x

theorem quotientsAgree_iff {sel : Selectors ω n} {cols prep : ℕ → BabyBear[X]} {publicValues : Vector BabyBear 8}
    {Q : ℕ → K[X]} {x : K} : QuotientsAgree f sel cols prep publicValues Q x ↔
      ∀ i P, (Symbolic.eval (polyWindow sel cols prep publicValues))[i]? = some P →
        (P.map f).eval x = (x ^ n - 1) * (Q i).eval x := by
  unfold QuotientsAgree
  simp only [eval_openedWindow, List.getElem?_map, Option.map_eq_some_iff]
  constructor
  · intro h i P hP
    rw [eval_map]
    exact h i _ ⟨P, hP, rfl⟩
  · rintro h i _ ⟨P, hP, rfl⟩
    rw [← eval_map]
    exact h i P hP

end Opened

section Decides

variable {K : Type*} [Field K] (f : BabyBear →+* K) {ω : BabyBear} {n : ℕ} (hω : IsPrimitiveRoot ω n) (hn : n ≠ 0)
  {cols pcols : ℕ → BabyBear[X]} (hcols : ∀ c, (cols c).natDegree < n) (hpcols : ∀ c, (pcols c).natDegree < n)
  {publicValues : Vector BabyBear 8}
include hcols hpcols

/-- Satisfied constraints have quotients that agree everywhere. -/
theorem exists_quotients (h : ConstraintsDivisible (standardSelectors hω hn) cols pcols publicValues) :
    ∃ Q : ℕ → K[X], (∀ i, (Q i).natDegree ≤ 6 * (n - 1) + 1 - n) ∧
      ∀ x, QuotientsAgree f (standardSelectors hω hn) cols pcols publicValues Q x := by
  have hdeg := natDegree_polyWindow_le hω hn hcols hpcols publicValues
  have hex : ∀ i : ℕ, ∃ q : BabyBear[X], q.natDegree ≤ 6 * (n - 1) + 1 - n ∧
      ∀ P, (Symbolic.eval (polyWindow (standardSelectors hω hn) cols pcols publicValues))[i]? = some P →
        P = (X ^ n - 1) * q := by
    intro i
    cases hi : (Symbolic.eval (polyWindow (standardSelectors hω hn) cols pcols publicValues))[i]? with
    | none => exact ⟨0, by rw [natDegree_zero]; exact Nat.zero_le _, fun P hP => by cases hP⟩
    | some P =>
      have hmem := List.mem_of_getElem? hi
      obtain ⟨q, hq⟩ := h P hmem
      refine ⟨q, ?_, fun P' hP' => (Option.some.inj hP') ▸ hq⟩
      rw [natDegree_quotient hn hq]
      exact Nat.sub_le_sub_right (hdeg P hmem) n
  choose q hqdeg hq using hex
  refine ⟨fun i => (q i).map f, fun i => le_trans natDegree_map_le (hqdeg i), fun x => ?_⟩
  rw [quotientsAgree_iff]
  intro i P hP
  rw [hq i P hP, Polynomial.map_mul, eval_mul, Polynomial.map_sub, Polynomial.map_pow, map_X, Polynomial.map_one,
    eval_sub, eval_pow, eval_X, eval_one]

/-- A violated constraint agrees with no quotient at more points than the degrees allow. -/
theorem exists_quotient_points_of_violated
    (h : ¬ ConstraintsDivisible (standardSelectors hω hn) cols pcols publicValues) {d : ℕ} {Q : ℕ → K[X]}
    (hQ : ∀ i, (Q i).natDegree ≤ d) : ∃ Z : Finset K, Z.card ≤ max (6 * (n - 1) + 1) (n + d) ∧
      ∀ x, QuotientsAgree f (standardSelectors hω hn) cols pcols publicValues Q x → x ∈ Z := by
  unfold ConstraintsDivisible at h
  push Not at h
  obtain ⟨P, hmem, hP⟩ := h
  obtain ⟨i, hi⟩ := List.getElem?_of_mem hmem
  have hvanishing : ((X ^ n - 1 : BabyBear[X]).map f) = X ^ n - 1 := by
    rw [Polynomial.map_sub, Polynomial.map_pow, map_X, Polynomial.map_one]
  have hK : ¬ (X ^ n - 1 : K[X]) ∣ P.map f := by
    rw [← hvanishing]
    exact fun hdvd => hP ((map_dvd_map' f).1 hdvd)
  obtain ⟨Z, hcard, hZ⟩ := exists_quotient_points (Q := Q i) hK
  refine ⟨Z, le_trans hcard (max_le_max ?_ (Nat.add_le_add_left (hQ i) n)), fun x hx => ?_⟩
  · exact le_trans natDegree_map_le (natDegree_polyWindow_le hω hn hcols hpcols publicValues P hmem)
  · exact hZ x ((quotientsAgree_iff f).1 hx i P hi)

end Decides

/-- One point outside the domain decides, up to the degrees: for columns below degree `n` that take
the values of both matrices on the domain, and any field above BabyBear, the constraints on the values
opened at a point are the constraint polynomials there; if the row checker accepts the matrices, there
are quotients of degree at most `6 (n - 1) + 1 - n` that agree with them at every point, and if it
rejects them, quotients of degree at most `d` agree at no more than `max (6 (n - 1) + 1) (n + d)`
points. -/
theorem outOfDomain_decides (main prep : RowMajorMatrix) (publicValues : Vector BabyBear 8) (n : ℕ) (hn : n ≠ 0)
    (hw : main.width = airWidth) (hh : main.height = n) (hpw : prep.width = airWidth) (hph : prep.height = n)
    (ω : BabyBear) (hω : IsPrimitiveRoot ω n) (cols pcols : ℕ → BabyBear[X])
    (hcols : Interpolates ω main cols) (hpcols : Interpolates ω prep pcols)
    (hdeg : ∀ c, (cols c).natDegree < n) (hpdeg : ∀ c, (pcols c).natDegree < n)
    (K : Type) [Field K] (f : BabyBear →+* K) :
    (∀ x : K, Symbolic.eval (openedWindow f (standardSelectors hω hn) cols pcols publicValues x) =
      (Symbolic.eval (polyWindow (standardSelectors hω hn) cols pcols publicValues)).map (eval₂ f x)) ∧
    (∀ wrap, airVanishes main prep publicValues wrap = true →
      ∃ Q : ℕ → K[X], (∀ i, (Q i).natDegree ≤ 6 * (n - 1) + 1 - n) ∧
        ∀ x, QuotientsAgree f (standardSelectors hω hn) cols pcols publicValues Q x) ∧
    ∀ wrap, airVanishes main prep publicValues wrap = false → ∀ (d : ℕ) (Q : ℕ → K[X]),
      (∀ i, (Q i).natDegree ≤ d) → ∃ Z : Finset K, Z.card ≤ max (6 * (n - 1) + 1) (n + d) ∧
        ∀ x, QuotientsAgree f (standardSelectors hω hn) cols pcols publicValues Q x → x ∈ Z := by
  have hiff := constraintsDivisible_iff hw hh hpw hph hω hn (standardSelectors hω hn) hcols hpcols publicValues
  refine ⟨fun x => eval_openedWindow f _ cols pcols publicValues x, fun wrap h => ?_, fun wrap h d Q hQ => ?_⟩
  · exact exists_quotients f hω hn hdeg hpdeg ((hiff wrap).2 h)
  · refine exists_quotient_points_of_violated f hω hn hdeg hpdeg (fun hdiv => ?_) hQ
    rw [(hiff wrap).1 hdiv] at h
    cases h

/-- The trace of the zero block has quotients that agree at every point. -/
theorem outOfDomain_decides_zeroBlock :
    ∃ (ω : BabyBear) (hω : IsPrimitiveRoot ω traceRows) (Q : ℕ → BabyBear[X]),
      (∀ i, (Q i).natDegree ≤ 6 * (traceRows - 1) + 1 - traceRows) ∧
      ∀ x, QuotientsAgree (RingHom.id BabyBear) (standardSelectors hω (by decide))
        (columnPolys ω (buildPlonky3AirTrace (compressBlock initialState (Vector.replicate 128 0))))
        (columnPolys ω (buildPlonky3PreprocessedTraceFromInstance initialState (Vector.replicate 128 0)))
        (publicValuesOf (compressBlock initialState (Vector.replicate 128 0))) Q x := by
  obtain ⟨ω, hω⟩ := (exists_domain_iff 7).2 (by decide)
  have hω : IsPrimitiveRoot ω traceRows := hω
  have hh := airTrace_height (compressBlock initialState (Vector.replicate 128 0))
  have hph := prepTrace_height initialState (Vector.replicate 128 0)
  refine ⟨ω, hω, ?_⟩
  exact (outOfDomain_decides _ _ _ traceRows (by decide) (airTrace_width _) hh (prepTrace_width _ _) hph ω hω _ _
    (columnPolys_interpolates (by rwa [hh])) (columnPolys_interpolates (by rwa [hph]))
    (natDegree_columnPolys_lt hh (by decide) hω) (natDegree_columnPolys_lt hph (by decide) hω)
    BabyBear (RingHom.id BabyBear)).2.1 0 (airTrace_vanishes _ _ 0)

end Sha512Circuit
