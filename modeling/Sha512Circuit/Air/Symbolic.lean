/-
`Sha512RoundAir::eval` over any ring of expressions. The source is generic in its `AirBuilder`: the
row checker and the verifier run it on field elements, the prover on polynomials. Here the
expressions are the elements of a commutative ring; on field elements the constraints are those of
the row checker, and a ring homomorphism carries the constraints of one ring to those of another.
-/
import Sha512Circuit.Air.RoundAir

namespace Sha512Circuit

namespace Symbolic

/-! ## The builder interface -/

section Definitions

variable {E : Type*} [CommRing E]

/-- `AirBuilder::assert_eq`. -/
def assertEq (x y : E) : List E := [x - y]

/-- `AirBuilder::assert_bool`. -/
def assertBool (x : E) : List E := [x * (x - 1)]

/-- `AirBuilder::when`. -/
def filtered (condition : E) (cs : List E) : List E := cs.map (condition * ·)

/-- `for limb in 0..LIMBS_PER_WORD`. -/
def forLimbs (body : ℕ → List E) : List E := (List.range limbsPerWord).flatMap body

/-- The accumulator `packed += bit * 2^i`. -/
def packLe (n : ℕ) (bit : ℕ → E) : E := (List.range n).foldl (fun acc i => acc + bit i * ((2 ^ i : ℕ) : E)) 0

/-! ## The gadgets -/

/-- `constrain_carry_max`. -/
def constrainCarryMax (row : ℕ → E) (carryCol max : ℕ) : List E :=
  (List.range (carryBitWidth carryCol)).flatMap (fun bit => assertBool (row (carryBitCol carryCol bit))) ++
  assertEq (row carryCol) (packLe (carryBitWidth carryCol) fun bit => row (carryBitCol carryCol bit)) ++
  match max with
  | 4 => [row (carryBitCol carryCol 2) * (row (carryBitCol carryCol 1) + row (carryBitCol carryCol 0))]
  | _ => []

/-- The loop of the addition gadgets, from a carry and the constraints so far. -/
def constrainAddLimbs (row : ℕ → E) (sum out : ℕ → E) (carryBase max : ℕ) (emit : E → E → List E) : List E :=
  ((List.range limbsPerWord).foldl (fun (st : E × List E) limb =>
    let carryIn := st.1
    let carryOut := row (carryBase + limb)
    (carryOut, st.2 ++ constrainCarryMax row (carryBase + limb) max ++
      emit (sum limb + carryIn) (out limb + carryOut * ((2 ^ 16 : ℕ) : E)))) (0, [])).2

/-- `constrain_add_5_limbs`. -/
def constrainAdd5Limbs (row : ℕ → E) (op0 op1 op2 op3 op4 out carryBase : ℕ) : List E :=
  constrainAddLimbs row
    (fun limb => row (limbCol op0 limb) + row (limbCol op1 limb) + row (limbCol op2 limb) +
      row (limbCol op3 limb) + row (limbCol op4 limb))
    (fun limb => row (limbCol out limb)) carryBase 4 assertEq

/-- `constrain_add_2_limbs`. -/
def constrainAdd2Limbs (row : ℕ → E) (lhs rhs out carryBase : ℕ) : List E :=
  constrainAddLimbs row (fun limb => row (limbCol lhs limb) + row (limbCol rhs limb))
    (fun limb => row (limbCol out limb)) carryBase 1 assertEq

/-- `constrain_add_2_limbs_across_rows`. -/
def constrainAdd2LimbsAcrossRows (loc next : ℕ → E) (lhs rhs outNext carryBase : ℕ) : List E :=
  constrainAddLimbs loc (fun limb => loc (limbCol lhs limb) + loc (limbCol rhs limb))
    (fun limb => next (limbCol outNext limb)) carryBase 1 assertEq

/-- `pack_bits`. -/
def packBits (row : ℕ → E) (bitBase : ℕ) : E :=
  (List.range 64).reverse.foldl (fun acc i => acc * ((2 : ℕ) : E) + row (bitBase + i)) 0

/-- `xor2_expr`. -/
def xor2Expr (x y : E) : E := x + y - x * y * ((2 : ℕ) : E)

/-- `xor3_expr`. -/
def xor3Expr (x y z : E) : E := xor2Expr (xor2Expr x y) z

/-- `lag_bit_expr`. -/
def lagBitExpr (row : ℕ → E) (lag bit : ℕ) : E :=
  match lag with
  | 1 => row (lag1BitBase + bit)
  | 14 => row (lag14BitBase + bit)
  | _ => 0

/-- `small_sigma0_bit`. -/
def smallSigma0Bit (row : ℕ → E) (bit : ℕ) : E :=
  xor3Expr (lagBitExpr row 14 ((bit + 1) % 64)) (lagBitExpr row 14 ((bit + 8) % 64))
    (if bit + 7 < 64 then lagBitExpr row 14 (bit + 7) else 0)

/-- `small_sigma1_bit`. -/
def smallSigma1Bit (row : ℕ → E) (bit : ℕ) : E :=
  xor3Expr (lagBitExpr row 1 ((bit + 19) % 64)) (lagBitExpr row 1 ((bit + 61) % 64))
    (if bit + 6 < 64 then lagBitExpr row 1 (bit + 6) else 0)

/-- One limb packed from a bit expression. -/
def packLimbExpr (bitExpr : ℕ → E) (limb : ℕ) : E := packLe 16 fun bit => bitExpr (limb * 16 + bit)

/-- `constrain_schedule_recurrence`. -/
def constrainScheduleRecurrence (row : ℕ → E) (selector : E) : List E :=
  constrainAddLimbs row
    (fun limb => packLimbExpr (smallSigma1Bit row) limb + row (lagLimbCol 6 limb) +
      packLimbExpr (smallSigma0Bit row) limb + row (lagLimbCol 15 limb))
    (fun limb => row (limbCol wordW limb)) schedCarryBase 3
    (fun sum expected => [selector * (sum - expected)])

/-! ## The constraint groups -/

/-- `pack_word_from_limbs`. -/
def packWordFromLimbs (row : ℕ → E) (word : ℕ) : E :=
  row (limbCol word 0) + row (limbCol word 1) * ((2 ^ 16 : ℕ) : E) +
    row (limbCol word 2) * ((2 ^ 32 : ℕ) : E) + row (limbCol word 3) * ((2 ^ 48 : ℕ) : E)

/-- `K`, `W[0..16]` and the zero `W`. -/
def evalInstance (loc prep : ℕ → E) : List E :=
  forLimbs (fun limb => [prep prepRoundSelectorCol * (loc (limbCol wordK limb) - prep (limbCol wordK limb))]) ++
  forLimbs (fun limb => [prep prepInitWSelectorCol * (loc (limbCol wordW limb) - prep (limbCol wordW limb))]) ++
  forLimbs (fun limb => [(1 - prep prepRoundSelectorCol) * loc (limbCol wordW limb)])

/-- `A..H` on block-start rows. -/
def evalBlockStart (loc prep : ℕ → E) : List E :=
  (List.range' wordA 8).flatMap fun word => forLimbs fun limb =>
    [prep prepBlockStartSelectorCol * (loc (limbCol word limb) - prep (limbCol word limb))]

/-- The public values on the final row. -/
def evalPublic (loc prep : ℕ → E) (publicValues : Vector E 8) : List E :=
  (List.range 8).flatMap fun i =>
    [prep prepFinalSelectorCol * (publicValues.toArray.getD i 0 - packWordFromLimbs loc i)]

/-- The Boolean decomposition of one word. -/
def evalBitWord (loc : ℕ → E) (roundSel : E) (word base : ℕ) : List E :=
  (List.range 64).flatMap (fun bit => [roundSel * (loc (base + bit) * (1 - loc (base + bit)))]) ++
  [roundSel * (packWordFromLimbs loc word - packBits loc base)] ++
  forLimbs fun limb => [roundSel * (loc (limbCol word limb) - packLe 16 fun bit => loc (base + limb * 16 + bit))]

/-- One bit of `Σ0(a)`. -/
def sigma0BitExpr (loc : ℕ → E) (bitIdx : ℕ) : E :=
  xor3Expr (loc (bitABase + (bitIdx + 28) % 64)) (loc (bitABase + (bitIdx + 34) % 64))
    (loc (bitABase + (bitIdx + 39) % 64))

/-- One bit of `Σ1(e)`. -/
def sigma1BitExpr (loc : ℕ → E) (bitIdx : ℕ) : E :=
  xor3Expr (loc (bitEBase + (bitIdx + 14) % 64)) (loc (bitEBase + (bitIdx + 18) % 64))
    (loc (bitEBase + (bitIdx + 41) % 64))

/-- One bit of `Ch(e, f, g)`. -/
def chBitExpr (loc : ℕ → E) (bitIdx : ℕ) : E :=
  let e := loc (bitEBase + bitIdx)
  let f := loc (bitFBase + bitIdx)
  let g := loc (bitGBase + bitIdx)
  e * f + (1 - e) * g

/-- One bit of `Maj(a, b, c)`. -/
def majBitExpr (loc : ℕ → E) (bitIdx : ℕ) : E :=
  let a := loc (bitABase + bitIdx)
  let b := loc (bitBBase + bitIdx)
  let c := loc (bitCBase + bitIdx)
  a * b + a * c + b * c - a * b * c * ((2 : ℕ) : E)

/-- The limbs of `Σ0`, `Σ1`, `Ch` and `Maj`. -/
def evalBitwise (loc : ℕ → E) (roundSel : E) : List E :=
  forLimbs fun limb =>
    [roundSel * (loc (limbCol wordSigma0 limb) - packLimbExpr (sigma0BitExpr loc) limb)] ++
    [roundSel * (loc (limbCol wordSigma1 limb) - packLimbExpr (sigma1BitExpr loc) limb)] ++
    [roundSel * (loc (limbCol wordCh limb) - packLimbExpr (chBitExpr loc) limb)] ++
    [roundSel * (loc (limbCol wordMaj limb) - packLimbExpr (majBitExpr loc) limb)]

/-- The 16-bit range proofs. -/
def evalRange (loc : ℕ → E) : List E :=
  (List.range rangeSources).flatMap fun src =>
    (List.range rangeBitsPerSource).flatMap (fun bit => assertBool (loc (rangeBitCol src bit))) ++
    assertEq (loc (rangeSourceCol src)) (packLe rangeBitsPerSource fun bit => loc (rangeBitCol src bit))

/-- The Boolean decompositions of lag words 1 and 14. -/
def evalLagBits (loc : ℕ → E) : List E :=
  [(1, lag1BitBase), (14, lag14BitBase)].flatMap fun lb =>
    (List.range 64).flatMap (fun bit => assertBool (loc (lb.2 + bit))) ++
    forLimbs fun limb => assertEq (loc (lagLimbCol lb.1 limb)) (packLe 16 fun bit => loc (lb.2 + limb * 16 + bit))

/-- The transition constraints, before their two filters. -/
def evalTransition (loc next prep : ℕ → E) : List E :=
  constrainAdd5Limbs loc wordH wordSigma1 wordCh wordK wordW wordT1 carryT1Base ++
  constrainAdd2Limbs loc wordSigma0 wordMaj wordT2 carryT2Base ++
  constrainAdd2LimbsAcrossRows loc next wordT1 wordT2 wordA carryABase ++
  constrainAdd2LimbsAcrossRows loc next wordD wordT1 wordE carryEBase ++
  (forLimbs fun limb =>
    assertEq (next (limbCol wordB limb)) (loc (limbCol wordA limb)) ++
    assertEq (next (limbCol wordC limb)) (loc (limbCol wordB limb)) ++
    assertEq (next (limbCol wordD limb)) (loc (limbCol wordC limb)) ++
    assertEq (next (limbCol wordF limb)) (loc (limbCol wordE limb)) ++
    assertEq (next (limbCol wordG limb)) (loc (limbCol wordF limb)) ++
    assertEq (next (limbCol wordH limb)) (loc (limbCol wordG limb))) ++
  ((List.range lagCount).flatMap fun lag => forLimbs fun limb =>
    assertEq (next (lagLimbCol lag limb))
      (if lag = 0 then loc (limbCol wordW limb) else loc (lagLimbCol (lag - 1) limb))) ++
  constrainScheduleRecurrence loc (prep prepRoundSelectorCol * (1 - prep prepInitWSelectorCol))

/-- The last-row constraints, before their filter. -/
def evalLastRow (loc : ℕ → E) : List E :=
  ((List.range' wordW (wordCount - wordW)).flatMap fun word => forLimbs fun limb =>
    assertEq (loc (limbCol word limb)) 0) ++
  (List.range' carryT1Base (bitABase - carryT1Base)).flatMap fun col => assertEq (loc col) 0

end Definitions

/-- What a builder over `E` shows `eval`. -/
structure Window (E : Type*) where
  loc : ℕ → E
  next : ℕ → E
  locPrep : ℕ → E
  publicValues : Vector E 8
  isLast : E
  isTransition : E

/-- `Sha512RoundAir::eval`: the values handed to `assert_zero`, in order. -/
def eval {E : Type*} [CommRing E] (w : Window E) : List E :=
  let roundSel := w.locPrep prepRoundSelectorCol
  evalInstance w.loc w.locPrep ++
  evalBlockStart w.loc w.locPrep ++
  evalPublic w.loc w.locPrep w.publicValues ++
  bitWords.flatMap (fun wb => evalBitWord w.loc roundSel wb.1 wb.2) ++
  evalBitwise w.loc roundSel ++
  evalRange w.loc ++
  evalLagBits w.loc ++
  filtered w.isTransition
    (filtered (w.locPrep prepTransitionSelectorCol) (evalTransition w.loc w.next w.locPrep)) ++
  filtered w.isLast (evalLastRow w.loc)

/-! ## Homomorphisms -/

section Hom

variable {E E' : Type*} [CommRing E] [CommRing E'] (f : E →+* E')

@[simp] theorem assertEq_map (x y : E) : (assertEq x y).map f = assertEq (f x) (f y) := by simp [assertEq]

@[simp] theorem assertBool_map (x : E) : (assertBool x).map f = assertBool (f x) := by simp [assertBool]

@[simp] theorem filtered_map (condition : E) (cs : List E) :
    (filtered condition cs).map f = filtered (f condition) (cs.map f) := by
  simp [filtered]

@[simp] theorem forLimbs_map (body : ℕ → List E) :
    (forLimbs body).map f = forLimbs fun limb => (body limb).map f := by
  simp [forLimbs, List.map_flatMap]

@[simp] theorem packLe_hom (n : ℕ) (bit : ℕ → E) : f (packLe n bit) = packLe n fun i => f (bit i) := by
  unfold packLe
  rw [← map_zero f]
  exact (List.foldl_hom f fun acc i => by rw [map_add, map_mul, map_natCast]).symm

@[simp] theorem packBits_hom (row : ℕ → E) (base : ℕ) : f (packBits row base) = packBits (fun c => f (row c)) base := by
  unfold packBits
  rw [← map_zero f]
  exact (List.foldl_hom f fun acc i => by rw [map_add, map_mul, map_natCast]).symm

@[simp] theorem xor3Expr_hom (x y z : E) : f (xor3Expr x y z) = xor3Expr (f x) (f y) (f z) := by
  simp only [xor3Expr, xor2Expr, map_add, map_sub, map_mul, map_natCast]

@[simp] theorem lagBitExpr_hom (row : ℕ → E) (lag bit : ℕ) :
    f (lagBitExpr row lag bit) = lagBitExpr (fun c => f (row c)) lag bit := by
  unfold lagBitExpr
  split <;> simp

@[simp] theorem smallSigma0Bit_hom (row : ℕ → E) (bit : ℕ) :
    f (smallSigma0Bit row bit) = smallSigma0Bit (fun c => f (row c)) bit := by
  unfold smallSigma0Bit
  split <;> simp

@[simp] theorem smallSigma1Bit_hom (row : ℕ → E) (bit : ℕ) :
    f (smallSigma1Bit row bit) = smallSigma1Bit (fun c => f (row c)) bit := by
  unfold smallSigma1Bit
  split <;> simp

@[simp] theorem packLimbExpr_hom (bitExpr : ℕ → E) (limb : ℕ) :
    f (packLimbExpr bitExpr limb) = packLimbExpr (fun i => f (bitExpr i)) limb := by
  simp [packLimbExpr]

@[simp] theorem constrainCarryMax_map (row : ℕ → E) (carryCol max : ℕ) :
    (constrainCarryMax row carryCol max).map f = constrainCarryMax (fun c => f (row c)) carryCol max := by
  unfold constrainCarryMax
  split <;> simp [List.map_flatMap]

/-- The limb loop, for constraints emitted by homomorphic expressions. -/
theorem constrainAddLimbs_map (row sum out : ℕ → E) (carryBase max : ℕ) (emit : E → E → List E)
    (emit' : E' → E' → List E') (h : ∀ x y, (emit x y).map f = emit' (f x) (f y)) :
    (constrainAddLimbs row sum out carryBase max emit).map f =
      constrainAddLimbs (fun c => f (row c)) (fun l => f (sum l)) (fun l => f (out l)) carryBase max emit' := by
  have hinit : ((0 : E'), ([] : List E')) = Prod.map f (List.map f) (0, []) := by
    rw [Prod.map_apply, map_zero, List.map_nil]
  unfold constrainAddLimbs
  -- the running carry and the constraints so far are mapped together
  rw [hinit, ← Prod.map_snd f (List.map f)]
  refine congrArg Prod.snd ?_
  refine (List.foldl_hom _ fun st limb => ?_).symm
  simp only [Prod.map_apply, Prod.map_fst, Prod.map_snd, List.map_append, constrainCarryMax_map, h, map_add, map_mul,
    map_natCast]

@[simp] theorem constrainAdd5Limbs_map (row : ℕ → E) (op0 op1 op2 op3 op4 out carryBase : ℕ) :
    (constrainAdd5Limbs row op0 op1 op2 op3 op4 out carryBase).map f =
      constrainAdd5Limbs (fun c => f (row c)) op0 op1 op2 op3 op4 out carryBase := by
  simp [constrainAdd5Limbs, constrainAddLimbs_map f _ _ _ _ _ assertEq assertEq (assertEq_map f)]

@[simp] theorem constrainAdd2Limbs_map (row : ℕ → E) (lhs rhs out carryBase : ℕ) :
    (constrainAdd2Limbs row lhs rhs out carryBase).map f =
      constrainAdd2Limbs (fun c => f (row c)) lhs rhs out carryBase := by
  simp [constrainAdd2Limbs, constrainAddLimbs_map f _ _ _ _ _ assertEq assertEq (assertEq_map f)]

@[simp] theorem constrainAdd2LimbsAcrossRows_map (loc next : ℕ → E) (lhs rhs outNext carryBase : ℕ) :
    (constrainAdd2LimbsAcrossRows loc next lhs rhs outNext carryBase).map f =
      constrainAdd2LimbsAcrossRows (fun c => f (loc c)) (fun c => f (next c)) lhs rhs outNext carryBase := by
  simp [constrainAdd2LimbsAcrossRows, constrainAddLimbs_map f _ _ _ _ _ assertEq assertEq (assertEq_map f)]

@[simp] theorem constrainScheduleRecurrence_map (row : ℕ → E) (selector : E) :
    (constrainScheduleRecurrence row selector).map f =
      constrainScheduleRecurrence (fun c => f (row c)) (f selector) := by
  have hemit : ∀ x y : E, [selector * (x - y)].map f = [f selector * (f x - f y)] := fun x y => by simp
  simp [constrainScheduleRecurrence, constrainAddLimbs_map f _ _ _ _ _ _ (fun x y => [f selector * (x - y)]) hemit]

@[simp] theorem packWordFromLimbs_hom (row : ℕ → E) (word : ℕ) :
    f (packWordFromLimbs row word) = packWordFromLimbs (fun c => f (row c)) word := by
  simp only [packWordFromLimbs, map_add, map_mul, map_natCast]

@[simp] theorem evalInstance_map (loc prep : ℕ → E) :
    (evalInstance loc prep).map f = evalInstance (fun c => f (loc c)) (fun c => f (prep c)) := by
  simp [evalInstance]

@[simp] theorem evalBlockStart_map (loc prep : ℕ → E) :
    (evalBlockStart loc prep).map f = evalBlockStart (fun c => f (loc c)) (fun c => f (prep c)) := by
  simp [evalBlockStart, List.map_flatMap]

@[simp] theorem evalPublic_map (loc prep : ℕ → E) (publicValues : Vector E 8) :
    (evalPublic loc prep publicValues).map f =
      evalPublic (fun c => f (loc c)) (fun c => f (prep c)) (publicValues.map f) := by
  have hget : ∀ i, f (publicValues.toArray.getD i 0) = (publicValues.map f).toArray.getD i 0 := fun i => by
    simp only [Array.getD_eq_getD_getElem?, Vector.toArray_map, Array.getElem?_map]
    cases publicValues.toArray[i]? <;> simp
  simp only [evalPublic, List.map_flatMap, List.map_cons, List.map_nil, map_mul, map_sub, hget, packWordFromLimbs_hom]

@[simp] theorem evalBitWord_map (loc : ℕ → E) (roundSel : E) (word base : ℕ) :
    (evalBitWord loc roundSel word base).map f = evalBitWord (fun c => f (loc c)) (f roundSel) word base := by
  simp [evalBitWord, List.map_flatMap]

@[simp] theorem evalBitwise_map (loc : ℕ → E) (roundSel : E) :
    (evalBitwise loc roundSel).map f = evalBitwise (fun c => f (loc c)) (f roundSel) := by
  have h0 : ∀ i, f (sigma0BitExpr loc i) = sigma0BitExpr (fun c => f (loc c)) i := fun i => xor3Expr_hom f _ _ _
  have h1 : ∀ i, f (sigma1BitExpr loc i) = sigma1BitExpr (fun c => f (loc c)) i := fun i => xor3Expr_hom f _ _ _
  have hch : ∀ i, f (chBitExpr loc i) = chBitExpr (fun c => f (loc c)) i := fun i => by simp [chBitExpr]
  have hmaj : ∀ i, f (majBitExpr loc i) = majBitExpr (fun c => f (loc c)) i := fun i => by
    simp [majBitExpr, map_ofNat]
  simp only [evalBitwise, forLimbs_map, List.map_append, List.map_cons, List.map_nil, map_mul, map_sub,
    packLimbExpr_hom, h0, h1, hch, hmaj]

@[simp] theorem evalRange_map (loc : ℕ → E) : (evalRange loc).map f = evalRange fun c => f (loc c) := by
  simp [evalRange, List.map_flatMap]

@[simp] theorem evalLagBits_map (loc : ℕ → E) : (evalLagBits loc).map f = evalLagBits fun c => f (loc c) := by
  simp [evalLagBits, List.map_flatMap]

@[simp] theorem evalTransition_map (loc next prep : ℕ → E) :
    (evalTransition loc next prep).map f =
      evalTransition (fun c => f (loc c)) (fun c => f (next c)) (fun c => f (prep c)) := by
  simp [evalTransition, List.map_flatMap, apply_ite f]

@[simp] theorem evalLastRow_map (loc : ℕ → E) : (evalLastRow loc).map f = evalLastRow fun c => f (loc c) := by
  simp [evalLastRow, List.map_flatMap]

/-- The window of the images. -/
def Window.map (w : Window E) : Window E' :=
  { loc := fun c => f (w.loc c), next := fun c => f (w.next c), locPrep := fun c => f (w.locPrep c)
    publicValues := w.publicValues.map f, isLast := f w.isLast, isTransition := f w.isTransition }

/-- A ring homomorphism carries the constraints over one ring to those over another. -/
theorem eval_map (w : Window E) : (eval w).map f = eval (w.map f) := by
  unfold eval Window.map
  simp only [List.map_append, List.map_flatMap, evalInstance_map, evalBlockStart_map, evalPublic_map, evalBitWord_map,
    evalBitwise_map, evalRange_map, evalLagBits_map, filtered_map, evalTransition_map, evalLastRow_map]

end Hom

end Symbolic

/-- A window of field elements as a window of expressions. -/
def AirWindow.expr (w : AirWindow) : Symbolic.Window BabyBear :=
  ⟨w.loc, w.next, w.locPrep, w.publicValues, w.isLast, w.isTransition⟩

/-- On field elements the constraints are those of the row checker. -/
theorem Symbolic.eval_expr (w : AirWindow) : Symbolic.eval w.expr = Sha512Circuit.eval w := rfl

end Sha512Circuit
