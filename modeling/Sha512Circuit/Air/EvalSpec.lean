/-
What each constraint group of `eval` says about the rows it reads, in terms of the words they hold:
range proofs and decompositions make cells words, the bitwise and addition constraints make them
the right words. Every statement is an equivalence, read one way for soundness and the other way
for completeness.
-/
import Sha512Circuit.Air.BitPolynomials

namespace Sha512Circuit

open FieldBits (IsBit ofBool)

/-! ## The window -/

/-- The nine constraint groups of `eval`, under their filters. -/
theorem vanish_eval (w : AirWindow) :
    Vanish (eval w) ↔
      Vanish (evalInstance w.loc w.locPrep) ∧ Vanish (evalBlockStart w.loc w.locPrep) ∧
      Vanish (evalPublic w.loc w.locPrep w.publicValues) ∧
      (∀ wb ∈ bitWords, Vanish (evalBitWord w.loc (w.locPrep prepRoundSelectorCol) wb.1 wb.2)) ∧
      Vanish (evalBitwise w.loc (w.locPrep prepRoundSelectorCol)) ∧ Vanish (evalRange w.loc) ∧
      Vanish (evalLagBits w.loc) ∧
      (w.isTransition = 0 ∨ w.locPrep prepTransitionSelectorCol = 0 ∨
        Vanish (evalTransition w.loc w.next w.locPrep)) ∧
      (w.isLast = 0 ∨ Vanish (evalLastRow w.loc)) := by
  unfold eval
  simp only [vanish_append, vanish_flatMap, vanish_filtered, and_assoc]

/-- A checker reports no violation exactly when every assertion vanishes. -/
theorem run_violated (c : AirConstraintChecker) :
    c.run.violated = false ↔ c.violated = false ∧ Vanish (eval c.window) := by
  have key : ∀ (cs : Assertions) (c : AirConstraintChecker),
      (cs.foldl AirConstraintChecker.assertZero c).violated = false ↔ c.violated = false ∧ Vanish cs := by
    intro cs
    induction cs with
    | nil => intro c; simp
    | cons x cs ih =>
      intro c
      rw [List.foldl_cons, ih]
      unfold AirConstraintChecker.assertZero Vanish
      simp only [List.mem_cons, forall_eq_or_imp]
      split
      · case isTrue h => simp [h]
      · case isFalse h => simp [not_not.1 h]
  exact key _ c

theorem rowAccepted_iff {main preprocessed : RowMajorMatrix} {publicValues : Vector BabyBear 8} {row wrap : ℕ} :
    rowAccepted main preprocessed publicValues row wrap = true ↔
      Vanish (eval (checkerAt main preprocessed publicValues row wrap).window) := by
  unfold rowAccepted
  rw [Bool.not_eq_true', run_violated]
  exact and_iff_right rfl

/-! ## Instance data -/

/-- `K` against the preprocessed constant on round rows, `W` against the preprocessed word on the
first sixteen rows, and a zero `W` outside the rounds. -/
theorem evalInstance_iff (loc prep : RowView) :
    Vanish (evalInstance loc prep) ↔
      (∀ l < 4, prep prepRoundSelectorCol * (loc (limbCol wordK l) - prep (limbCol wordK l)) = 0) ∧
      (∀ l < 4, prep prepInitWSelectorCol * (loc (limbCol wordW l) - prep (limbCol wordW l)) = 0) ∧
      ∀ l < 4, (1 - prep prepRoundSelectorCol) * loc (limbCol wordW l) = 0 := by
  unfold evalInstance
  simp only [vanish_append, vanish_forLimbs, vanish_assertZero, and_assoc]

/-- The working state against the preprocessed one on block starts. -/
theorem evalBlockStart_iff (loc prep : RowView) :
    Vanish (evalBlockStart loc prep) ↔
      ∀ i < 8, ∀ l < 4, prep prepBlockStartSelectorCol * (loc (limbCol i l) - prep (limbCol i l)) = 0 := by
  unfold evalBlockStart
  simp only [vanish_flatMap, vanish_forLimbs, vanish_assertZero, List.mem_range'_1]
  exact forall_congr' fun i => by simp [wordA]

/-- The last row: words from `W` on and all columns between the words and the bits are zero. -/
theorem evalLastRow_iff (loc : RowView) :
    Vanish (evalLastRow loc) ↔
      (∀ i, 8 ≤ i → i < 16 → ∀ l < 4, loc (limbCol i l) = 0) ∧ ∀ c, 64 ≤ c → c < 148 → loc c = 0 := by
  unfold evalLastRow
  simp only [vanish_append, vanish_flatMap, vanish_forLimbs, vanish_assertEq, List.mem_range'_1, and_imp]
  rfl

/-- The packed working state against the public values. -/
theorem evalPublic_iff (loc prep : RowView) (publicValues : Vector BabyBear 8) :
    Vanish (evalPublic loc prep publicValues) ↔ ∀ (i : ℕ) (hi : i < 8),
      prep prepFinalSelectorCol * (publicValues[i] - packWordFromLimbs loc i) = 0 := by
  have hget : ∀ (i : ℕ) (hi : i < 8), publicValues.toArray.getD i 0 = publicValues[i] := fun i hi => by
    rw [Array.getD_eq_getD_getElem?, Array.getElem?_eq_getElem (by simpa using hi)]; rfl
  unfold evalPublic
  simp only [vanish_flatMap_range, vanish_assertZero]
  exact forall₂_congr fun i hi => by rw [hget i hi]

/-! ## Range proofs -/

theorem evalRange_iff (loc : RowView) :
    Vanish (evalRange loc) ↔ ∀ src < 24, ∃ n : ℕ, n < 2 ^ 16 ∧ loc (rangeSourceCol src) = (n : BabyBear) ∧
      ∀ bit < 16, loc (rangeBitCol src bit) = ofBool (n.testBit bit) := by
  unfold evalRange
  simp only [vanish_flatMap_range, vanish_append, vanish_assertBool, vanish_assertEq, packLe_eq, rangeSources_eq,
    rangeBitsPerSource_eq]
  refine forall₂_congr fun src _ => ?_
  constructor
  · rintro ⟨hb, hp⟩
    obtain ⟨n, hn, hf⟩ := FieldBits.exists_testBit hb
    refine ⟨n, hn, ?_, hf⟩
    rw [hp, FieldBits.pack_congr hf, FieldBits.pack_testBit, Nat.mod_eq_of_lt hn]
  · rintro ⟨n, hn, hcell, hf⟩
    refine ⟨fun i hi => hf i hi ▸ FieldBits.isBit_ofBool _, ?_⟩
    rw [hcell, FieldBits.pack_congr hf, FieldBits.pack_testBit, Nat.mod_eq_of_lt hn]

/-- The range source `4 k + limb` is a limb of the `k`-th ranged word. -/
theorem rangeSourceCol_eq {k l : ℕ} (hk : k < 6) (hl : l < 4) :
    rangeSourceCol (4 * k + l) = limbCol (rangedWords.getD k 0) l := by
  have h : 4 * k + l < rangedWordSources := show 4 * k + l < 24 by omega
  rw [rangeSourceCol, if_pos h, limbsPerWord_eq, show (4 * k + l) / 4 = k by omega,
    show (4 * k + l) % 4 = l by omega]

/-- `D`, `H`, `W`, `K`, `T1` and `T2` hold words on every row. -/
theorem wordAt_of_range {loc : RowView} (h : Vanish (evalRange loc)) {w : ℕ} (hw : w ∈ rangedWords) :
    ∃ x, WordAt loc (limbCol w) x := by
  obtain ⟨k, hk, rfl⟩ := List.getElem_of_mem hw
  have hk6 : k < 6 := hk
  refine exists_wordAt fun l hl => ?_
  obtain ⟨n, hn, hcell, -⟩ := (evalRange_iff loc).1 h (4 * k + l) (by omega)
  rw [rangeSourceCol_eq hk6 hl, List.getD_eq_getElem _ _ hk] at hcell
  exact ⟨n, hn, hcell⟩

/-! ## Boolean decompositions -/

/-- `W` of lag 1 or 14 with its bits. -/
theorem evalLagBits_iff (loc : RowView) :
    Vanish (evalLagBits loc) ↔
      (∃ x, WordAt loc (lagLimbCol 1) x ∧ BitsAt loc lag1BitBase x) ∧
      ∃ x, WordAt loc (lagLimbCol 14) x ∧ BitsAt loc lag14BitBase x := by
  unfold evalLagBits
  simp only [vanish_flatMap, List.forall_mem_cons, List.not_mem_nil, false_implies, implies_true, and_true,
    vanish_append, List.mem_range, vanish_assertBool, vanish_forLimbs, vanish_assertEq, packLe_eq, wordBits_iff]

/-- On a round row a bit-decomposed word holds a word and its bits; elsewhere nothing is asserted.
The comparison of the two packed words follows from the limbs. -/
theorem evalBitWord_one (loc : RowView) (word base : ℕ) :
    Vanish (evalBitWord loc 1 word base) ↔ ∃ x, WordAt loc (limbCol word) x ∧ BitsAt loc base x := by
  unfold evalBitWord
  simp only [vanish_append, vanish_flatMap_range, vanish_forLimbs, vanish_assertZero, one_mul, sub_eq_zero,
    FieldBits.isBit_iff_mul, packLe_eq]
  constructor
  · rintro ⟨⟨hb, -⟩, hl⟩
    exact (wordBits_iff loc (limbCol word) base).1 ⟨hb, hl⟩
  · rintro ⟨x, hw, hbits⟩
    obtain ⟨hb, hl⟩ := (wordBits_iff loc (limbCol word) base).2 ⟨x, hw, hbits⟩
    refine ⟨⟨hb, ?_⟩, hl⟩
    rw [packWordFromLimbs_eq hw, packBits_eq, pack_word hbits]

theorem evalBitWord_zero (loc : RowView) (word base : ℕ) : Vanish (evalBitWord loc 0 word base) := by
  simp [evalBitWord]

/-! ## Bitwise words -/

/-- With the bits of `A, B, C, E, F, G` in place, the bitwise constraints fix `Σ0`, `Σ1`, `Ch` and
`Maj`. -/
theorem evalBitwise_one {loc : RowView} {a b c e f g : U64} (ha : BitsAt loc bitABase a) (hb : BitsAt loc bitBBase b)
    (hc : BitsAt loc bitCBase c) (he : BitsAt loc bitEBase e) (hf : BitsAt loc bitFBase f)
    (hg : BitsAt loc bitGBase g) :
    Vanish (evalBitwise loc 1) ↔
      WordAt loc (limbCol wordSigma0) (bigSigma0 a) ∧ WordAt loc (limbCol wordSigma1) (bigSigma1 e) ∧
      WordAt loc (limbCol wordCh) (ch e f g) ∧ WordAt loc (limbCol wordMaj) (maj a b c) := by
  unfold evalBitwise WordAt
  simp only [vanish_forLimbs, vanish_append, vanish_assertZero, one_mul, sub_eq_zero, ← forall_and]
  refine forall₂_congr fun l hl => ?_
  rw [packLimbExpr_eq (fun i hi => sigma0BitExpr_eq hi ha) hl, packLimbExpr_eq (fun i hi => sigma1BitExpr_eq hi he) hl,
    packLimbExpr_eq (fun i hi => chBitExpr_eq hi he hf hg) hl,
    packLimbExpr_eq (fun i hi => majBitExpr_eq hi ha hb hc) hl, and_assoc, and_assoc]

theorem evalBitwise_zero (loc : RowView) : Vanish (evalBitwise loc 0) := by
  simp [evalBitwise]

/-! ## Additions -/

/-- The carry columns of an addition and the bound its gadget puts on them. -/
def CarryLane (carryBase max : ℕ) : Prop := ∀ l < 4, CarryBound (carryBase + l) max

theorem carryLane_t1 : CarryLane carryT1Base 4 := by
  intro l hl
  interval_cases l <;> exact .inr (.inr ⟨rfl, rfl⟩)

theorem carryLane_one {carryBase : ℕ} (h : carryBase = carryT2Base ∨ carryBase = carryABase ∨ carryBase = carryEBase) :
    CarryLane carryBase 1 := by
  intro l hl
  rcases h with rfl | rfl | rfl <;> interval_cases l <;> exact .inl ⟨rfl, rfl⟩

theorem carryLane_sched : CarryLane schedCarryBase 3 := by
  intro l hl
  interval_cases l <;> exact .inr (.inl ⟨rfl, rfl⟩)

/-- The carry cells from `carryBase` on hold the carries of adding up `ops`. -/
def CarriesAt (row : RowView) (carryBase : ℕ) (ops : List U64) : Prop :=
  ∀ l < 4, CarryAt row (carryBase + l) (addCarry ops l)

theorem CarriesAt.carryAt {row : RowView} {carryBase c : ℕ} {ops : List U64} (h : CarriesAt row carryBase ops)
    (h1 : carryBase ≤ c) (h2 : c < carryBase + 4) : CarryAt row c (addCarry ops (c - carryBase)) := by
  have := h (c - carryBase) (by omega)
  rwa [Nat.add_sub_cancel' h1] at this

section Additions

variable {loc next : RowView} {carryBase : ℕ} {x₀ x₁ x₂ x₃ x₄ y : U64}

theorem constrainAdd5Limbs_iff {op0 op1 op2 op3 op4 out : ℕ} (hc : CarryLane carryBase 4)
    (h0 : WordAt loc (limbCol op0) x₀) (h1 : WordAt loc (limbCol op1) x₁) (h2 : WordAt loc (limbCol op2) x₂)
    (h3 : WordAt loc (limbCol op3) x₃) (h4 : WordAt loc (limbCol op4) x₄) (hy : WordAt loc (limbCol out) y) :
    Vanish (constrainAdd5Limbs loc op0 op1 op2 op3 op4 out carryBase) ↔
      y = x₀ + x₁ + x₂ + x₃ + x₄ ∧ CarriesAt loc carryBase [x₀, x₁, x₂, x₃, x₄] := by
  have hsum : ∀ l < 4, loc (limbCol op0 l) + loc (limbCol op1 l) + loc (limbCol op2 l) + loc (limbCol op3 l) +
      loc (limbCol op4 l) = limbSum [x₀, x₁, x₂, x₃, x₄] l := fun l hl => by
    rw [h0 l hl, h1 l hl, h2 l hl, h3 l hl, h4 l hl]
    simp only [limbSum_cons, limbSum_nil, add_zero, add_assoc]
  rw [← sum_five]
  exact constrainAddLimbs_words vanish_assertEq rfl hc hsum hy

theorem constrainAdd2LimbsAcrossRows_iff {lhs rhs outNext : ℕ} (hc : CarryLane carryBase 1)
    (h0 : WordAt loc (limbCol lhs) x₀) (h1 : WordAt loc (limbCol rhs) x₁) (hy : WordAt next (limbCol outNext) y) :
    Vanish (constrainAdd2LimbsAcrossRows loc next lhs rhs outNext carryBase) ↔
      y = x₀ + x₁ ∧ CarriesAt loc carryBase [x₀, x₁] := by
  have hsum : ∀ l < 4, loc (limbCol lhs l) + loc (limbCol rhs l) = limbSum [x₀, x₁] l := fun l hl => by
    rw [h0 l hl, h1 l hl]
    simp only [limbSum_cons, limbSum_nil, add_zero]
  rw [show x₀ + x₁ = [x₀, x₁].sum by simp]
  exact constrainAddLimbs_words vanish_assertEq rfl hc hsum hy

/-- The gadget within a row is the one across rows, with the row as its own successor. -/
theorem constrainAdd2Limbs_eq (lhs rhs out carryBase : ℕ) :
    constrainAdd2Limbs loc lhs rhs out carryBase = constrainAdd2LimbsAcrossRows loc loc lhs rhs out carryBase := rfl

theorem constrainAdd2Limbs_iff {lhs rhs out : ℕ} (hc : CarryLane carryBase 1)
    (h0 : WordAt loc (limbCol lhs) x₀) (h1 : WordAt loc (limbCol rhs) x₁) (hy : WordAt loc (limbCol out) y) :
    Vanish (constrainAdd2Limbs loc lhs rhs out carryBase) ↔ y = x₀ + x₁ ∧ CarriesAt loc carryBase [x₀, x₁] := by
  rw [constrainAdd2Limbs_eq]
  exact constrainAdd2LimbsAcrossRows_iff hc h0 h1 hy

/-- The schedule gadget over four operands; the packed limbs are those of the first and the third. -/
theorem constrainScheduleRecurrence_iff (h0 : ∀ l < 4, packSmallSigma1Limb loc l = (limb x₀ l : BabyBear))
    (h1 : WordAt loc (lagLimbCol 6) x₁) (h2 : ∀ l < 4, packSmallSigma0Limb loc l = (limb x₂ l : BabyBear))
    (h3 : WordAt loc (lagLimbCol 15) x₃) (hy : WordAt loc (limbCol wordW) y) :
    Vanish (constrainScheduleRecurrence loc 1) ↔
      y = x₀ + x₁ + x₂ + x₃ ∧ CarriesAt loc schedCarryBase [x₀, x₁, x₂, x₃] := by
  have hemit : ∀ s e : BabyBear, Vanish (assertZero (1 * (s - e))) ↔ s = e := fun s e => by
    rw [vanish_assertZero, one_mul, sub_eq_zero]
  have hsum : ∀ l < 4, packSmallSigma1Limb loc l + loc (lagLimbCol 6 l) + packSmallSigma0Limb loc l +
      loc (lagLimbCol 15 l) = limbSum [x₀, x₁, x₂, x₃] l := fun l hl => by
    rw [h0 l hl, h1 l hl, h2 l hl, h3 l hl]
    simp only [limbSum_cons, limbSum_nil, add_zero, add_assoc]
  rw [← sum_four]
  exact constrainAddLimbs_words hemit rfl carryLane_sched hsum hy

/-- From round 16 on the schedule word is fixed by lags 1, 6, 14 and 15. -/
theorem constrainScheduleRecurrence_one (hb1 : BitsAt loc lag1BitBase x₀) (h6 : WordAt loc (lagLimbCol 6) x₁)
    (hb14 : BitsAt loc lag14BitBase x₂) (h15 : WordAt loc (lagLimbCol 15) x₃) (hy : WordAt loc (limbCol wordW) y) :
    Vanish (constrainScheduleRecurrence loc 1) ↔
      y = smallSigma1 x₀ + x₁ + smallSigma0 x₂ + x₃ ∧
        CarriesAt loc schedCarryBase [smallSigma1 x₀, x₁, smallSigma0 x₂, x₃] :=
  constrainScheduleRecurrence_iff (fun _ hl => packSmallSigma1Limb_eq hb1 hl) h6
    (fun _ hl => packSmallSigma0Limb_eq hb14 hl) h15 hy

/-- Elsewhere only the schedule carries are bounded. -/
theorem constrainScheduleRecurrence_zero (h : ∀ l < 4, ∃ c ≤ 3, CarryAt loc (schedCarryBase + l) c) :
    Vanish (constrainScheduleRecurrence loc 0) := by
  unfold constrainScheduleRecurrence
  rw [constrainAddLimbs_iff]
  intro l hl
  refine ⟨(constrainCarryMax_iff (carryLane_sched l hl)).2 (h l hl), ?_⟩
  rw [vanish_assertZero, zero_mul]

end Additions

/-! ## Transitions -/

/-- The registers the round shifts: `B, C, D, F, G, H` of the next row are `A, B, C, E, F, G`. -/
def ShiftsTo (loc next : RowView) : Prop :=
  ∀ w < 7, w ≠ 3 → ∀ l < 4, next (limbCol (w + 1) l) = loc (limbCol w l)

/-- The delay line of schedule words: lag 0 of the next row is `W`, lag `k + 1` is lag `k`. -/
def DelaysTo (loc next : RowView) : Prop :=
  ∀ k < 16, ∀ l < 4, next (lagLimbCol k l) = if k = 0 then loc (limbCol wordW l) else loc (lagLimbCol (k - 1) l)

theorem evalTransition_iff (loc next prep : RowView) :
    Vanish (evalTransition loc next prep) ↔
      Vanish (constrainAdd5Limbs loc wordH wordSigma1 wordCh wordK wordW wordT1 carryT1Base) ∧
      Vanish (constrainAdd2Limbs loc wordSigma0 wordMaj wordT2 carryT2Base) ∧
      Vanish (constrainAdd2LimbsAcrossRows loc next wordT1 wordT2 wordA carryABase) ∧
      Vanish (constrainAdd2LimbsAcrossRows loc next wordD wordT1 wordE carryEBase) ∧
      ShiftsTo loc next ∧ DelaysTo loc next ∧
      Vanish (constrainScheduleRecurrence loc (prep prepRoundSelectorCol * (1 - prep prepInitWSelectorCol))) := by
  have hshift : (∀ l < 4, next (limbCol wordB l) = loc (limbCol wordA l) ∧
      next (limbCol wordC l) = loc (limbCol wordB l) ∧ next (limbCol wordD l) = loc (limbCol wordC l) ∧
      next (limbCol wordF l) = loc (limbCol wordE l) ∧ next (limbCol wordG l) = loc (limbCol wordF l) ∧
      next (limbCol wordH l) = loc (limbCol wordG l)) ↔ ShiftsTo loc next := by
    constructor
    · intro h w hw hw3 l hl
      obtain ⟨hB, hC, hD, hF, hG, hH⟩ := h l hl
      interval_cases w
      exacts [hB, hC, hD, absurd rfl hw3, hF, hG, hH]
    · intro h l hl
      exact ⟨h 0 (by omega) (by omega) l hl, h 1 (by omega) (by omega) l hl, h 2 (by omega) (by omega) l hl,
        h 4 (by omega) (by omega) l hl, h 5 (by omega) (by omega) l hl, h 6 (by omega) (by omega) l hl⟩
  unfold evalTransition
  simp only [vanish_append, vanish_forLimbs, vanish_flatMap_range, vanish_assertEq, and_assoc, hshift, lagCount_eq]
  rfl

end Sha512Circuit
