/-
The addition gadgets against the witness generator: on operands laid out as 16-bit limbs and an
output of 16-bit limbs, a gadget's constraints vanish exactly when the output is the wrapping sum,
the carry cells hold the carries that `add_with_carries_*` returns and the carry-bit cells their
binary digits.
-/
import Sha512Circuit.Air.Honest

namespace Sha512Circuit

open FieldBits (ofBool)

/-! ## Carry cells -/

/-- The carry cells from `carryBase` on hold `carries`, and their bit cells the binary digits. -/
def HoldsCarries (row : RowView) (carryBase : ℕ) (carries : Vector (BitVec 16) 4) : Prop :=
  ∀ l < 4, row (carryBase + l) = fromU16 carries[l]! ∧
    ∀ i < carryBitWidth (carryBase + l), row (carryBitCol (carryBase + l) i) = fromBool (carries[l]!.getLsbD i)

/-- The carries of a sum are those `add_with_carries_*` returns. -/
theorem carriesAt_iff {row : RowView} {carryBase : ℕ} {ops : List U64} (h0 : ops ≠ []) (hlen : ops.length ≤ 5) :
    CarriesAt row carryBase ops ↔ HoldsCarries row carryBase (addWithCarries ops).2 := by
  refine forall₂_congr fun l hl => ?_
  have hdigit : ∀ i, fromBool ((addWithCarries ops).2[l]!.getLsbD i) = ofBool ((addCarry ops l).testBit i) := fun i => by
    rw [← BitVec.testBit_toNat, addWithCarries_carries_toNat h0 hlen hl]; rfl
  simp only [fromU16_addWithCarries ops h0 hlen hl, hdigit]
  constructor
  · rintro ⟨hcell, hbits⟩
    exact ⟨hcell, hbits⟩
  · rintro ⟨hcell, hbits⟩
    exact ⟨hcell, hbits⟩

/-- `set_carry_bits` writes the digits of the carries that a lane holds. -/
theorem setCarryBits_holdsCarries {row : Row} {carryBase : ℕ} {carries : Vector (BitVec 16) 4}
    (hlane : ∀ l < 4, IsCarryCol (carryBase + l)) (h : ∀ l < 4, row.cell (carryBase + l) = fromU16 carries[l]!) :
    HoldsCarries (setCarryBits row).cell carryBase carries := by
  intro l hl
  have hlt : carries[l]!.toNat < babyBearPrime := lt_of_lt_of_le carries[l]!.isLt two_pow_16_le_prime
  obtain ⟨hcell, hbits⟩ := setCarryBits_carryAt row (hlane l hl) hlt (h l hl)
  refine ⟨hcell, fun i hi => ?_⟩
  rw [hbits i hi, BitVec.testBit_toNat]
  rfl

/-- A gadget specified for output words is specified for output limbs. -/
theorem vanish_iff_wordAt {cs : Assertions} {row : RowView} {col : ℕ → ℕ} {s : U64} {P : Prop}
    (hout : ∀ l < 4, IsLimb (row (col l))) (h : ∀ y, WordAt row col y → (Vanish cs ↔ y = s ∧ P)) :
    Vanish cs ↔ WordAt row col s ∧ P := by
  obtain ⟨y, hy⟩ := exists_wordAt hout
  rw [h y hy]
  refine and_congr_left fun _ => ⟨?_, fun hs => hy.inj hs⟩
  rintro rfl
  exact hy

/-! ## What the witness generator returns -/

/-- `add_with_carries_2`, `_4` and `_5` return the wrapping sum, with carries of at most 1, 3 and 4. -/
theorem addWithCarries_returns (ops : List U64) (max : ℕ) (hlen : ops.length = max + 1) (hmax : max ≤ 4) :
    (addWithCarries ops).1 = ops.sum ∧ ∀ l < 4, (addWithCarries ops).2[l]!.toNat ≤ max := by
  refine ⟨addWithCarries_sum ops, fun l hl => ?_⟩
  rw [addWithCarries_carries_toNat (List.ne_nil_of_length_pos (by omega)) (by omega) hl]
  exact addCarry_le hlen l

/-! ## The gadgets -/

/-- The addition gadgets accept exactly what the witness generator computes: for operands and outputs
of 16-bit limbs and any carry and carry-bit cells, the constraints vanish if and only if the output
is the wrapping sum and the carry cells hold what `add_with_carries_*` returns. The schedule gadget
reads two of its operands as packed bits of lags 1 and 14. `set_carry_bits` writes the bit cells, and
`add_with_carries_*` returns the wrapping sum with carries of at most 1, 3 and 4. -/
theorem addition_gadgets_exact :
    (∀ (row : RowView) (op0 op1 op2 op3 op4 out : ℕ) (x₀ x₁ x₂ x₃ x₄ : U64), WordAt row (limbCol op0) x₀ →
      WordAt row (limbCol op1) x₁ → WordAt row (limbCol op2) x₂ → WordAt row (limbCol op3) x₃ →
      WordAt row (limbCol op4) x₄ → (∀ l < 4, IsLimb (row (limbCol out l))) →
      (Vanish (constrainAdd5Limbs row op0 op1 op2 op3 op4 out carryT1Base) ↔
        WordAt row (limbCol out) (x₀ + x₁ + x₂ + x₃ + x₄) ∧
          HoldsCarries row carryT1Base (addWithCarries5 x₀ x₁ x₂ x₃ x₄).2)) ∧
    (∀ carryBase, carryBase = carryT2Base ∨ carryBase = carryABase ∨ carryBase = carryEBase →
      (∀ (row : RowView) (lhs rhs out : ℕ) (x₀ x₁ : U64), WordAt row (limbCol lhs) x₀ → WordAt row (limbCol rhs) x₁ →
        (∀ l < 4, IsLimb (row (limbCol out l))) →
        (Vanish (constrainAdd2Limbs row lhs rhs out carryBase) ↔
          WordAt row (limbCol out) (x₀ + x₁) ∧ HoldsCarries row carryBase (addWithCarries2 x₀ x₁).2)) ∧
      ∀ (loc next : RowView) (lhs rhs outNext : ℕ) (x₀ x₁ : U64), WordAt loc (limbCol lhs) x₀ →
        WordAt loc (limbCol rhs) x₁ → (∀ l < 4, IsLimb (next (limbCol outNext l))) →
        (Vanish (constrainAdd2LimbsAcrossRows loc next lhs rhs outNext carryBase) ↔
          WordAt next (limbCol outNext) (x₀ + x₁) ∧ HoldsCarries loc carryBase (addWithCarries2 x₀ x₁).2)) ∧
    (∀ (row : RowView) (x₀ x₁ x₂ x₃ : U64), (∀ l < 4, packSmallSigma1Limb row l = (limb x₀ l : BabyBear)) →
      WordAt row (lagLimbCol 6) x₁ → (∀ l < 4, packSmallSigma0Limb row l = (limb x₂ l : BabyBear)) →
      WordAt row (lagLimbCol 15) x₃ → (∀ l < 4, IsLimb (row (limbCol wordW l))) →
      (Vanish (constrainScheduleRecurrence row 1) ↔
        WordAt row (limbCol wordW) (x₀ + x₁ + x₂ + x₃) ∧
          HoldsCarries row schedCarryBase (addWithCarries4 x₀ x₁ x₂ x₃).2)) ∧
    (∀ (row : RowView) (lag1 lag6 lag14 lag15 : U64), BitsAt row lag1BitBase lag1 → WordAt row (lagLimbCol 6) lag6 →
      BitsAt row lag14BitBase lag14 → WordAt row (lagLimbCol 15) lag15 → (∀ l < 4, IsLimb (row (limbCol wordW l))) →
      (Vanish (constrainScheduleRecurrence row 1) ↔
        WordAt row (limbCol wordW) (smallSigma1 lag1 + lag6 + smallSigma0 lag14 + lag15) ∧
          HoldsCarries row schedCarryBase (addWithCarries4 (smallSigma1 lag1) lag6 (smallSigma0 lag14) lag15).2)) ∧
    (∀ (row : Row) (carryBase : ℕ) (carries : Vector (BitVec 16) 4), (∀ l < 4, IsCarryCol (carryBase + l)) →
      (∀ l < 4, row.cell (carryBase + l) = fromU16 carries[l]!) →
      HoldsCarries (setCarryBits row).cell carryBase carries) ∧
    (∀ x₀ x₁ : U64, (addWithCarries2 x₀ x₁).1 = x₀ + x₁ ∧ ∀ l < 4, (addWithCarries2 x₀ x₁).2[l]!.toNat ≤ 1) ∧
    (∀ x₀ x₁ x₂ x₃ : U64, (addWithCarries4 x₀ x₁ x₂ x₃).1 = x₀ + x₁ + x₂ + x₃ ∧
      ∀ l < 4, (addWithCarries4 x₀ x₁ x₂ x₃).2[l]!.toNat ≤ 3) ∧
    ∀ x₀ x₁ x₂ x₃ x₄ : U64, (addWithCarries5 x₀ x₁ x₂ x₃ x₄).1 = x₀ + x₁ + x₂ + x₃ + x₄ ∧
      ∀ l < 4, (addWithCarries5 x₀ x₁ x₂ x₃ x₄).2[l]!.toNat ≤ 4 := by
  refine ⟨?_, fun carryBase hbase => ⟨?_, ?_⟩, ?_, ?_, ?_, ?_, ?_, ?_⟩
  · intro row op0 op1 op2 op3 op4 out x₀ x₁ x₂ x₃ x₄ h0 h1 h2 h3 h4 hout
    refine vanish_iff_wordAt hout fun y hy => ?_
    rw [constrainAdd5Limbs_iff carryLane_t1 h0 h1 h2 h3 h4 hy, carriesAt_iff (by simp) le_rfl]
    rfl
  · intro row lhs rhs out x₀ x₁ h0 h1 hout
    refine vanish_iff_wordAt hout fun y hy => ?_
    rw [constrainAdd2Limbs_iff (carryLane_one hbase) h0 h1 hy, carriesAt_iff (by simp) (by simp)]
    rfl
  · intro loc next lhs rhs outNext x₀ x₁ h0 h1 hout
    refine vanish_iff_wordAt hout fun y hy => ?_
    rw [constrainAdd2LimbsAcrossRows_iff (carryLane_one hbase) h0 h1 hy, carriesAt_iff (by simp) (by simp)]
    rfl
  · intro row x₀ x₁ x₂ x₃ h0 h1 h2 h3 hout
    refine vanish_iff_wordAt hout fun y hy => ?_
    rw [constrainScheduleRecurrence_iff h0 h1 h2 h3 hy, carriesAt_iff (by simp) (by simp)]
    rfl
  · intro row lag1 lag6 lag14 lag15 h1 h6 h14 h15 hout
    refine vanish_iff_wordAt hout fun y hy => ?_
    rw [constrainScheduleRecurrence_one h1 h6 h14 h15 hy, carriesAt_iff (by simp) (by simp)]
    rfl
  · exact fun row carryBase carries hlane h => setCarryBits_holdsCarries hlane h
  · intro x₀ x₁
    obtain ⟨hsum, hcarry⟩ := addWithCarries_returns [x₀, x₁] 1 rfl (by omega)
    exact ⟨hsum.trans (by simp), hcarry⟩
  · intro x₀ x₁ x₂ x₃
    obtain ⟨hsum, hcarry⟩ := addWithCarries_returns [x₀, x₁, x₂, x₃] 3 rfl (by omega)
    exact ⟨hsum.trans (sum_four _ _ _ _), hcarry⟩
  · intro x₀ x₁ x₂ x₃ x₄
    obtain ⟨hsum, hcarry⟩ := addWithCarries_returns [x₀, x₁, x₂, x₃, x₄] 4 rfl (by omega)
    exact ⟨hsum.trans (sum_five _ _ _ _ _), hcarry⟩

/-- The additions of round 16 over the block of ones. -/
theorem addition_gadgets_exact_onesBlock :
    let trace := compressBlock initialState (Vector.replicate 128 0xff)
    let row := (traceRow trace 16).cell
    let next := (traceRow trace 17).cell
    Vanish (constrainAdd5Limbs row wordH wordSigma1 wordCh wordK wordW wordT1 carryT1Base) ∧
    Vanish (constrainAdd2Limbs row wordSigma0 wordMaj wordT2 carryT2Base) ∧
    Vanish (constrainAdd2LimbsAcrossRows row next wordT1 wordT2 wordA carryABase) ∧
    Vanish (constrainAdd2LimbsAcrossRows row next wordD wordT1 wordE carryEBase) ∧
    Vanish (constrainScheduleRecurrence row 1) := by
  obtain ⟨h5, h2, -, hbits, -⟩ := addition_gadgets_exact
  intro trace row next
  have hrow := traceRow_filled trace (show 16 ≠ 127 by decide)
  have hnext := traceRow_filled trace (show 17 ≠ 127 by decide)
  have hstep := traceRow_step initialState (Vector.replicate 128 0xff) (show 16 < 127 by decide)
  obtain ⟨hops, hsum⟩ := traceRow_recurrence initialState (Vector.replicate 128 0xff) le_rfl (show 16 < 80 by decide)
  have hw : ∀ i < 16, WordAt row (limbCol i) (traceWords trace 16 i) := hrow.words
  have hw' : ∀ i < 16, WordAt next (limbCol i) (traceWords trace 17 i) := hnext.words
  obtain ⟨ht1, ht2, ha, he, hs⟩ := hrow.lanes
  rw [hops] at hs hsum
  rw [sum_four] at hsum
  refine ⟨?_, ?_, ?_, ?_, ?_⟩
  · refine (h5 row _ _ _ _ _ _ _ _ _ _ _ (hw _ (by decide)) (hw _ (by decide)) (hw _ (by decide)) (hw _ (by decide))
      (hw _ (by decide)) (hw wordT1 (by decide)).isLimb).2 ⟨?_, (carriesAt_iff (by simp) le_rfl).1 ht1⟩
    rw [← hstep.t1]
    exact hw wordT1 (by decide)
  · refine ((h2 carryT2Base (.inl rfl)).1 row _ _ _ _ _ (hw _ (by decide)) (hw _ (by decide))
      (hw wordT2 (by decide)).isLimb).2 ⟨?_, (carriesAt_iff (by simp) (by simp)).1 ht2⟩
    rw [← hstep.t2]
    exact hw wordT2 (by decide)
  · refine ((h2 carryABase (.inr (.inl rfl))).2 row next _ _ _ _ _ (hw _ (by decide)) (hw _ (by decide))
      (hw' wordA (by decide)).isLimb).2 ⟨?_, (carriesAt_iff (by simp) (by simp)).1 ha⟩
    rw [← hstep.a]
    exact hw' wordA (by decide)
  · refine ((h2 carryEBase (.inr (.inr rfl))).2 row next _ _ _ _ _ (hw _ (by decide)) (hw _ (by decide))
      (hw' wordE (by decide)).isLimb).2 ⟨?_, (carriesAt_iff (by simp) (by simp)).1 he⟩
    rw [← hstep.e]
    exact hw' wordE (by decide)
  · refine (hbits row _ _ _ _ hrow.lag1 (hrow.lags 6 (by decide)) hrow.lag14 (hrow.lags 15 (by decide))
      (hw wordW (by decide)).isLimb).2 ⟨?_, (carriesAt_iff (by simp) (by simp)).1 hs⟩
    rw [← hsum]
    exact hw wordW (by decide)

end Sha512Circuit
