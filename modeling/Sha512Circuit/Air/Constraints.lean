/-
`air/constraints.rs`: the addition gadgets, the carry bound and the bit polynomials. A gadget is
the list of values it hands to `assert_zero`, in source order, as a function of the row it reads.
-/
import Sha512Circuit.Air.Columns
import Mathlib.Data.ZMod.Basic

namespace Sha512Circuit

/-! ## The builder interface -/

/-- A row slice as `eval` and the gadgets read it, by column. -/
abbrev RowView := ℕ → BabyBear

/-- The values asserted to be zero. -/
abbrev Assertions := List BabyBear

/-- `AirBuilder::assert_zero`. -/
def assertZero (x : BabyBear) : Assertions := [x]

/-- `AirBuilder::assert_eq`. -/
def assertEq (x y : BabyBear) : Assertions := assertZero (x - y)

/-- `AirBuilder::assert_bool`, whose `bool_check` is `x (x - 1)`. -/
def assertBool (x : BabyBear) : Assertions := assertZero (x * (x - 1))

/-- `AirBuilder::when`: a filtered builder multiplies every asserted value by its condition. -/
def filtered (condition : BabyBear) (cs : Assertions) : Assertions := cs.map (condition * ·)

/-- `for limb in 0..LIMBS_PER_WORD`. -/
def forLimbs (body : ℕ → Assertions) : Assertions := (List.range limbsPerWord).flatMap body

/-- The accumulator `packed += bit * 2^i` over `n` bits, least significant first. -/
def packLe (n : ℕ) (bit : ℕ → BabyBear) : BabyBear :=
  (List.range n).foldl (fun acc i => acc + bit i * ((2 ^ i : ℕ) : BabyBear)) 0

/-! ## Carries and additions -/

/-- `constrain_carry_max`. -/
def constrainCarryMax (row : RowView) (carryCol max : ℕ) : Assertions :=
  (List.range (carryBitWidth carryCol)).flatMap (fun bit => assertBool (row (carryBitCol carryCol bit))) ++
  assertEq (row carryCol) (packLe (carryBitWidth carryCol) fun bit => row (carryBitCol carryCol bit)) ++
  match max with
  | 4 => assertZero (row (carryBitCol carryCol 2) * (row (carryBitCol carryCol 1) + row (carryBitCol carryCol 0)))
  | _ => []

/-- The loop the four addition gadgets share: limb by limb, bound the carry and hand
`sum + carry_in` and `out + carry_out * 2^16` to `emit`. -/
def constrainAddLimbs (row : RowView) (sum out : ℕ → BabyBear) (carryBase max : ℕ)
    (emit : BabyBear → BabyBear → Assertions) : Assertions :=
  ((List.range limbsPerWord).foldl (fun (st : BabyBear × Assertions) limb =>
    let carryIn := st.1
    let carryOut := row (carryBase + limb)
    (carryOut, st.2 ++ constrainCarryMax row (carryBase + limb) max ++
      emit (sum limb + carryIn) (out limb + carryOut * ((2 ^ 16 : ℕ) : BabyBear)))) (0, [])).2

/-- `constrain_add_5_limbs`. -/
def constrainAdd5Limbs (row : RowView) (op0 op1 op2 op3 op4 out carryBase : ℕ) : Assertions :=
  constrainAddLimbs row
    (fun limb => row (limbCol op0 limb) + row (limbCol op1 limb) + row (limbCol op2 limb) +
      row (limbCol op3 limb) + row (limbCol op4 limb))
    (fun limb => row (limbCol out limb)) carryBase 4 assertEq

/-- `constrain_add_2_limbs`. -/
def constrainAdd2Limbs (row : RowView) (lhs rhs out carryBase : ℕ) : Assertions :=
  constrainAddLimbs row (fun limb => row (limbCol lhs limb) + row (limbCol rhs limb))
    (fun limb => row (limbCol out limb)) carryBase 1 assertEq

/-- `constrain_add_2_limbs_across_rows`. -/
def constrainAdd2LimbsAcrossRows (loc next : RowView) (lhs rhs outNext carryBase : ℕ) : Assertions :=
  constrainAddLimbs loc (fun limb => loc (limbCol lhs limb) + loc (limbCol rhs limb))
    (fun limb => next (limbCol outNext limb)) carryBase 1 assertEq

/-! ## Bit polynomials -/

/-- `pack_bits`: Horner from the top bit. -/
def packBits (row : RowView) (bitBase : ℕ) : BabyBear :=
  (List.range 64).reverse.foldl (fun acc i => acc * BabyBear.two + row (bitBase + i)) 0

/-- `xor2_expr`. -/
def xor2Expr (x y : BabyBear) : BabyBear := x + y - x * y * BabyBear.two

/-- `xor3_expr`. -/
def xor3Expr (x y z : BabyBear) : BabyBear := xor2Expr (xor2Expr x y) z

/-- `lag_bit_expr`; the source admits lags 1 and 14 only. -/
def lagBitExpr (row : RowView) (lag bit : ℕ) : BabyBear :=
  match lag with
  | 1 => row (lag1BitBase + bit)
  | 14 => row (lag14BitBase + bit)
  | _ => 0

/-- `small_sigma0_bit`. -/
def smallSigma0Bit (row : RowView) (bit : ℕ) : BabyBear :=
  xor3Expr (lagBitExpr row 14 ((bit + 1) % 64)) (lagBitExpr row 14 ((bit + 8) % 64))
    (if bit + 7 < 64 then lagBitExpr row 14 (bit + 7) else 0)

/-- `small_sigma1_bit`. -/
def smallSigma1Bit (row : RowView) (bit : ℕ) : BabyBear :=
  xor3Expr (lagBitExpr row 1 ((bit + 19) % 64)) (lagBitExpr row 1 ((bit + 61) % 64))
    (if bit + 6 < 64 then lagBitExpr row 1 (bit + 6) else 0)

/-- `pack_small_sigma0_limb`. -/
def packSmallSigma0Limb (row : RowView) (limb : ℕ) : BabyBear :=
  packLe 16 fun bit => smallSigma0Bit row (limb * 16 + bit)

/-- `pack_small_sigma1_limb`. -/
def packSmallSigma1Limb (row : RowView) (limb : ℕ) : BabyBear :=
  packLe 16 fun bit => smallSigma1Bit row (limb * 16 + bit)

/-- `constrain_schedule_recurrence`: the carries are bounded unconditionally, the sum under
`selector`. -/
def constrainScheduleRecurrence (row : RowView) (selector : BabyBear) : Assertions :=
  constrainAddLimbs row
    (fun limb => packSmallSigma1Limb row limb + row (lagLimbCol 6 limb) + packSmallSigma0Limb row limb +
      row (lagLimbCol 15 limb))
    (fun limb => row (limbCol wordW limb)) schedCarryBase 3
    (fun sum expected => assertZero (selector * (sum - expected)))

end Sha512Circuit
