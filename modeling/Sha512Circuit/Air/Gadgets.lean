/-
The addition gadgets over words: on canonical limbs, the constraints of a limb-by-limb addition
vanish exactly when the output is the sum of the operands and the carry cells hold the carries of
that sum, which are those `add_with_carries_*` computes.
-/
import Sha512Circuit.Air.Limbs

namespace Sha512Circuit

open FieldBits (IsBit ofBool)

/-! ## Vanishing assertions -/

/-- No assertion is violated. -/
def Vanish (cs : Assertions) : Prop := ∀ x ∈ cs, x = 0

@[simp] theorem vanish_append (cs ds : Assertions) : Vanish (cs ++ ds) ↔ Vanish cs ∧ Vanish ds := by
  unfold Vanish
  simp only [List.mem_append, or_imp, forall_and]

@[simp] theorem vanish_nil : Vanish [] := by intro x hx; cases hx

theorem vanish_flatMap {ι : Type} (L : List ι) (f : ι → Assertions) :
    Vanish (L.flatMap f) ↔ ∀ i ∈ L, Vanish (f i) := by
  unfold Vanish
  constructor
  · intro h i hi x hx
    exact h x (List.mem_flatMap.2 ⟨i, hi, hx⟩)
  · intro h x hx
    obtain ⟨i, hi, hx⟩ := List.mem_flatMap.1 hx
    exact h i hi x hx

@[simp] theorem vanish_flatMap_range (n : ℕ) (f : ℕ → Assertions) :
    Vanish ((List.range n).flatMap f) ↔ ∀ i < n, Vanish (f i) := by
  simp only [vanish_flatMap, List.mem_range]

@[simp] theorem vanish_forLimbs (body : ℕ → Assertions) : Vanish (forLimbs body) ↔ ∀ l < 4, Vanish (body l) := by
  rw [forLimbs, vanish_flatMap_range, limbsPerWord_eq]

@[simp] theorem vanish_assertZero (x : BabyBear) : Vanish (assertZero x) ↔ x = 0 := by
  simp [Vanish, assertZero]

@[simp] theorem vanish_assertEq (x y : BabyBear) : Vanish (assertEq x y) ↔ x = y := by
  rw [assertEq, vanish_assertZero, sub_eq_zero]

@[simp] theorem vanish_assertBool (x : BabyBear) : Vanish (assertBool x) ↔ IsBit x := by
  rw [assertBool, vanish_assertZero, FieldBits.isBit_iff_mul_sub]

/-- A filter is off or its assertions vanish. -/
theorem vanish_filtered (condition : BabyBear) (cs : Assertions) :
    Vanish (filtered condition cs) ↔ condition = 0 ∨ Vanish cs := by
  unfold Vanish filtered
  simp only [List.mem_map, forall_exists_index, and_imp, forall_apply_eq_imp_iff₂, mul_eq_zero]
  constructor
  · intro h
    rcases eq_or_ne condition 0 with h0 | h0
    · exact .inl h0
    · exact .inr fun x hx => (h x hx).resolve_left h0
  · rintro (h | h) x hx
    · exact .inl h
    · exact .inr (h x hx)

@[simp] theorem packLe_eq (n : ℕ) (bit : ℕ → BabyBear) : packLe n bit = FieldBits.pack n bit := by
  induction n with
  | zero => rfl
  | succ n ih =>
    rw [FieldBits.pack_succ, ← ih, packLe, packLe, List.range_succ, List.foldl_append]
    rfl

/-! ## Carries -/

/-- Carry cell `col` holds `c` and its bit cells the binary digits of `c`. -/
structure CarryAt (row : RowView) (col c : ℕ) : Prop where
  cell : row col = (c : BabyBear)
  bits : ∀ i < carryBitWidth col, row (carryBitCol col i) = ofBool (c.testBit i)

/-- The pairs of a carry column and its bound that `constrain_carry_max` is called with. -/
def CarryBound (col max : ℕ) : Prop :=
  (carryBitWidth col = 1 ∧ max = 1) ∨ (carryBitWidth col = 2 ∧ max = 3) ∨ (carryBitWidth col = 3 ∧ max = 4)

/-- Booleanity and packing alone bound a carry by its width. -/
theorem carryAt_of_bits {row : RowView} {col w : ℕ} (hw : carryBitWidth col = w) :
    ((∀ i < w, IsBit (row (carryBitCol col i))) ∧ row col = FieldBits.pack w fun i => row (carryBitCol col i)) ↔
      ∃ c < 2 ^ w, CarryAt row col c := by
  subst hw
  constructor
  · rintro ⟨hb, hp⟩
    obtain ⟨c, hc, hf⟩ := FieldBits.exists_testBit hb
    refine ⟨c, hc, ?_, hf⟩
    rw [hp, FieldBits.pack_congr hf, FieldBits.pack_testBit, Nat.mod_eq_of_lt hc]
  · rintro ⟨c, hc, hcell, hf⟩
    refine ⟨fun i hi => hf i hi ▸ FieldBits.isBit_ofBool _, ?_⟩
    rw [hcell, FieldBits.pack_congr hf, FieldBits.pack_testBit, Nat.mod_eq_of_lt hc]

/-- `constrain_carry_max` bounds the carry. For the bound 4 the product of bit 2 with the sum of
the lower bits excludes 5, 6 and 7. -/
theorem constrainCarryMax_iff {row : RowView} {col max : ℕ} (h : CarryBound col max) :
    Vanish (constrainCarryMax row col max) ↔ ∃ c ≤ max, CarryAt row col c := by
  unfold constrainCarryMax
  rw [vanish_append, vanish_append, vanish_flatMap_range, vanish_assertEq, packLe_eq]
  simp only [vanish_assertBool]
  rcases h with ⟨hw, rfl⟩ | ⟨hw, rfl⟩ | ⟨hw, rfl⟩
  -- one or two bits reach the bound exactly
  · rw [hw, carryAt_of_bits hw]
    simp only [vanish_nil, and_true]
    exact exists_congr fun c => and_congr_left fun _ => Nat.lt_succ_iff
  · rw [hw, carryAt_of_bits hw]
    simp only [vanish_nil, and_true]
    exact exists_congr fun c => and_congr_left fun _ => Nat.lt_succ_iff
  -- three bits leave 5, 6 and 7 to the product
  · rw [hw, carryAt_of_bits hw]
    simp only [vanish_assertZero]
    have h3 : ∀ c < 8, (ofBool (c.testBit 2) * (ofBool (c.testBit 1) + ofBool (c.testBit 0)) : BabyBear) = 0 ↔
        c ≤ 4 := by
      intro c hc
      interval_cases c <;> decide
    constructor
    · rintro ⟨⟨c, hc, hat⟩, hz⟩
      rw [hat.bits 2 (by omega), hat.bits 1 (by omega), hat.bits 0 (by omega), h3 c hc] at hz
      exact ⟨c, hz, hat⟩
    · rintro ⟨c, hc, hat⟩
      refine ⟨⟨c, by omega, hat⟩, ?_⟩
      rw [hat.bits 2 (by omega), hat.bits 1 (by omega), hat.bits 0 (by omega)]
      exact (h3 c (by omega)).2 hc

/-! ## Limb-by-limb addition -/

/-- The loop of the addition gadgets, limb by limb. -/
theorem constrainAddLimbs_iff (row : RowView) (sum out : ℕ → BabyBear) (carryBase max : ℕ)
    (emit : BabyBear → BabyBear → Assertions) :
    Vanish (constrainAddLimbs row sum out carryBase max emit) ↔
      ∀ l < 4, Vanish (constrainCarryMax row (carryBase + l) max) ∧
        Vanish (emit (sum l + Radix.carryIn (fun l => row (carryBase + l)) l)
          (out l + row (carryBase + l) * ((2 ^ 16 : ℕ) : BabyBear))) := by
  refine (Loop.foldl_range_inv
    (P := fun k (st : BabyBear × Assertions) => st.1 = Radix.carryIn (fun l => row (carryBase + l)) k ∧
      (Vanish st.2 ↔ ∀ l < k, Vanish (constrainCarryMax row (carryBase + l) max) ∧
        Vanish (emit (sum l + Radix.carryIn (fun l => row (carryBase + l)) l)
          (out l + row (carryBase + l) * ((2 ^ 16 : ℕ) : BabyBear))))) limbsPerWord ?_ ?_).2
  · exact ⟨rfl, by simp⟩
  · rintro k - ⟨c, cs⟩ ⟨rfl, hcs⟩
    refine ⟨rfl, ?_⟩
    rw [vanish_append, vanish_append, hcs, Nat.forall_lt_succ_right, and_assoc]

/-- The carry out of limb `l` when the words `ops` are added. -/
def addCarry (ops : List U64) (l : ℕ) : ℕ :=
  Radix.carry (2 ^ 16) (Radix.columns (2 ^ 16) (ops.map BitVec.toNat)) (l + 1)

/-- The sum of the limbs `l` of `ops`, as a gadget adds them up. -/
def limbSum (ops : List U64) (l : ℕ) : BabyBear := ((Radix.columns (2 ^ 16) (ops.map BitVec.toNat) l : ℕ) : BabyBear)

theorem limbSum_nil (l : ℕ) : limbSum [] l = 0 := by simp [limbSum, Radix.columns]

theorem limbSum_cons (x : U64) (ops : List U64) (l : ℕ) :
    limbSum (x :: ops) l = (limb x l : BabyBear) + limbSum ops l := by
  simp [limbSum, Radix.columns, limb]

theorem toNat_sum (ops : List U64) : ops.sum.toNat = (ops.map BitVec.toNat).sum % 2 ^ 64 := by
  induction ops with
  | nil => rfl
  | cons x ops ih => rw [List.sum_cons, List.map_cons, List.sum_cons, BitVec.toNat_add, ih, Nat.add_mod_mod]

theorem sum_four (x₀ x₁ x₂ x₃ : U64) : [x₀, x₁, x₂, x₃].sum = x₀ + x₁ + x₂ + x₃ := by
  simp [BitVec.add_assoc]

theorem sum_five (x₀ x₁ x₂ x₃ x₄ : U64) : [x₀, x₁, x₂, x₃, x₄].sum = x₀ + x₁ + x₂ + x₃ + x₄ := by
  simp [BitVec.add_assoc]

theorem limb_sum (ops : List U64) {l : ℕ} (hl : l < 4) :
    limb ops.sum l = (Radix.columns (2 ^ 16) (ops.map BitVec.toNat) l +
      Radix.carry (2 ^ 16) (Radix.columns (2 ^ 16) (ops.map BitVec.toNat)) l) % 2 ^ 16 := by
  rw [← Radix.digit_sum (by norm_num), limb, toNat_sum, show 2 ^ 64 = (2 ^ 16) ^ 4 by norm_num,
    Radix.digit_mod _ hl]

theorem addCarry_le {ops : List U64} {max : ℕ} (hlen : ops.length = max + 1) (l : ℕ) : addCarry ops l ≤ max := by
  cases ops with
  | nil => simp at hlen
  | cons x ops =>
    have := Radix.carry_columns_le (b := 2 ^ 16) (by norm_num) x.toNat (ops.map BitVec.toNat) (l + 1)
    rw [List.length_map] at this
    simp only [List.length_cons] at hlen
    exact le_trans this (by omega)

/-- The carry into limb `l`, as the loop passes it on. -/
theorem carryIn_of_carryAt {row : RowView} {carryBase l : ℕ} {c : ℕ → ℕ}
    (h : ∀ k < l, CarryAt row (carryBase + k) (c k)) :
    Radix.carryIn (fun l => row (carryBase + l)) l = ((Radix.carryIn c l : ℕ) : BabyBear) := by
  cases l with
  | zero => simp [Radix.carryIn]
  | succ l => exact (h l (Nat.lt_succ_self l)).cell

/-- No column equation wraps around modulo `p`: at most five limbs and a carry of at most 4 stay
below `2^19`. -/
theorem column_natCast {t i o c : ℕ} (ht : t ≤ 5 * 65535) (hi : i ≤ 4) (ho : o < 2 ^ 16) (hc : c ≤ 4) :
    (t : BabyBear) + (i : BabyBear) = (o : BabyBear) + (c : BabyBear) * ((2 ^ 16 : ℕ) : BabyBear) ↔
      t + i = o + c * 2 ^ 16 := by
  rw [← Nat.cast_add, ← Nat.cast_mul, ← Nat.cast_add]
  refine FieldBits.natCast_inj (p := babyBearPrime) ?_ ?_ <;> rw [babyBearPrime_eq] <;> omega

/-- An addition gadget over words. -/
theorem constrainAddLimbs_words {row : RowView} {sum out : ℕ → BabyBear} {carryBase max : ℕ}
    {emit : BabyBear → BabyBear → Assertions} {ops : List U64} {y : U64} (hemit : ∀ s e, Vanish (emit s e) ↔ s = e)
    (hlen : ops.length = max + 1) (hbound : ∀ l < 4, CarryBound (carryBase + l) max)
    (hsum : ∀ l < 4, sum l = limbSum ops l) (hout : ∀ l < 4, out l = (limb y l : BabyBear)) :
    Vanish (constrainAddLimbs row sum out carryBase max emit) ↔
      y = ops.sum ∧ ∀ l < 4, CarryAt row (carryBase + l) (addCarry ops l) := by
  set t := Radix.columns (2 ^ 16) (ops.map BitVec.toNat) with ht
  have hmax : max ≤ 4 := by rcases hbound 0 (by omega) with h | h | h <;> omega
  have htle : ∀ l, t l ≤ 5 * 65535 := fun l => by
    have := Radix.columns_le (b := 2 ^ 16) (by norm_num) (ops.map BitVec.toNat) l
    rw [List.length_map, hlen] at this
    exact le_trans this (Nat.mul_le_mul (by omega) le_rfl)
  rw [constrainAddLimbs_iff]
  constructor
  · intro h
    have hc : ∀ l < 4, ∃ c ≤ max, CarryAt row (carryBase + l) c := fun l hl =>
      (constrainCarryMax_iff (hbound l hl)).1 (h l hl).1
    choose! c hcle hcat using hc
    have hinle : ∀ l < 4, Radix.carryIn c l ≤ 4 := by
      intro l hl
      cases l with
      | zero => simp [Radix.carryIn]
      | succ l => exact le_trans (hcle l (by omega)) hmax
    -- the column equations hold of the carries themselves, so they are the carries of the sum
    have heq : ∀ l < 4, t l + Radix.carryIn c l = limb y l + c l * 2 ^ 16 := by
      intro l hl
      have e := (hemit _ _).1 (h l hl).2
      rw [hsum l hl, hout l hl, carryIn_of_carryAt fun k hk => hcat k (by omega), (hcat l hl).cell, limbSum] at e
      exact (column_natCast (htle l) (hinle l hl) (limb_lt y l) (le_trans (hcle l hl) hmax)).1 e
    have hchain := Radix.carry_chain heq fun l _ => limb_lt y l
    refine ⟨eq_of_limb_eq fun l hl => ?_, fun l hl => ?_⟩
    · rw [(hchain l hl).1, limb_sum ops hl]
    · rw [addCarry, ← (hchain l hl).2]
      exact hcat l hl
  · rintro ⟨rfl, hcat⟩ l hl
    refine ⟨(constrainCarryMax_iff (hbound l hl)).2 ⟨_, addCarry_le hlen l, hcat l hl⟩, (hemit _ _).2 ?_⟩
    have e := Radix.carry_chain_holds (b := 2 ^ 16) t l
    rw [hsum l hl, hout l hl, (hcat l hl).cell, carryIn_of_carryAt fun k hk => hcat k (by omega), limb_sum ops hl,
      limbSum, addCarry]
    exact_mod_cast congrArg (Nat.cast : ℕ → BabyBear) e

/-! ## The witness generator's additions -/

/-- The limbs one iteration of `add_with_carries_*` adds up. -/
theorem sum_u64ToLimbs (ops : List U64) {l : ℕ} (hl : l < 4) :
    (ops.map fun op => (u64ToLimbs op)[l]!.toNat).sum = Radix.columns (2 ^ 16) (ops.map BitVec.toNat) l := by
  rw [Radix.columns, List.map_map]
  congr 1
  refine List.map_congr_left fun x _ => ?_
  rw [u64ToLimbs_toNat x hl]; rfl

/-- `add_with_carries_*`: the digits of the sum and the carries. -/
theorem addWithCarries_loop (ops : List U64) {k : ℕ} (hk : k ≤ 4) :
    let st := (List.range k).foldl (addWithCarriesStep ops) (Vector.replicate 4 0, Vector.replicate 4 0, 0)
    (∀ l < k, st.1[l]!.toNat = limb ops.sum l ∧ st.2.1[l]! = BitVec.ofNat 16 (addCarry ops l)) ∧
      st.2.2 = Radix.carry (2 ^ 16) (Radix.columns (2 ^ 16) (ops.map BitVec.toNat)) k := by
  refine Loop.foldl_range_inv
    (P := fun k (st : Vector (BitVec 16) 4 × Vector (BitVec 16) 4 × ℕ) =>
      (∀ l < k, st.1[l]!.toNat = limb ops.sum l ∧ st.2.1[l]! = BitVec.ofNat 16 (addCarry ops l)) ∧
      st.2.2 = Radix.carry (2 ^ 16) (Radix.columns (2 ^ 16) (ops.map BitVec.toNat)) k) k ?_ ?_
  · exact ⟨fun l hl => absurd hl (Nat.not_lt_zero l), rfl⟩
  · rintro j hj ⟨out, carries, carry⟩ ⟨ih, hcarry⟩
    have hcols := sum_u64ToLimbs ops (show j < 4 by omega)
    have hnext : (Radix.columns (2 ^ 16) (ops.map BitVec.toNat) j + carry) >>> 16 = addCarry ops j := by
      rw [Nat.shiftRight_eq_div_pow, show carry = _ from hcarry]; rfl
    refine ⟨fun l hl => ?_, ?_⟩
    · simp only [addWithCarriesStep, hcols, hnext, Bytes.getElem!_set!]
      by_cases hjl : j = l
      · subst hjl
        have hand : (Radix.columns (2 ^ 16) (ops.map BitVec.toNat) j + carry) &&& 0xffff = limb ops.sum j := by
          rw [limb_sum ops (by omega), show carry = _ from hcarry, show 0xffff = 2 ^ 16 - 1 from rfl,
            Nat.and_two_pow_sub_one_eq_mod]
        rw [if_pos ⟨rfl, by omega⟩, if_pos ⟨rfl, by omega⟩, hand, BitVec.toNat_ofNat]
        exact ⟨Nat.mod_eq_of_lt (limb_lt _ _), rfl⟩
      · rw [if_neg (by omega), if_neg (by omega)]
        exact ih l (by omega)
    · simp only [addWithCarriesStep, hcols, hnext]; rfl

theorem addWithCarries_carries (ops : List U64) {l : ℕ} (hl : l < 4) :
    (addWithCarries ops).2[l]! = BitVec.ofNat 16 (addCarry ops l) :=
  ((addWithCarries_loop ops le_rfl).1 l hl).2

/-- `add_with_carries_*` returns the wrapping sum. -/
theorem addWithCarries_sum (ops : List U64) : (addWithCarries ops).1 = ops.sum := by
  have h := (addWithCarries_loop ops le_rfl).1
  exact shiftedLimbs_eq (h 0 (by omega)).1 (h 1 (by omega)).1 (h 2 (by omega)).1 (h 3 (by omega)).1

theorem addWithCarries_carries_toNat {ops : List U64} (h0 : ops ≠ []) (hlen : ops.length ≤ 5) {l : ℕ} (hl : l < 4) :
    (addWithCarries ops).2[l]!.toNat = addCarry ops l := by
  have hpos := List.length_pos_iff.2 h0
  have := addCarry_le (show ops.length = (ops.length - 1) + 1 by omega) l
  rw [addWithCarries_carries ops hl, BitVec.toNat_ofNat, Nat.mod_eq_of_lt (by omega)]

theorem fromU16_addWithCarries (ops : List U64) (h0 : ops ≠ []) (hlen : ops.length ≤ 5) {l : ℕ} (hl : l < 4) :
    fromU16 (addWithCarries ops).2[l]! = (addCarry ops l : BabyBear) := by
  rw [fromU16, addWithCarries_carries_toNat h0 hlen hl]

/-- The `u32` sums of `add_with_carries_*` do not overflow. -/
theorem addWithCarries_no_overflow {ops : List U64} (hlen : ops.length ≤ 5) {l : ℕ} (hl : l < 4) :
    (ops.map fun op => (u64ToLimbs op)[l]!.toNat).sum +
      ((List.range l).foldl (addWithCarriesStep ops) (Vector.replicate 4 0, Vector.replicate 4 0, 0)).2.2 < 2 ^ 32 := by
  have hcols : ∀ l, Radix.columns (2 ^ 16) (ops.map BitVec.toNat) l ≤ 5 * (2 ^ 16 - 1) := fun l => by
    refine (Radix.columns_le (by norm_num) _ l).trans (Nat.mul_le_mul_right _ ?_)
    rwa [List.length_map]
  have hcarry := Radix.carry_le (k := 4) (by norm_num) hcols l
  rw [sum_u64ToLimbs ops hl, (addWithCarries_loop ops hl.le).2]
  have := hcols l
  omega

end Sha512Circuit
