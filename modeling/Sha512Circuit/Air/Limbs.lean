/-
Words in a row: when four cells hold the 16-bit limbs of a word, and when sixty-four cells hold its
bits. A word is determined by its limb cells, and four cells that hold values below `2^16` always
hold the limbs of some word.
-/
import Sha512Circuit.Air.TraceBuilder
import Sha512Circuit.Lib.FieldBits
import Sha512Circuit.Lib.Loop
import Mathlib.Tactic.IntervalCases

namespace Sha512Circuit

/-! ## Limbs of a word -/

/-- The 16-bit limb `l` of a word. -/
def limb (x : U64) (l : ℕ) : ℕ := Radix.digit (2 ^ 16) x.toNat l

theorem limb_lt (x : U64) (l : ℕ) : limb x l < 2 ^ 16 := Radix.digit_lt (by norm_num) _ _

@[simp] theorem limb_zero (l : ℕ) : limb 0 l = 0 := by simp [limb]

theorem two_pow_16_le_prime : 2 ^ 16 ≤ babyBearPrime := by rw [babyBearPrime_eq]; norm_num

theorem limb_lt_prime (x : U64) (l : ℕ) : limb x l < babyBearPrime :=
  lt_of_lt_of_le (limb_lt x l) two_pow_16_le_prime

theorem toNat_lt_radix (x : U64) : x.toNat < (2 ^ 16) ^ 4 := by
  rw [← pow_mul]; exact x.isLt

theorem eq_of_limb_eq {x y : U64} (h : ∀ l < 4, limb x l = limb y l) : x = y :=
  BitVec.eq_of_toNat_eq (Radix.eq_of_digit_eq (toNat_lt_radix x) (toNat_lt_radix y) h)

/-- Any four values below `2^16` are the limbs of a word. -/
theorem exists_limbs {d : ℕ → ℕ} (h : ∀ l < 4, d l < 2 ^ 16) : ∃ x : U64, ∀ l < 4, limb x l = d l := by
  refine ⟨BitVec.ofNat 64 (Radix.value (2 ^ 16) d 4), fun l hl => ?_⟩
  have hv : Radix.value (2 ^ 16) d 4 < 2 ^ 64 := by
    have := Radix.value_lt h
    rwa [← pow_mul] at this
  unfold limb
  rw [BitVec.toNat_ofNat, Nat.mod_eq_of_lt hv]
  exact Radix.digit_value h l hl

theorem limb_testBit (x : U64) (l i : ℕ) : (limb x l).testBit i = (decide (i < 16) && x.getLsbD (l * 16 + i)) := by
  unfold limb Radix.digit
  rw [Nat.testBit_mod_two_pow, ← pow_mul, Nat.testBit_div_two_pow, BitVec.testBit_toNat, mul_comm 16 l, add_comm i]

theorem toNat_eq_sum_limbs (x : U64) :
    x.toNat = limb x 0 + limb x 1 * 2 ^ 16 + limb x 2 * 2 ^ 32 + limb x 3 * 2 ^ 48 := by
  have h := Radix.value_digit (b := 2 ^ 16) x.toNat 4
  rw [Nat.mod_eq_of_lt (toNat_lt_radix x)] at h
  rw [← h]
  simp [Radix.value, Finset.sum_range_succ, limb]

/-- A shift and a mask extract a limb. -/
theorem truncate_shift_toNat (x : U64) (l : ℕ) : (((x >>> (16 * l)) &&& 0xffff).truncate 16).toNat = limb x l := by
  apply Nat.eq_of_testBit_eq
  intro i
  rw [limb_testBit, BitVec.testBit_toNat, BitVec.truncate_eq_setWidth, BitVec.getLsbD_setWidth]
  by_cases hi : i < 16
  · have hm : (0xffff : U64).getLsbD i = true := by interval_cases i <;> rfl
    rw [BitVec.getLsbD_and, BitVec.getLsbD_ushiftRight, hm, Bool.and_true, mul_comm l 16]
  · simp [hi]

theorem fromU16_shift (x : U64) (l : ℕ) :
    fromU16 (((x >>> (16 * l)) &&& 0xffff).truncate 16) = (limb x l : BabyBear) := by
  rw [fromU16, truncate_shift_toNat]

/-- `u64_to_limbs` lists the limbs. -/
theorem u64ToLimbs_toNat (x : U64) {l : ℕ} (hl : l < 4) : ((u64ToLimbs x)[l]!).toNat = limb x l := by
  rw [← truncate_shift_toNat]
  obtain rfl | rfl | rfl | rfl : l = 0 ∨ l = 1 ∨ l = 2 ∨ l = 3 := by omega
  · rw [Nat.mul_zero, BitVec.ushiftRight_zero]; rfl
  · rfl
  · rfl
  · rfl

theorem fromU16_u64ToLimbs (x : U64) {l : ℕ} (hl : l < 4) : fromU16 (u64ToLimbs x)[l]! = (limb x l : BabyBear) := by
  rw [fromU16, u64ToLimbs_toNat x hl]

/-- A limb shifted into place holds the bits of the word that it covers. -/
theorem getLsbD_shiftedLimb (x : U64) (l i : ℕ) : (BitVec.ofNat 64 (limb x l) <<< (16 * l)).getLsbD i =
    (decide (16 * l ≤ i ∧ i < 16 * (l + 1)) && x.getLsbD i) := by
  rw [BitVec.getLsbD_shiftLeft, BitVec.getLsbD_ofNat, limb_testBit]
  rcases Nat.lt_or_ge i (16 * l) with hlt | hge
  · simp [hlt]
  · obtain ⟨j, rfl⟩ := Nat.exists_eq_add_of_le hge
    rw [Nat.add_sub_cancel_left, mul_comm l 16]
    by_cases hj : j < 16
    · by_cases h64 : 16 * l + j < 64
      · simp [hj, h64, show j < 64 by omega, show 16 * l + j < 16 * (l + 1) by omega]
      · simp [h64, BitVec.getLsbD_of_ge x (16 * l + j) (by omega)]
    · simp [hj, show ¬ 16 * l + j < 16 * (l + 1) by omega]

/-- Four limbs shifted into place are the word they come from. -/
theorem shiftedLimbs_eq {d₀ d₁ d₂ d₃ : BitVec 16} {x : U64} (h0 : d₀.toNat = limb x 0) (h1 : d₁.toNat = limb x 1)
    (h2 : d₂.toNat = limb x 2) (h3 : d₃.toNat = limb x 3) :
    (d₀.zeroExtend 64) ||| (d₁.zeroExtend 64 <<< 16) ||| (d₂.zeroExtend 64 <<< 32) ||| (d₃.zeroExtend 64 <<< 48) =
      x := by
  have hbit : ∀ {d : BitVec 16} {l : ℕ}, d.toNat = limb x l → ∀ i, (d.zeroExtend 64 <<< (16 * l)).getLsbD i =
      (decide (16 * l ≤ i ∧ i < 16 * (l + 1)) && x.getLsbD i) := by
    intro d l h i
    rw [show d.zeroExtend 64 = BitVec.ofNat 64 (limb x l) by rw [← h, BitVec.ofNat_toNat], getLsbD_shiftedLimb]
  apply BitVec.eq_of_getLsbD_eq
  intro i hi
  have b0 := hbit h0 i
  rw [Nat.mul_zero, BitVec.shiftLeft_zero] at b0
  have b1 : (d₁.zeroExtend 64 <<< 16).getLsbD i = _ := hbit h1 i
  have b2 : (d₂.zeroExtend 64 <<< 32).getLsbD i = _ := hbit h2 i
  have b3 : (d₃.zeroExtend 64 <<< 48).getLsbD i = _ := hbit h3 i
  rw [BitVec.getLsbD_or, BitVec.getLsbD_or, BitVec.getLsbD_or, b0, b1, b2, b3]
  -- bit `i` lies in one of the four
  cases hx : x.getLsbD i with
  | false => simp only [Bool.and_false, Bool.or_false]
  | true =>
    simp only [Bool.and_true, Bool.or_eq_true, decide_eq_true_eq]
    omega

/-! ## Words in a row -/

/-- The cells `col 0, …, col 3` of a row hold the limbs of `x`. -/
def WordAt (row : RowView) (col : ℕ → ℕ) (x : U64) : Prop := ∀ l < 4, row (col l) = (limb x l : BabyBear)

/-- The cells of a row from `base` on hold the bits of `x`, least significant first. -/
def BitsAt (row : RowView) (base : ℕ) (x : U64) : Prop := ∀ i < 64, row (base + i) = FieldBits.ofBool (x.getLsbD i)

/-- Words `A..H` of a row hold the state `s`. -/
def StateAt (row : RowView) (s : State) : Prop := ∀ i < 8, WordAt row (limbCol i) s[i]!

theorem WordAt.inj {row : RowView} {col : ℕ → ℕ} {x y : U64} (hx : WordAt row col x) (hy : WordAt row col y) :
    x = y :=
  eq_of_limb_eq fun l hl => (FieldBits.natCast_inj (limb_lt_prime x l) (limb_lt_prime y l)).1 ((hx l hl).symm.trans (hy l hl))

theorem StateAt.inj {row : RowView} {s s' : State} (h : StateAt row s) (h' : StateAt row s') : s = s' :=
  Bytes.ext_getElem! fun i hi => (h i hi).inj (h' i hi)

/-- Equal cells hold equal words. -/
theorem WordAt.of_eq {row row' : RowView} {col col' : ℕ → ℕ} {x : U64} (h : WordAt row col x)
    (e : ∀ l < 4, row' (col' l) = row (col l)) : WordAt row' col' x :=
  fun l hl => (e l hl).trans (h l hl)

/-- A canonical 16-bit limb. -/
def IsLimb (v : BabyBear) : Prop := ∃ n : ℕ, n < 2 ^ 16 ∧ v = (n : BabyBear)

theorem WordAt.isLimb {row : RowView} {col : ℕ → ℕ} {x : U64} (h : WordAt row col x) :
    ∀ l < 4, IsLimb (row (col l)) :=
  fun l hl => ⟨limb x l, limb_lt x l, h l hl⟩

/-- Four cells with canonical limbs hold a word. -/
theorem exists_wordAt {row : RowView} {col : ℕ → ℕ} (h : ∀ l < 4, IsLimb (row (col l))) : ∃ x, WordAt row col x := by
  choose! d hd using h
  obtain ⟨x, hx⟩ := exists_limbs fun l hl => (hd l hl).1
  refine ⟨x, fun l hl => ?_⟩
  rw [(hd l hl).2, hx l hl]

/-- The packed limbs of a word are its residue modulo `p`. -/
theorem bb_eq_limbs (x : U64) : bb x = (limb x 0 : BabyBear) + (limb x 1 : BabyBear) * ((2 ^ 16 : ℕ) : BabyBear) +
    (limb x 2 : BabyBear) * ((2 ^ 32 : ℕ) : BabyBear) + (limb x 3 : BabyBear) * ((2 ^ 48 : ℕ) : BabyBear) := by
  unfold bb
  conv_lhs => rw [toNat_eq_sum_limbs x]
  push_cast
  rfl

/-- The value a bit loop writes: the binary digits of `n`. -/
theorem fromBool_shift (n i : ℕ) : fromBool ((n >>> i) &&& 1 == 1) = FieldBits.ofBool (n.testBit i) := by
  have h : ((n >>> i) &&& 1 == 1) = n.testBit i := by
    rw [Nat.and_one_is_mod, Nat.shiftRight_eq_div_pow, Nat.testBit_eq_decide_div_mod_eq]
    rfl
  rw [h]; rfl

/-- The value a word's bit loop writes. -/
theorem fromBool_shift_word (x : U64) (i : ℕ) :
    fromBool ((x >>> i) &&& 1 == 1) = FieldBits.ofBool (x.getLsbD i) := by
  have h : ((x >>> i) &&& 1 == 1) = x.getLsbD i := by
    rw [Bool.eq_iff_iff, beq_iff_eq]
    constructor
    · intro e
      have := congrArg (fun y => BitVec.getLsbD y 0) e
      simpa using this
    · intro e
      apply BitVec.eq_of_getLsbD_eq
      intro j hj
      cases j with
      | zero => simpa using e
      | succ j => simp
  rw [h]; rfl

/-- `decode_word_from_inline` reads back a word whose limbs a row holds. -/
theorem decodeWordFromInline_eq {row : Row} {word : ℕ} {x : U64} (h : WordAt row.cell (limbCol word) x) :
    decodeWordFromInline row word = x := by
  have hval : ∀ l < 4, (row.cell (limbCol word l)).val = limb x l := fun l hl => by
    rw [h l hl, ZMod.val_natCast_of_lt (limb_lt_prime x l)]
  have key := Loop.foldl_range_inv
    (f := fun (out : U64) l => out ||| (BitVec.ofNat 64 (row.cell (limbCol word l)).val <<< (16 * l)))
    (fun k out => ∀ i, out.getLsbD i = (decide (i < 16 * k) && x.getLsbD i)) limbsPerWord (s := 0) ?_ ?_
  · apply BitVec.eq_of_getLsbD_eq
    intro i hi
    rw [decodeWordFromInline, key i]
    simp [hi]
  · intro i; simp
  · intro k hk out ih i
    rw [hval k hk, BitVec.getLsbD_or, ih i, getLsbD_shiftedLimb, ← Bool.and_or_distrib_right, ← Bool.decide_or]
    congr 2
    exact propext (by omega)

end Sha512Circuit
