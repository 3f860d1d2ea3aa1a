/-
The bit polynomials against the word functions: when bit columns hold the bits of words, the field
expressions for `Σ0`, `Σ1`, `Ch`, `Maj`, `σ0` and `σ1` are the limbs of the words those functions
return, and a Boolean decomposition that packs to four limb cells determines the word in them.
-/
import Sha512Circuit.Air.Gadgets
import Sha512Circuit.Air.RoundAir

namespace Sha512Circuit

open FieldBits (IsBit ofBool)

/-! ## Packing bits -/

/-- Sixteen consecutive bits of a word pack to its limb. -/
theorem pack_limb {f : ℕ → BabyBear} {x : U64} (h : ∀ i < 64, f i = ofBool (x.getLsbD i)) {l : ℕ} (hl : l < 4) :
    FieldBits.pack 16 (fun i => f (l * 16 + i)) = (limb x l : BabyBear) := by
  have e : ∀ i < 16, f (l * 16 + i) = ofBool ((limb x l).testBit i) := by
    intro i hi
    rw [h _ (by omega), limb_testBit, decide_eq_true hi, Bool.true_and]
  rw [FieldBits.pack_congr e, FieldBits.pack_testBit, Nat.mod_eq_of_lt (limb_lt x l)]

theorem pack_word {f : ℕ → BabyBear} {x : U64} (h : ∀ i < 64, f i = ofBool (x.getLsbD i)) :
    FieldBits.pack 64 f = bb x := by
  have e : ∀ i < 64, f i = ofBool (x.toNat.testBit i) := fun i hi => by rw [h i hi, BitVec.testBit_toNat]
  rw [FieldBits.pack_congr e, FieldBits.pack_testBit, Nat.mod_eq_of_lt x.isLt, bb]

/-- `pack_bits` is Horner's rule for the same sum. -/
theorem packBits_eq (row : RowView) (base : ℕ) : packBits row base = FieldBits.pack 64 fun i => row (base + i) := by
  have key : ∀ (n : ℕ) (acc : BabyBear),
      (List.range n).reverse.foldl (fun acc i => acc * 2 + row (base + i)) acc =
        acc * ((2 ^ n : ℕ) : BabyBear) + FieldBits.pack n fun i => row (base + i) := by
    intro n
    induction n with
    | zero => intro acc; simp [FieldBits.pack]
    | succ n ih =>
      intro acc
      rw [List.range_succ, List.reverse_append, List.reverse_singleton, List.singleton_append, List.foldl_cons,
        ih, FieldBits.pack_succ]
      push_cast
      ring
  rw [packBits, key, zero_mul, zero_add]

theorem packWordFromLimbs_eq {row : RowView} {word : ℕ} {x : U64} (h : WordAt row (limbCol word) x) :
    packWordFromLimbs row word = bb x := by
  rw [packWordFromLimbs, h 0 (by omega), h 1 (by omega), h 2 (by omega), h 3 (by omega), bb_eq_limbs]

/-- A Boolean decomposition that packs to the limb cells `col` holds exactly when those cells hold a
word and the bit cells its bits. -/
theorem wordBits_iff (row : RowView) (col : ℕ → ℕ) (base : ℕ) :
    ((∀ i < 64, IsBit (row (base + i))) ∧
      ∀ l < 4, row (col l) = FieldBits.pack 16 fun i => row (base + l * 16 + i)) ↔
      ∃ x, WordAt row col x ∧ BitsAt row base x := by
  have hassoc : ∀ l, (fun i => row (base + l * 16 + i)) = fun i => row (base + (l * 16 + i)) := fun l =>
    funext fun i => by rw [Nat.add_assoc]
  constructor
  · rintro ⟨hb, hp⟩
    obtain ⟨m, hm, hf⟩ := FieldBits.exists_testBit hb
    have hbits : BitsAt row base (BitVec.ofNat 64 m) := fun i hi => by
      rw [hf i hi, BitVec.getLsbD_ofNat, decide_eq_true hi, Bool.true_and]
    refine ⟨BitVec.ofNat 64 m, fun l hl => ?_, hbits⟩
    rw [hp l hl, hassoc l]
    exact pack_limb (f := fun i => row (base + i)) hbits hl
  · rintro ⟨x, hw, hbits⟩
    refine ⟨fun i hi => hbits i hi ▸ FieldBits.isBit_ofBool _, fun l hl => ?_⟩
    rw [hw l hl, hassoc l]
    exact (pack_limb (f := fun i => row (base + i)) hbits hl).symm

/-! ## The polynomials -/

theorem xor3Expr_ofBool (a b c : Bool) : xor3Expr (ofBool a) (ofBool b) (ofBool c) = ofBool (a ^^ b ^^ c) := by
  unfold xor3Expr xor2Expr
  rw [← FieldBits.ofBool_xor, ← FieldBits.ofBool_xor, Bool.xor_assoc]

/-- Bit `i` of a rotation. -/
theorem getLsbD_rotateRight (x : U64) {r i : ℕ} (hr : r < 64) (hi : i < 64) :
    (x.rotateRight r).getLsbD i = x.getLsbD ((i + r) % 64) := by
  rw [BitVec.getLsbD_rotateRight_of_lt hr]
  by_cases h : i < 64 - r
  · rw [decide_eq_true h, cond_true, Nat.mod_eq_of_lt (by omega), Nat.add_comm]
  · rw [decide_eq_false h, cond_false, decide_eq_true hi, Bool.true_and]
    congr 1; omega

section Bits

variable {row : RowView} {i : ℕ} (hi : i < 64)
include hi

theorem sigma0BitExpr_eq {a : U64} (ha : BitsAt row bitABase a) :
    sigma0BitExpr row i = ofBool ((bigSigma0 a).getLsbD i) := by
  unfold sigma0BitExpr bigSigma0
  rw [ha _ (Nat.mod_lt _ (by omega)), ha _ (Nat.mod_lt _ (by omega)), ha _ (Nat.mod_lt _ (by omega)),
    xor3Expr_ofBool, BitVec.getLsbD_xor, BitVec.getLsbD_xor, getLsbD_rotateRight a (by omega) hi,
    getLsbD_rotateRight a (by omega) hi, getLsbD_rotateRight a (by omega) hi, Bool.xor_assoc]

theorem sigma1BitExpr_eq {e : U64} (he : BitsAt row bitEBase e) :
    sigma1BitExpr row i = ofBool ((bigSigma1 e).getLsbD i) := by
  unfold sigma1BitExpr bigSigma1
  rw [he _ (Nat.mod_lt _ (by omega)), he _ (Nat.mod_lt _ (by omega)), he _ (Nat.mod_lt _ (by omega)),
    xor3Expr_ofBool, BitVec.getLsbD_xor, BitVec.getLsbD_xor, getLsbD_rotateRight e (by omega) hi,
    getLsbD_rotateRight e (by omega) hi, getLsbD_rotateRight e (by omega) hi, Bool.xor_assoc]

theorem chBitExpr_eq {e f g : U64} (he : BitsAt row bitEBase e) (hf : BitsAt row bitFBase f)
    (hg : BitsAt row bitGBase g) : chBitExpr row i = ofBool ((ch e f g).getLsbD i) := by
  unfold chBitExpr ch
  rw [he i hi, hf i hi, hg i hi, ← FieldBits.ofBool_ch]
  simp [hi]

theorem majBitExpr_eq {a b c : U64} (ha : BitsAt row bitABase a) (hb : BitsAt row bitBBase b)
    (hc : BitsAt row bitCBase c) : majBitExpr row i = ofBool ((maj a b c).getLsbD i) := by
  unfold majBitExpr maj
  rw [ha i hi, hb i hi, hc i hi, ← FieldBits.ofBool_maj]
  simp

/-- A shifted-in bit is zero, a rotated-in bit is not. -/
theorem smallSigma0Bit_eq {x : U64} (hx : BitsAt row lag14BitBase x) :
    smallSigma0Bit row i = ofBool ((smallSigma0 x).getLsbD i) := by
  have hshift : (if i + 7 < 64 then lagBitExpr row 14 (i + 7) else 0) = ofBool ((x >>> 7).getLsbD i) := by
    rw [BitVec.getLsbD_ushiftRight, Nat.add_comm 7 i]
    split
    · case isTrue h => exact hx _ h
    · case isFalse h => rw [BitVec.getLsbD_of_ge x _ (by omega)]; rfl
  have hrot : ∀ r, lagBitExpr row 14 ((i + r) % 64) = ofBool (x.getLsbD ((i + r) % 64)) := fun r =>
    hx _ (Nat.mod_lt _ (by omega))
  unfold smallSigma0Bit smallSigma0
  rw [hshift, hrot, hrot, xor3Expr_ofBool, BitVec.getLsbD_xor, BitVec.getLsbD_xor,
    getLsbD_rotateRight x (by omega) hi, getLsbD_rotateRight x (by omega) hi, Bool.xor_assoc]

theorem smallSigma1Bit_eq {x : U64} (hx : BitsAt row lag1BitBase x) :
    smallSigma1Bit row i = ofBool ((smallSigma1 x).getLsbD i) := by
  have hshift : (if i + 6 < 64 then lagBitExpr row 1 (i + 6) else 0) = ofBool ((x >>> 6).getLsbD i) := by
    rw [BitVec.getLsbD_ushiftRight, Nat.add_comm 6 i]
    split
    · case isTrue h => exact hx _ h
    · case isFalse h => rw [BitVec.getLsbD_of_ge x _ (by omega)]; rfl
  have hrot : ∀ r, lagBitExpr row 1 ((i + r) % 64) = ofBool (x.getLsbD ((i + r) % 64)) := fun r =>
    hx _ (Nat.mod_lt _ (by omega))
  unfold smallSigma1Bit smallSigma1
  rw [hshift, hrot, hrot, xor3Expr_ofBool, BitVec.getLsbD_xor, BitVec.getLsbD_xor,
    getLsbD_rotateRight x (by omega) hi, getLsbD_rotateRight x (by omega) hi, Bool.xor_assoc]

end Bits

theorem packLimbExpr_eq {f : ℕ → BabyBear} {x : U64} (h : ∀ i < 64, f i = ofBool (x.getLsbD i)) {l : ℕ} (hl : l < 4) :
    packLimbExpr f l = (limb x l : BabyBear) := by
  rw [packLimbExpr, packLe_eq, pack_limb h hl]

theorem packSmallSigma0Limb_eq {row : RowView} {x : U64} (hx : BitsAt row lag14BitBase x) {l : ℕ} (hl : l < 4) :
    packSmallSigma0Limb row l = (limb (smallSigma0 x) l : BabyBear) :=
  packLimbExpr_eq (fun _ hi => smallSigma0Bit_eq hi hx) hl

theorem packSmallSigma1Limb_eq {row : RowView} {x : U64} (hx : BitsAt row lag1BitBase x) {l : ℕ} (hl : l < 4) :
    packSmallSigma1Limb row l = (limb (smallSigma1 x) l : BabyBear) :=
  packLimbExpr_eq (fun _ hi => smallSigma1Bit_eq hi hx) hl

/-! ## No reduction -/

/-- `xor2_expr` over the integers. -/
def xor2Int (x y : ℤ) : ℤ := x + y - x * y * 2

/-- `xor3_expr` over the integers. -/
def xor3Int (x y z : ℤ) : ℤ := xor2Int (xor2Int x y) z

/-- The canonical representative of a cell. -/
def RowView.int (row : RowView) (c : ℕ) : ℤ := ((row c).val : ℤ)

theorem val_natCast_of_lt {n : ℕ} (h : n < babyBearPrime) : (n : BabyBear).val = n := ZMod.val_natCast_of_lt h

theorem limb_val (x : U64) (l : ℕ) : (limb x l : BabyBear).val = limb x l := val_natCast_of_lt (limb_lt_prime x l)

theorem ofBool_val (b : Bool) : (ofBool b : BabyBear).val = b.toNat := by
  rw [FieldBits.ofBool_eq_natCast]
  exact val_natCast_of_lt ((Bool.toNat_lt b).trans (by decide))

theorem BitsAt.int {row : RowView} {base : ℕ} {x : U64} (h : BitsAt row base x) {i : ℕ} (hi : i < 64) :
    row.int (base + i) = ((x.getLsbD i).toNat : ℤ) := by
  rw [RowView.int, h i hi, ofBool_val]

theorem xor3Int_toNat (a b c : Bool) : xor3Int a.toNat b.toNat c.toNat = ((a ^^ b ^^ c).toNat : ℤ) := by
  cases a <;> cases b <;> cases c <;> rfl

/-- A sum of at most sixteen weighted bits stays below the modulus. -/
theorem packLe_val {f : ℕ → BabyBear} {n : ℕ} (hn : n ≤ 16) (hf : ∀ i < n, IsBit (f i)) :
    (packLe n f).val = ∑ i ∈ Finset.range n, (f i).val * 2 ^ i := by
  have hbit : ∀ i < n, (f i).val < 2 := fun i hi => by
    obtain ⟨b, hb⟩ := (FieldBits.isBit_iff_exists _).1 (hf i hi)
    rw [hb, ofBool_val]
    exact Bool.toNat_lt b
  have hlt : ∑ i ∈ Finset.range n, (f i).val * 2 ^ i < babyBearPrime := by
    have hpow : 2 ^ n ≤ 2 ^ 16 := Nat.pow_le_pow_right (by omega) hn
    exact (Radix.value_lt hbit).trans_le (hpow.trans two_pow_16_le_prime)
  rw [packLe_eq, ← val_natCast_of_lt hlt, FieldBits.pack]
  push_cast
  simp only [ZMod.natCast_val, ZMod.cast_id', id_eq]

section Agree

variable {row : RowView} {a b c e f g l1 l14 : U64}

/-- The bits of the two big sigmas, computed without reduction. -/
theorem bigSigmaBit_int (ha : BitsAt row bitABase a) (he : BitsAt row bitEBase e) (i : ℕ) :
    ((sigma0BitExpr row i).val : ℤ) = xor3Int (row.int (bitABase + (i + 28) % 64))
      (row.int (bitABase + (i + 34) % 64)) (row.int (bitABase + (i + 39) % 64)) ∧
    ((sigma1BitExpr row i).val : ℤ) = xor3Int (row.int (bitEBase + (i + 14) % 64))
      (row.int (bitEBase + (i + 18) % 64)) (row.int (bitEBase + (i + 41) % 64)) := by
  have hmod : ∀ r, (i + r) % 64 < 64 := fun r => Nat.mod_lt _ (by omega)
  unfold sigma0BitExpr sigma1BitExpr
  constructor
  · rw [ha.int (hmod _), ha.int (hmod _), ha.int (hmod _), ha _ (hmod _), ha _ (hmod _), ha _ (hmod _),
      xor3Expr_ofBool, ofBool_val, xor3Int_toNat]
  · rw [he.int (hmod _), he.int (hmod _), he.int (hmod _), he _ (hmod _), he _ (hmod _), he _ (hmod _),
      xor3Expr_ofBool, ofBool_val, xor3Int_toNat]

theorem chMajBit_int (ha : BitsAt row bitABase a) (hb : BitsAt row bitBBase b) (hc : BitsAt row bitCBase c)
    (he : BitsAt row bitEBase e) (hf : BitsAt row bitFBase f) (hg : BitsAt row bitGBase g) {i : ℕ} (hi : i < 64) :
    ((chBitExpr row i).val : ℤ) = row.int (bitEBase + i) * row.int (bitFBase + i) +
      (1 - row.int (bitEBase + i)) * row.int (bitGBase + i) ∧
    ((majBitExpr row i).val : ℤ) = row.int (bitABase + i) * row.int (bitBBase + i) +
      row.int (bitABase + i) * row.int (bitCBase + i) + row.int (bitBBase + i) * row.int (bitCBase + i) -
      row.int (bitABase + i) * row.int (bitBBase + i) * row.int (bitCBase + i) * 2 := by
  have hch : ∀ e f g : Bool, (((e && f) ^^ (!e && g)).toNat : ℤ) =
      e.toNat * f.toNat + (1 - (e.toNat : ℤ)) * g.toNat := by decide
  have hmaj : ∀ a b c : Bool, (((a && b) ^^ (a && c) ^^ (b && c)).toNat : ℤ) =
      a.toNat * b.toNat + a.toNat * c.toNat + b.toNat * c.toNat - a.toNat * b.toNat * c.toNat * 2 := by decide
  rw [ha.int hi, hb.int hi, hc.int hi, he.int hi, hf.int hi, hg.int hi, ← hch, ← hmaj]
  unfold chBitExpr majBitExpr
  rw [ha i hi, hb i hi, hc i hi, he i hi, hf i hi, hg i hi, ← FieldBits.ofBool_ch, ← FieldBits.ofBool_maj,
    ofBool_val, ofBool_val]
  exact ⟨rfl, rfl⟩

/-- The bits of the two small sigmas, with a zero where the shift runs out of the word. -/
theorem smallSigmaBit_int (h1 : BitsAt row lag1BitBase l1) (h14 : BitsAt row lag14BitBase l14) (i : ℕ) :
    ((smallSigma0Bit row i).val : ℤ) = xor3Int (row.int (lag14BitBase + (i + 1) % 64))
      (row.int (lag14BitBase + (i + 8) % 64)) (if i + 7 < 64 then row.int (lag14BitBase + (i + 7)) else 0) ∧
    ((smallSigma1Bit row i).val : ℤ) = xor3Int (row.int (lag1BitBase + (i + 19) % 64))
      (row.int (lag1BitBase + (i + 61) % 64)) (if i + 6 < 64 then row.int (lag1BitBase + (i + 6)) else 0) := by
  have hmod : ∀ r, (i + r) % 64 < 64 := fun r => Nat.mod_lt _ (by omega)
  have key : ∀ {base : ℕ} {x : U64} (_ : BitsAt row base x) (r r' k : ℕ),
      ((xor3Expr (row (base + (i + r) % 64)) (row (base + (i + r') % 64))
        (if i + k < 64 then row (base + (i + k)) else 0)).val : ℤ) = xor3Int (row.int (base + (i + r) % 64))
          (row.int (base + (i + r') % 64)) (if i + k < 64 then row.int (base + (i + k)) else 0) := by
    intro base x hx r r' k
    rw [hx.int (hmod r), hx.int (hmod r'), hx _ (hmod r), hx _ (hmod r')]
    split
    · case isTrue h => rw [hx.int h, hx _ h, xor3Expr_ofBool, ofBool_val, xor3Int_toNat]
    · case isFalse h =>
      rw [← FieldBits.ofBool_false, xor3Expr_ofBool, ofBool_val, ← xor3Int_toNat]
      rfl
  exact ⟨key h14 1 8 7, key h1 19 61 6⟩

/-- The bit polynomials of `eval` agree with the word functions, limb by limb. Nothing is reduced
modulo `p`: each bit is the value of its polynomial over the integers at the cells' representatives,
and each accumulator is the integer sum of the weighted bits. -/
theorem bit_polynomials_agree (ha : BitsAt row bitABase a) (hb : BitsAt row bitBBase b) (hc : BitsAt row bitCBase c)
    (he : BitsAt row bitEBase e) (hf : BitsAt row bitFBase f) (hg : BitsAt row bitGBase g)
    (h1 : BitsAt row lag1BitBase l1) (h14 : BitsAt row lag14BitBase l14) :
    (∀ j < 4,
      (packLimbExpr (sigma0BitExpr row) j).val = ((u64ToLimbs (bigSigma0 a))[j]!).toNat ∧
      (packLimbExpr (sigma1BitExpr row) j).val = ((u64ToLimbs (bigSigma1 e))[j]!).toNat ∧
      (packLimbExpr (chBitExpr row) j).val = ((u64ToLimbs (ch e f g))[j]!).toNat ∧
      (packLimbExpr (majBitExpr row) j).val = ((u64ToLimbs (maj a b c))[j]!).toNat ∧
      (packSmallSigma0Limb row j).val = ((u64ToLimbs (smallSigma0 l14))[j]!).toNat ∧
      (packSmallSigma1Limb row j).val = ((u64ToLimbs (smallSigma1 l1))[j]!).toNat) ∧
    (∀ i < 64,
      ((sigma0BitExpr row i).val : ℤ) = xor3Int (row.int (bitABase + (i + 28) % 64))
        (row.int (bitABase + (i + 34) % 64)) (row.int (bitABase + (i + 39) % 64)) ∧
      ((sigma1BitExpr row i).val : ℤ) = xor3Int (row.int (bitEBase + (i + 14) % 64))
        (row.int (bitEBase + (i + 18) % 64)) (row.int (bitEBase + (i + 41) % 64)) ∧
      ((chBitExpr row i).val : ℤ) = row.int (bitEBase + i) * row.int (bitFBase + i) +
        (1 - row.int (bitEBase + i)) * row.int (bitGBase + i) ∧
      ((majBitExpr row i).val : ℤ) = row.int (bitABase + i) * row.int (bitBBase + i) +
        row.int (bitABase + i) * row.int (bitCBase + i) + row.int (bitBBase + i) * row.int (bitCBase + i) -
        row.int (bitABase + i) * row.int (bitBBase + i) * row.int (bitCBase + i) * 2 ∧
      ((smallSigma0Bit row i).val : ℤ) = xor3Int (row.int (lag14BitBase + (i + 1) % 64))
        (row.int (lag14BitBase + (i + 8) % 64)) (if i + 7 < 64 then row.int (lag14BitBase + (i + 7)) else 0) ∧
      ((smallSigma1Bit row i).val : ℤ) = xor3Int (row.int (lag1BitBase + (i + 19) % 64))
        (row.int (lag1BitBase + (i + 61) % 64)) (if i + 6 < 64 then row.int (lag1BitBase + (i + 6)) else 0)) ∧
    ∀ bit ∈ [sigma0BitExpr row, sigma1BitExpr row, chBitExpr row, majBitExpr row, smallSigma0Bit row,
      smallSigma1Bit row], ∀ j < 4, ∀ n ≤ 16, (packLe n fun i => bit (j * 16 + i)).val =
        ∑ i ∈ Finset.range n, (bit (j * 16 + i)).val * 2 ^ i := by
  have hsigma0 := fun i (hi : i < 64) => sigma0BitExpr_eq hi ha
  have hsigma1 := fun i (hi : i < 64) => sigma1BitExpr_eq hi he
  have hch := fun i (hi : i < 64) => chBitExpr_eq hi he hf hg
  have hmaj := fun i (hi : i < 64) => majBitExpr_eq hi ha hb hc
  have hsmall0 := fun i (hi : i < 64) => smallSigma0Bit_eq hi h14
  have hsmall1 := fun i (hi : i < 64) => smallSigma1Bit_eq hi h1
  refine ⟨fun j hj => ?_, fun i hi => ?_, ?_⟩
  · rw [packLimbExpr_eq hsigma0 hj, packLimbExpr_eq hsigma1 hj, packLimbExpr_eq hch hj, packLimbExpr_eq hmaj hj,
      packSmallSigma0Limb_eq h14 hj, packSmallSigma1Limb_eq h1 hj]
    simp only [limb_val, u64ToLimbs_toNat _ hj, and_self]
  · obtain ⟨i1, i2⟩ := bigSigmaBit_int ha he i
    obtain ⟨i3, i4⟩ := chMajBit_int ha hb hc he hf hg hi
    obtain ⟨i5, i6⟩ := smallSigmaBit_int h1 h14 i
    exact ⟨i1, i2, i3, i4, i5, i6⟩
  · have hsum : ∀ {bit : ℕ → BabyBear} {x : U64}, (∀ i < 64, bit i = ofBool (x.getLsbD i)) → ∀ j < 4, ∀ n ≤ 16,
        (packLe n fun i => bit (j * 16 + i)).val = ∑ i ∈ Finset.range n, (bit (j * 16 + i)).val * 2 ^ i :=
      fun hbit j hj n hn => packLe_val hn fun i hi => hbit (j * 16 + i) (by omega) ▸ FieldBits.isBit_ofBool _
    simp only [List.forall_mem_cons, List.not_mem_nil, false_implies, implies_true, and_true]
    exact ⟨hsum hsigma0, hsum hsigma1, hsum hch, hsum hmaj, hsum hsmall0, hsum hsmall1⟩

end Agree

/-- A row with the bits of one word in all eight places. -/
def wordRow (x : U64) : RowView := fun c => ofBool (x.getLsbD ((c - bitABase) % 64))

theorem wordRow_bitsAt (x : U64) (k : ℕ) : BitsAt (wordRow x) (bitABase + 64 * k) x := fun i hi => by
  rw [wordRow, show (bitABase + 64 * k + i - bitABase) % 64 = i by omega]

theorem bit_polynomials_agree_wordRow :
    (packLimbExpr (sigma0BitExpr (wordRow 0x0123456789abcdef)) 0).val =
      ((u64ToLimbs (bigSigma0 0x0123456789abcdef))[0]!).toNat :=
  have h := wordRow_bitsAt 0x0123456789abcdef
  ((bit_polynomials_agree (h 0) (h 1) (h 2) (h 3) (h 4) (h 5) (h 6) (h 7)).1 0 (by omega)).1

end Sha512Circuit
