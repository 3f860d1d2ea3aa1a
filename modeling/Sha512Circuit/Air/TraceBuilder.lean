/-
`air/trace_builder.rs`: the helpers that fill one row of the main trace.
-/
import Sha512Circuit.Air.Constraints
import Sha512Circuit.Compress.Model

namespace Sha512Circuit

/-! ## Rows -/

/-- `[BabyBear; AIR_WIDTH]`. -/
abbrev Row := Vector BabyBear airWidth

/-- A row read by column. -/
def Row.cell (row : Row) : RowView := fun c => row.toArray.getD c 0

/-- The loop `for i in 0..n { row[col(i)] = value(i) }`. -/
def fillRow (row : Row) (n : ℕ) (col : ℕ → ℕ) (value : ℕ → BabyBear) : Row :=
  (List.range n).foldl (fun row i => row.set! (col i) (value i)) row

/-- `BabyBear::from_u16`. -/
def fromU16 (x : BitVec 16) : BabyBear := (x.toNat : BabyBear)

/-- `BabyBear::from_bool`. -/
def fromBool (b : Bool) : BabyBear := if b then 1 else 0

/-! ## Limbs and additions -/

/-- `u64_to_limbs`. -/
def u64ToLimbs (value : U64) : Vector (BitVec 16) 4 :=
  #v[(value &&& 0xffff).truncate 16, ((value >>> 16) &&& 0xffff).truncate 16,
    ((value >>> 32) &&& 0xffff).truncate 16, ((value >>> 48) &&& 0xffff).truncate 16]

/-- `decode_word_from_inline`. -/
def decodeWordFromInline (row : Row) (word : ℕ) : U64 :=
  (List.range limbsPerWord).foldl
    (fun out limb => out ||| (BitVec.ofNat 64 (row.cell (limbCol word limb)).val <<< (16 * limb))) 0

/-- One limb of `add_with_carries_*`. The `u32` sum of at most five limbs and a carry does not
overflow. -/
def addWithCarriesStep (ops : List U64) (st : Vector (BitVec 16) 4 × Vector (BitVec 16) 4 × ℕ) (i : ℕ) :
    Vector (BitVec 16) 4 × Vector (BitVec 16) 4 × ℕ :=
  let ⟨out, carries, carry⟩ := st
  let sum := (ops.map fun op => (u64ToLimbs op)[i]!.toNat).sum + carry
  let carry := sum >>> 16
  (out.set! i (BitVec.ofNat 16 (sum &&& 0xffff)), carries.set! i (BitVec.ofNat 16 carry), carry)

/-- The common body of `add_with_carries_2`, `_4` and `_5`. -/
def addWithCarries (ops : List U64) : U64 × Vector (BitVec 16) 4 :=
  let ⟨out, carries, _⟩ :=
    (List.range limbsPerWord).foldl (addWithCarriesStep ops) (Vector.replicate 4 0, Vector.replicate 4 0, 0)
  ((out[0].zeroExtend 64) ||| (out[1].zeroExtend 64 <<< 16) ||| (out[2].zeroExtend 64 <<< 32) |||
    (out[3].zeroExtend 64 <<< 48), carries)

/-- `add_with_carries_5`. -/
def addWithCarries5 (a b c d e : U64) : U64 × Vector (BitVec 16) 4 := addWithCarries [a, b, c, d, e]

/-- `add_with_carries_2`. -/
def addWithCarries2 (a b : U64) : U64 × Vector (BitVec 16) 4 := addWithCarries [a, b]

/-- `add_with_carries_4`. -/
def addWithCarries4 (a b c d : U64) : U64 × Vector (BitVec 16) 4 := addWithCarries [a, b, c, d]

/-! ## Filling a row -/

/-- `set_word_limbs`. -/
def setWordLimbs (row : Row) (word : ℕ) (value : U64) : Row :=
  fillRow row 4 (limbCol word) fun i => fromU16 (u64ToLimbs value)[i]!

/-- `set_lag_words`. -/
def setLagWords (row : Row) (lags : Vector U64 16) : Row :=
  (List.range lagCount).foldl
    (fun row lag => fillRow row 4 (lagLimbCol lag) fun limb => fromU16 (u64ToLimbs lags[lag]!)[limb]!) row

/-- `set_carries`. -/
def setCarries (row : Row) (base : ℕ) (carries : Vector (BitVec 16) 4) : Row :=
  fillRow row 4 (base + ·) fun i => fromU16 carries[i]!

/-- `set_range_bits`. -/
def setRangeBits (row : Row) : Row :=
  (List.range rangeSources).foldl (fun row source =>
    let x := (row.cell (rangeSourceCol source)).val
    fillRow row rangeBitsPerSource (rangeBitCol source) fun bit => fromBool ((x >>> bit) &&& 1 == 1)) row

/-- The body shared by the two loops of `set_carry_bits`. -/
def setCarryBitsOf (row : Row) (carryCol : ℕ) : Row :=
  let x := (row.cell carryCol).val
  fillRow row (carryBitWidth carryCol) (carryBitCol carryCol) fun bit => fromBool ((x >>> bit) &&& 1 == 1)

/-- `set_carry_bits`. -/
def setCarryBits (row : Row) : Row :=
  let row := (List.range' carryT1Base (lagLimbBase - carryT1Base)).foldl setCarryBitsOf row
  (List.range' schedCarryBase (bitABase - schedCarryBase)).foldl setCarryBitsOf row

/-- `advance_lags`: the shift from the top down, then the new word. -/
def advanceLags (lags : Vector U64 16) (word : U64) : Vector U64 16 :=
  let lags := (List.range' 1 (lagCount - 1)).reverse.foldl (fun lags i => lags.set! i lags[i - 1]!) lags
  lags.set! 0 word

/-- The words whose bits are decomposed, with their bit columns. -/
def bitWords : List (ℕ × ℕ) :=
  [(wordA, bitABase), (wordB, bitBBase), (wordC, bitCBase), (wordE, bitEBase), (wordF, bitFBase),
    (wordG, bitGBase)]

/-- `set_helper_bits`. -/
def setHelperBits (row : Row) : Row :=
  bitWords.foldl (fun row wb =>
    let value := decodeWordFromInline row wb.1
    fillRow row 64 (wb.2 + ·) fun i => fromBool ((value >>> i) &&& 1 == 1)) row

/-- `set_lag_sigma_bits`. -/
def setLagSigmaBits (row : Row) (lags : Vector U64 16) : Row :=
  (List.range 64).foldl (fun row i =>
    (row.set! (lag1BitBase + i) (fromBool ((lags[1] >>> i) &&& 1 == 1))).set! (lag14BitBase + i)
      (fromBool ((lags[14] >>> i) &&& 1 == 1))) row

/-- `seed_padding_helpers`. -/
def seedPaddingHelpers (row : Row) : Row :=
  let h := decodeWordFromInline row 7
  let d := decodeWordFromInline row 3
  let t1 := h
  let t2 : U64 := 0
  let carryT1 := (addWithCarries5 h 0 0 0 0).2
  let carryT2 := (addWithCarries2 0 0).2
  let carryA := (addWithCarries2 t1 t2).2
  let carryE := (addWithCarries2 d t1).2
  let row := setWordLimbs row wordW 0
  let row := setWordLimbs row wordK 0
  let row := setWordLimbs row wordSigma0 0
  let row := setWordLimbs row wordSigma1 0
  let row := setWordLimbs row wordCh 0
  let row := setWordLimbs row wordMaj 0
  let row := setWordLimbs row wordT1 t1
  let row := setWordLimbs row wordT2 0
  let row := setHelperBits row
  let row := setCarries row carryT1Base carryT1
  let row := setCarries row carryT2Base carryT2
  let row := setCarries row carryABase carryA
  let row := setCarries row carryEBase carryE
  setCarries row schedCarryBase (Vector.replicate 4 0)

end Sha512Circuit
