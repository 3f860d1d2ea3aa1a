/-
What the row builders leave in a row. Each helper of `trace_builder.rs` writes one region of
columns and leaves the others alone, so a finished row holds the words, delay line, carries and
bits it was built from.
-/
import Sha512Circuit.Air.EvalSpec

namespace Sha512Circuit

open FieldBits (IsBit ofBool)

/-! ## Writing cells -/

theorem cell_set! (row : Row) (c : ℕ) (v : BabyBear) (d : ℕ) :
    Row.cell (row.set! c v) d = if c = d ∧ d < airWidth then v else row.cell d := by
  unfold Row.cell
  rw [Vector.set!_eq_setIfInBounds, Vector.toArray_setIfInBounds, Array.getD_eq_getD_getElem?,
    Array.getD_eq_getD_getElem?, Array.getElem?_setIfInBounds]
  have hsize : row.toArray.size = airWidth := row.size_toArray
  by_cases hcd : c = d
  · subst hcd
    by_cases hc : c < airWidth
    · rw [if_pos rfl, if_pos (by omega), if_pos ⟨rfl, hc⟩]; rfl
    · rw [if_pos rfl, if_neg (by omega), if_neg fun h => hc h.2, Array.getElem?_eq_none (by omega)]
  · rw [if_neg hcd, if_neg fun h => hcd h.1]

theorem cell_set!_self (row : Row) {c : ℕ} (v : BabyBear) (hc : c < airWidth) : Row.cell (row.set! c v) c = v := by
  rw [cell_set!, if_pos ⟨rfl, hc⟩]

theorem cell_set!_ne (row : Row) {c d : ℕ} (v : BabyBear) (h : c ≠ d) : Row.cell (row.set! c v) d = row.cell d := by
  rw [cell_set!, if_neg fun e => h e.1]

theorem cell_replicate (c : ℕ) : Row.cell (Vector.replicate airWidth 0) c = 0 := by
  unfold Row.cell
  rw [Array.getD_eq_getD_getElem?, Vector.toArray_replicate, Array.getElem?_replicate]
  split <;> rfl

/-- A loop over cells leaves the other cells alone. -/
theorem fillRow_frame (row : Row) {n : ℕ} {col : ℕ → ℕ} {value : ℕ → BabyBear} {c : ℕ} (h : ∀ i < n, col i ≠ c) :
    (fillRow row n col value).cell c = row.cell c := by
  exact Loop.foldl_frame Row.cell (W := fun i c => col i = c) (fun s i c hc => cell_set!_ne s _ hc) (List.range n) row c
    fun i hi => h i (List.mem_range.1 hi)

/-- A loop over distinct cells leaves each value in its cell. -/
theorem fillRow_cell (row : Row) {n : ℕ} {col : ℕ → ℕ} {value : ℕ → BabyBear}
    (hinj : ∀ i < n, ∀ j < n, col i = col j → i = j) (hcol : ∀ i < n, col i < airWidth) {i : ℕ} (hi : i < n) :
    (fillRow row n col value).cell (col i) = value i := by
  refine Loop.foldl_cell Row.cell (W := fun i c => col i = c) (R := fun _ => False) (v := fun i _ => value i)
    (fun s i c hc => cell_set!_ne s _ hc) (List.range n) row List.nodup_range ?_ (fun _ _ _ _ h => h) ?_ i
    (List.mem_range.2 hi) (col i) rfl
  · rintro i hi j hj c rfl h
    exact hinj i (List.mem_range.1 hi) j (List.mem_range.1 hj) h.symm
  · rintro s - i hi c rfl
    exact cell_set!_self s _ (hcol i (List.mem_range.1 hi))

/-! ## One helper at a time -/

theorem setWordLimbs_frame (row : Row) {w c : ℕ} {x : U64} (h : c < w * 4 ∨ w * 4 + 4 ≤ c) :
    (setWordLimbs row w x).cell c = row.cell c :=
  fillRow_frame row fun i hi => by rw [limbCol_eq]; omega

theorem setWordLimbs_wordAt (row : Row) {w : ℕ} (hw : w < 16) (x : U64) :
    WordAt (setWordLimbs row w x).cell (limbCol w) x := by
  intro l hl
  rw [← fromU16_u64ToLimbs x hl]
  refine fillRow_cell row (fun i _ j _ h => ?_) (fun i hi => ?_) hl
  · rw [limbCol_eq, limbCol_eq] at h; omega
  · rw [limbCol_eq, airWidth_eq]; omega

/-- A loop over consecutive words, from word `n` on. -/
theorem setWords_frame : ∀ (ws : List U64) (n : ℕ) (row : Row) {c : ℕ}, c < n * 4 ∨ (n + ws.length) * 4 ≤ c →
    ((ws.zipIdx n).foldl (fun row v => setWordLimbs row v.2 v.1) row).cell c = row.cell c
  | [], _, _, _, _ => rfl
  | x :: ws, n, row, c, h => by
    rw [List.length_cons] at h
    rw [List.zipIdx_cons, List.foldl_cons, setWords_frame ws (n + 1) _ (by omega), setWordLimbs_frame row (by omega)]

theorem setWords_wordAt : ∀ (ws : List U64) (n : ℕ) (row : Row), n + ws.length ≤ 16 → ∀ i < ws.length,
    WordAt ((ws.zipIdx n).foldl (fun row v => setWordLimbs row v.2 v.1) row).cell (limbCol (n + i)) (ws.getD i 0)
  | [], _, _, _, i, hi => absurd hi (Nat.not_lt_zero i)
  | x :: ws, n, row, h, i, hi => by
    rw [List.length_cons] at h hi
    rw [List.zipIdx_cons, List.foldl_cons]
    cases i with
    | zero =>
      refine (setWordLimbs_wordAt row (show n < 16 by omega) x).of_eq fun l hl => setWords_frame ws (n + 1) _ ?_
      rw [limbCol_eq]; omega
    | succ i =>
      have := setWords_wordAt ws (n + 1) (setWordLimbs row n x) (by omega) i (by omega)
      rwa [show n + 1 + i = n + (i + 1) by omega] at this

theorem setLagWords_frame (row : Row) (lags : Vector U64 16) {c : ℕ} (h : c < 80 ∨ 144 ≤ c) :
    (setLagWords row lags).cell c = row.cell c := by
  refine Loop.foldl_frame Row.cell (W := fun k c => 80 + k * 4 ≤ c ∧ c < 80 + k * 4 + 4)
    (fun s k c hc => fillRow_frame s fun i hi => ?_) (List.range lagCount) row c fun k hk => ?_
  · rw [lagLimbCol_eq]; omega
  · have := List.mem_range.1 hk
    rw [lagCount_eq] at this
    omega

theorem setLagWords_wordAt (row : Row) (lags : Vector U64 16) {k : ℕ} (hk : k < 16) :
    WordAt (setLagWords row lags).cell (lagLimbCol k) lags[k]! := by
  refine Loop.foldl_range_inv (P := fun n (row : Row) => ∀ k < n, WordAt row.cell (lagLimbCol k) lags[k]!) 16
    (fun j hj => absurd hj (Nat.not_lt_zero j)) (fun n hn row ih j hj l hl => ?_) k hk
  rcases Nat.lt_succ_iff_lt_or_eq.1 hj with hj | rfl
  · rw [← ih j hj l hl]
    refine fillRow_frame row fun i hi => ?_
    rw [lagLimbCol_eq, lagLimbCol_eq]; omega
  · rw [← fromU16_u64ToLimbs _ hl]
    refine fillRow_cell row (fun i _ j _ h => ?_) (fun i hi => ?_) hl
    · rw [lagLimbCol_eq, lagLimbCol_eq] at h; omega
    · rw [lagLimbCol_eq, airWidth_eq]; omega

theorem setCarries_frame (row : Row) {base c : ℕ} {carries : Vector (BitVec 16) 4} (h : c < base ∨ base + 4 ≤ c) :
    (setCarries row base carries).cell c = row.cell c :=
  fillRow_frame row fun i hi => show base + i ≠ c by omega

theorem setCarries_cell (row : Row) {base l : ℕ} (carries : Vector (BitVec 16) 4) (hb : base + 4 ≤ airWidth)
    (hl : l < 4) : (setCarries row base carries).cell (base + l) = fromU16 carries[l]! := by
  refine fillRow_cell row (fun i _ j _ h => ?_) (fun i hi => ?_) hl
  · exact Nat.add_left_cancel h
  · show base + i < airWidth; omega

theorem setLagSigmaBits_frame (row : Row) (lags : Vector U64 16) {c : ℕ} (h : c < 532 ∨ 660 ≤ c) :
    (setLagSigmaBits row lags).cell c = row.cell c := by
  refine Loop.foldl_frame Row.cell (W := fun i c => c = lag1BitBase + i ∨ c = lag14BitBase + i)
    (fun s i c hc => ?_) (List.range 64) row c fun i hi => ?_
  · rw [cell_set!_ne _ _ fun h => hc (.inr h.symm), cell_set!_ne _ _ fun h => hc (.inl h.symm)]
  · have := List.mem_range.1 hi
    rw [lag1BitBase_eq, lag14BitBase_eq]; omega

theorem setLagSigmaBits_bitsAt (row : Row) (lags : Vector U64 16) :
    BitsAt (setLagSigmaBits row lags).cell lag1BitBase lags[1]! ∧
    BitsAt (setLagSigmaBits row lags).cell lag14BitBase lags[14]! := by
  have key := Loop.foldl_range_inv
    (f := fun (row : Row) i => (row.set! (lag1BitBase + i) (fromBool ((lags[1] >>> i) &&& 1 == 1))).set!
      (lag14BitBase + i) (fromBool ((lags[14] >>> i) &&& 1 == 1)))
    (fun n row => ∀ i < n, row.cell (lag1BitBase + i) = ofBool (lags[1].getLsbD i) ∧
      row.cell (lag14BitBase + i) = ofBool (lags[14].getLsbD i)) 64 (s := row) ?_ ?_
  · exact ⟨fun i hi => (key i hi).1, fun i hi => (key i hi).2⟩
  · intro i hi; omega
  · intro n hn row ih i hi
    have h1 := lag1BitBase_eq
    have h14 := lag14BitBase_eq
    have hw := airWidth_eq
    rcases Nat.lt_succ_iff_lt_or_eq.1 hi with hi | rfl
    · rw [cell_set!_ne _ _ (by omega), cell_set!_ne _ _ (by omega), cell_set!_ne _ _ (by omega),
        cell_set!_ne _ _ (by omega)]
      exact ih i hi
    · rw [cell_set!_ne _ _ (by omega), cell_set!_self _ _ (by omega), cell_set!_self _ _ (by omega),
        fromBool_shift_word, fromBool_shift_word]
      exact ⟨rfl, rfl⟩

theorem setHelperBits_frame (row : Row) {c : ℕ} (h : c < 148 ∨ 532 ≤ c) : (setHelperBits row).cell c = row.cell c := by
  refine Loop.foldl_frame Row.cell (W := fun (wb : ℕ × ℕ) c => wb.2 ≤ c ∧ c < wb.2 + 64)
    (fun s wb c hc => fillRow_frame s fun i hi => show wb.2 + i ≠ c by omega) bitWords row c fun wb hwb => ?_
  fin_cases hwb <;> simp <;> omega

/-- The bits are read off the word cells, which the loop does not touch. -/
theorem setHelperBits_bitsAt (row : Row) {w : ℕ → U64} (hw : ∀ i < 8, WordAt row.cell (limbCol i) (w i))
    {wb : ℕ × ℕ} (hwb : wb ∈ bitWords) : BitsAt (setHelperBits row).cell wb.2 (w wb.1) := by
  have hbound : ∀ wb ∈ bitWords, wb.1 < 8 ∧ 148 ≤ wb.2 ∧ wb.2 + 64 ≤ 532 := by decide
  have hdisj : ∀ a ∈ bitWords, ∀ b ∈ bitWords, a = b ∨ a.2 + 64 ≤ b.2 ∨ b.2 + 64 ≤ a.2 := by decide
  intro i hi
  refine (Loop.foldl_cell Row.cell (W := fun (wb : ℕ × ℕ) c => wb.2 ≤ c ∧ c < wb.2 + 64) (R := fun c => c < 148)
    (v := fun wb c => ofBool ((w wb.1).getLsbD (c - wb.2)))
    (fun s wb c hc => fillRow_frame s fun i hi => show wb.2 + i ≠ c by omega) bitWords row (by decide)
    (fun a ha b hb c hac hbc => ?_) (fun a ha c hc => ?_) (fun s hs a ha c hc => ?_) wb hwb (wb.2 + i)
    (by omega)).trans ?_
  · rcases hdisj a ha b hb with h | h | h
    · exact h
    · omega
    · omega
  · have := hbound a ha
    omega
  -- the loop writes past column 148 only, so every word is still there when its turn comes
  · have hword : WordAt s.cell (limbCol a.1) (w a.1) := (hw a.1 (hbound a ha).1).of_eq fun l hl => hs _ (by
      have := hbound a ha
      rw [limbCol_eq]; omega)
    have hb := hbound a ha
    have hcell := @fillRow_cell s 64 (a.2 + ·) (fun i => fromBool ((w a.1 >>> i) &&& 1 == 1))
      (fun i _ j _ h => Nat.add_left_cancel h) (fun i hi => show a.2 + i < 1076 by omega) _
      (show c - a.2 < 64 by omega)
    rw [fromBool_shift_word, Nat.add_sub_cancel' hc.1] at hcell
    rw [← hcell, decodeWordFromInline_eq hword]
  · rw [Nat.add_sub_cancel_left]

/-! ## Carry bits and range bits -/

/-- The columns of the five carry lanes. -/
def IsCarryCol (c : ℕ) : Prop := (64 ≤ c ∧ c < 80) ∨ (144 ≤ c ∧ c < 148)

/-- The bit cells of the carry lanes: three a cell, then one, then two. -/
theorem carryBitCol_cases {c i : ℕ} (h : i < carryBitWidth c) :
    (64 ≤ c ∧ c < 68 ∧ i < 3 ∧ carryBitCol c i = 1044 + (c - 64) * 3 + i) ∨
    (68 ≤ c ∧ c < 80 ∧ i = 0 ∧ carryBitCol c i = 1056 + (c - 68)) ∨
    (144 ≤ c ∧ c < 148 ∧ i < 2 ∧ carryBitCol c i = 1068 + (c - 144) * 2 + i) := by
  have c1 := carryT1Base_eq
  have c2 := carryT2Base_eq
  have cA := carryABase_eq
  have cE := carryEBase_eq
  have cL := lagLimbBase_eq
  have cS := schedCarryBase_eq
  have cB := bitABase_eq
  have b1 : carryT1BitBase = 1044 := rfl
  have b2 : carryT2BitBase = 1056 := rfl
  have bA : carryABitBase = 1060 := rfl
  have bE : carryEBitBase = 1064 := rfl
  have bS : carrySchedBitBase = 1068 := rfl
  unfold carryBitWidth at h
  unfold carryBitCol
  by_cases h1 : carryT1Base ≤ c ∧ c < carryT2Base
  · rw [if_pos h1] at h ⊢
    omega
  · rw [if_neg h1] at h ⊢
    by_cases h2 : carryT2Base ≤ c ∧ c < lagLimbBase
    · rw [if_pos h2] at h
      split_ifs <;> omega
    · rw [if_neg h2] at h
      by_cases h3 : schedCarryBase ≤ c ∧ c < bitABase
      · rw [if_pos h3] at h
        rw [if_neg (by omega), if_neg (by omega), if_neg (by omega), if_pos h3]
        omega
      · rw [if_neg h3] at h
        omega

/-- Distinct carry bits have distinct cells, all of them past the range bits. -/
theorem carryBitCol_inj {c d i j : ℕ} (hi : i < carryBitWidth c) (hj : j < carryBitWidth d)
    (h : carryBitCol c i = carryBitCol d j) : c = d ∧ i = j := by
  have h1 := carryBitCol_cases hi
  have h2 := carryBitCol_cases hj
  omega

theorem carryBitCol_bounds {c i : ℕ} (h : i < carryBitWidth c) : 1044 ≤ carryBitCol c i ∧ carryBitCol c i < 1076 := by
  have := carryBitCol_cases h
  omega

/-- `set_carry_bits` as one loop over the carry columns. -/
theorem setCarryBits_eq (row : Row) :
    setCarryBits row = (List.range' 64 16 ++ List.range' 144 4).foldl setCarryBitsOf row := by
  rw [List.foldl_append]; rfl

theorem setCarryBitsOf_frame (row : Row) {col c : ℕ} (h : ¬ ∃ i < carryBitWidth col, carryBitCol col i = c) :
    (setCarryBitsOf row col).cell c = row.cell c :=
  fillRow_frame row fun i hi e => h ⟨i, hi, e⟩

theorem setCarryBits_frame (row : Row) {c : ℕ} (h : c < 1044) : (setCarryBits row).cell c = row.cell c := by
  rw [setCarryBits_eq]
  refine Loop.foldl_frame Row.cell (W := fun col c => ∃ i < carryBitWidth col, carryBitCol col i = c)
    (fun s col c hc => setCarryBitsOf_frame s hc) _ row c fun col _ => ?_
  rintro ⟨i, hi, rfl⟩
  have := carryBitCol_bounds hi
  omega

theorem setCarryBitsOf_cell (row : Row) {col i : ℕ} (hi : i < carryBitWidth col) :
    (setCarryBitsOf row col).cell (carryBitCol col i) = ofBool ((row.cell col).val.testBit i) := by
  rw [← fromBool_shift]
  exact fillRow_cell row (fun i hi j hj h => (carryBitCol_inj hi hj h).2) (fun i hi => (carryBitCol_bounds hi).2) hi

/-- The bits of a carry cell are read off the cell, which the loop does not touch. -/
theorem setCarryBits_carryAt (row : Row) {col c : ℕ} (hcol : IsCarryCol col) (hc : c < babyBearPrime)
    (hcell : row.cell col = (c : BabyBear)) : CarryAt (setCarryBits row).cell col c := by
  have hmem : ∀ col, col ∈ List.range' 64 16 ++ List.range' 144 4 ↔ IsCarryCol col := fun col => by
    rw [List.mem_append, List.mem_range'_1, List.mem_range'_1, IsCarryCol]
  have hlt : ∀ col, IsCarryCol col → col < 1044 := by
    rintro col (h | h) <;> omega
  refine ⟨(setCarryBits_frame row (hlt col hcol)).trans hcell, fun i hi => ?_⟩
  rw [setCarryBits_eq, ← ZMod.val_natCast_of_lt hc, ← hcell, ← setCarryBitsOf_cell row hi]
  refine Loop.foldl_cell Row.cell (W := fun col c => ∃ i < carryBitWidth col, carryBitCol col i = c)
    (R := fun c => c < 1044) (v := fun col c => (setCarryBitsOf row col).cell c)
    (fun s col c hc => setCarryBitsOf_frame s hc) _ row (by decide) ?_ ?_ ?_ col ((hmem col).2 hcol)
    (carryBitCol col i) ⟨i, hi, rfl⟩
  · rintro a - b - c ⟨i, hi, rfl⟩ ⟨j, hj, h⟩
    exact (carryBitCol_inj hi hj h.symm).1
  · rintro a - c ⟨i, hi, rfl⟩
    have := carryBitCol_bounds hi
    omega
  · rintro s hs a ha c ⟨i, hi, rfl⟩
    rw [setCarryBitsOf_cell s hi, setCarryBitsOf_cell row hi, hs a (hlt a ((hmem a).1 ha))]

/-- The body of the range-bit loop. -/
def setRangeBitsOf (row : Row) (source : ℕ) : Row :=
  fillRow row rangeBitsPerSource (rangeBitCol source) fun bit =>
    fromBool (((row.cell (rangeSourceCol source)).val >>> bit) &&& 1 == 1)

theorem setRangeBitsOf_frame (row : Row) {src c : ℕ} (h : ¬ (660 + src * 16 ≤ c ∧ c < 660 + src * 16 + 16)) :
    (setRangeBitsOf row src).cell c = row.cell c := by
  refine fillRow_frame row fun i hi => ?_
  rw [rangeBitsPerSource_eq] at hi
  rw [rangeBitCol_eq]; omega

theorem setRangeBitsOf_cell (row : Row) {src i : ℕ} (hs : src < 24) (hi : i < 16) :
    (setRangeBitsOf row src).cell (rangeBitCol src i) = ofBool ((row.cell (rangeSourceCol src)).val.testBit i) := by
  rw [← fromBool_shift]
  refine fillRow_cell row (fun i _ j _ h => ?_) (fun i hi => ?_) hi
  · rw [rangeBitCol_eq, rangeBitCol_eq] at h; omega
  · rw [rangeBitsPerSource_eq] at hi
    rw [rangeBitCol_eq, airWidth_eq]; omega

theorem setRangeBits_frame (row : Row) {c : ℕ} (h : c < 660 ∨ 1044 ≤ c) : (setRangeBits row).cell c = row.cell c := by
  refine Loop.foldl_frame Row.cell (f := setRangeBitsOf) (W := fun src c => 660 + src * 16 ≤ c ∧ c < 660 + src * 16 + 16)
    (fun s src c hc => setRangeBitsOf_frame s hc) (List.range rangeSources) row c fun src hsrc => ?_
  have := List.mem_range.1 hsrc
  rw [rangeSources_eq] at this
  omega

/-- The range bits of a source are read off its limb cell. -/
theorem setRangeBits_cell (row : Row) {k l n : ℕ} (hk : k < 6) (hl : l < 4) (hn : n < babyBearPrime)
    (hcell : row.cell (limbCol (rangedWords.getD k 0) l) = (n : BabyBear)) {i : ℕ} (hi : i < 16) :
    (setRangeBits row).cell (rangeBitCol (4 * k + l) i) = ofBool (n.testBit i) := by
  have hsrc : ∀ src < 24, rangeSourceCol src < 660 := by decide
  rw [← ZMod.val_natCast_of_lt hn, ← hcell, ← rangeSourceCol_eq hk hl, ← setRangeBitsOf_cell row (by omega) hi]
  refine Loop.foldl_cell Row.cell (f := setRangeBitsOf) (W := fun src c => 660 + src * 16 ≤ c ∧ c < 660 + src * 16 + 16)
    (R := fun c => c < 660) (v := fun src c => (setRangeBitsOf row src).cell c)
    (fun s src c hc => setRangeBitsOf_frame s hc) (List.range rangeSources) row List.nodup_range
    (fun a _ b _ c ha hb => by omega) (fun a _ c ha => by omega) (fun s hs a ha c hc => ?_) (4 * k + l)
    (List.mem_range.2 (show 4 * k + l < 24 by omega)) _ (by rw [rangeBitCol_eq]; omega)
  have ha : a < 24 := List.mem_range.1 ha
  obtain ⟨j, hj, rfl⟩ : ∃ j < 16, c = rangeBitCol a j := ⟨c - (660 + a * 16), by omega, by rw [rangeBitCol_eq]; omega⟩
  rw [setRangeBitsOf_cell s ha hj, setRangeBitsOf_cell row ha hj, hs _ (hsrc a ha)]

/-! ## Finished rows -/

/-- A row with its words, delay line, word bits and carry cells in place. -/
structure Laid (row : RowView) (w lag : ℕ → U64) (carry : ℕ → ℕ) : Prop where
  words : ∀ i < 16, WordAt row (limbCol i) (w i)
  lags : ∀ k < 16, WordAt row (lagLimbCol k) (lag k)
  bits : ∀ wb ∈ bitWords, BitsAt row wb.2 (w wb.1)
  lag1 : BitsAt row lag1BitBase (lag 1)
  lag14 : BitsAt row lag14BitBase (lag 14)
  carries : ∀ c, IsCarryCol c → row c = (carry c : BabyBear)

/-- A laid row with its carry bits and range bits. -/
structure Filled (row : RowView) (w lag : ℕ → U64) (carry : ℕ → ℕ) : Prop extends Laid row w lag carry where
  carryAt : ∀ c, IsCarryCol c → CarryAt row c (carry c)
  range : ∀ k < 6, ∀ l < 4, ∀ i < 16,
    row (rangeBitCol (4 * k + l) i) = ofBool ((limb (w (rangedWords.getD k 0)) l).testBit i)

/-- The two last helpers finish a laid row. -/
theorem Laid.filled {row : Row} {w lag : ℕ → U64} {carry : ℕ → ℕ} (h : Laid row.cell w lag carry)
    (hc : ∀ c, carry c < babyBearPrime) : Filled (setRangeBits (setCarryBits row)).cell w lag carry := by
  have hframe : ∀ c, c < 660 → (setRangeBits (setCarryBits row)).cell c = row.cell c := fun c hc => by
    rw [setRangeBits_frame _ (.inl hc), setCarryBits_frame row (by omega)]
  have hbits : ∀ wb ∈ bitWords, wb.2 + 64 ≤ 532 := by decide
  have hranged : ∀ k < 6, rangedWords.getD k 0 < 16 := by decide
  have h1 := lag1BitBase_eq
  have h14 := lag14BitBase_eq
  constructor
  · constructor
    · intro i hi
      refine (h.words i hi).of_eq fun l hl => hframe _ ?_
      rw [limbCol_eq]; omega
    · intro k hk
      refine (h.lags k hk).of_eq fun l hl => hframe _ ?_
      rw [lagLimbCol_eq]; omega
    · intro wb hwb i hi
      have := hbits wb hwb
      rw [hframe _ (by omega)]
      exact h.bits wb hwb i hi
    · intro i hi
      rw [hframe _ (by omega)]
      exact h.lag1 i hi
    · intro i hi
      rw [hframe _ (by omega)]
      exact h.lag14 i hi
    · intro c hcol
      rw [hframe _ (by rcases hcol with h | h <;> omega)]
      exact h.carries c hcol
  · intro c hcol
    obtain ⟨hcell, hf⟩ := setCarryBits_carryAt row hcol (hc c) (h.carries c hcol)
    refine ⟨?_, fun i hi => ?_⟩
    · rw [setRangeBits_frame _ (by rcases hcol with h | h <;> omega)]
      exact hcell
    · rw [setRangeBits_frame _ (.inr (carryBitCol_bounds hi).1)]
      exact hf i hi
  · intro k hk l hl i hi
    refine setRangeBits_cell _ hk hl (limb_lt_prime _ _) ?_ hi
    have := hranged k hk
    rw [setCarryBits_frame row (by rw [limbCol_eq]; omega)]
    exact h.words _ this l hl

/-- The carries of a row whose words are `w` and whose schedule word is the sum of `sched`. -/
def rowCarry (w : ℕ → U64) (sched : List U64) (c : ℕ) : ℕ :=
  if c < 68 then addCarry [w wordH, w wordSigma1, w wordCh, w wordK, w wordW] (c - 64)
  else if c < 72 then addCarry [w wordSigma0, w wordMaj] (c - 68)
  else if c < 76 then addCarry [w wordT1, w wordT2] (c - 72)
  else if c < 80 then addCarry [w wordD, w wordT1] (c - 76)
  else addCarry sched (c - 144)

theorem addCarry_nil (l : ℕ) : addCarry [] l = 0 := by
  unfold addCarry
  induction l with
  | zero => simp [Radix.carry, Radix.columns]
  | succ l ih =>
    rw [Radix.carry, ih]
    simp [Radix.columns]

theorem rowCarry_lt (w : ℕ → U64) {sched : List U64} (h : sched.length ≤ 4) (c : ℕ) :
    rowCarry w sched c < babyBearPrime := by
  have hp : 4 < babyBearPrime := by rw [babyBearPrime_eq]; norm_num
  have hops : ∀ ops : List U64, ops.length ≤ 5 → ∀ l, addCarry ops l ≤ 4 := by
    intro ops hlen l
    cases ops with
    | nil => rw [addCarry_nil]; omega
    | cons x ops =>
      have := addCarry_le (show (x :: ops).length = ops.length + 1 from rfl) l
      rw [List.length_cons] at hlen
      omega
  refine lt_of_le_of_lt ?_ hp
  unfold rowCarry
  split_ifs
  · exact hops _ (by simp) _
  · exact hops _ (by simp) _
  · exact hops _ (by simp) _
  · exact hops _ (by simp) _
  · exact hops _ (by omega) _

/-- The carries of the schedule addition as the builder stores them. -/
def StoresSched (sched : List U64) (carries : Vector (BitVec 16) 4) : Prop :=
  ∀ l < 4, fromU16 carries[l]! = (addCarry sched l : BabyBear)

theorem storesSched_nil : StoresSched [] (Vector.replicate 4 0) := by
  intro l hl
  rw [addCarry_nil]
  interval_cases l <;> rfl

/-- The five carry writes of a row. -/
def layCarries (row : Row) (w : ℕ → U64) (sched : Vector (BitVec 16) 4) : Row :=
  setCarries (setCarries (setCarries (setCarries (setCarries row
    carryT1Base (addWithCarries5 (w wordH) (w wordSigma1) (w wordCh) (w wordK) (w wordW)).2)
    carryT2Base (addWithCarries2 (w wordSigma0) (w wordMaj)).2)
    carryABase (addWithCarries2 (w wordT1) (w wordT2)).2)
    carryEBase (addWithCarries2 (w wordD) (w wordT1)).2)
    schedCarryBase sched

theorem layCarries_frame (row : Row) (w : ℕ → U64) (sched : Vector (BitVec 16) 4) {c : ℕ} (h : ¬ IsCarryCol c) :
    (layCarries row w sched).cell c = row.cell c := by
  unfold IsCarryCol at h
  unfold layCarries
  rw [carryT1Base_eq, carryT2Base_eq, carryABase_eq, carryEBase_eq, schedCarryBase_eq, setCarries_frame _ (by omega),
    setCarries_frame _ (by omega), setCarries_frame _ (by omega), setCarries_frame _ (by omega),
    setCarries_frame _ (by omega)]

theorem layCarries_cell (row : Row) (w : ℕ → U64) {sched : List U64} {carries : Vector (BitVec 16) 4}
    (hs : StoresSched sched carries) {c : ℕ} (h : IsCarryCol c) :
    (layCarries row w carries).cell c = (rowCarry w sched c : BabyBear) := by
  have hadd : ∀ ops : List U64, ops ≠ [] → ops.length ≤ 5 → ∀ (row : Row) (base : ℕ), base + 4 ≤ 1076 →
      ∀ c, base ≤ c → c < base + 4 →
        (setCarries row base (addWithCarries ops).2).cell c = (addCarry ops (c - base) : BabyBear) := by
    intro ops h0 hlen row base hb c h1 h2
    rw [← fromU16_addWithCarries ops h0 hlen (show c - base < 4 by omega), ← setCarries_cell row _ hb (by omega),
      Nat.add_sub_cancel' h1]
  unfold layCarries rowCarry
  -- each lane is written once, and the later writes are to other lanes
  rw [carryT1Base_eq, carryT2Base_eq, carryABase_eq, carryEBase_eq, schedCarryBase_eq]
  by_cases h1 : c < 68
  · rw [if_pos h1, setCarries_frame _ (by omega), setCarries_frame _ (by omega), setCarries_frame _ (by omega),
      setCarries_frame _ (by omega)]
    exact hadd _ (by simp) (by simp) row 64 (by omega) c (by unfold IsCarryCol at h; omega) h1
  · rw [if_neg h1]
    by_cases h2 : c < 72
    · rw [if_pos h2, setCarries_frame _ (by omega), setCarries_frame _ (by omega), setCarries_frame _ (by omega)]
      exact hadd _ (by simp) (by simp) _ 68 (by omega) c (by omega) h2
    · rw [if_neg h2]
      by_cases h3 : c < 76
      · rw [if_pos h3, setCarries_frame _ (by omega), setCarries_frame _ (by omega)]
        exact hadd _ (by simp) (by simp) _ 72 (by omega) c (by omega) h3
      · rw [if_neg h3]
        by_cases h4 : c < 80
        · rw [if_pos h4, setCarries_frame _ (by omega)]
          exact hadd _ (by simp) (by simp) _ 76 (by omega) c (by omega) h4
        · rw [if_neg h4]
          have hc : 144 ≤ c ∧ c < 148 := by unfold IsCarryCol at h; omega
          rw [← hs (c - 144) (by omega), ← setCarries_cell _ _ (show 144 + 4 ≤ 1076 by omega) (by omega),
            Nat.add_sub_cancel' hc.1]

end Sha512Circuit
