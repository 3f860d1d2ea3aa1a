/-
The honest matrices row by row: which words, delay line and carries each row of
`build_plonky3_air_trace` holds, for any recorded trace, and which cells the preprocessed matrix
holds.
-/
import Sha512Circuit.Air.RowSpec
import Sha512Circuit.Compress.Refine

namespace Sha512Circuit

open FieldBits (IsBit ofBool)

/-! ## Round rows -/

/-- The words of round row `i`. -/
def roundWords (s : State) (word constant : U64) (w : ℕ) : U64 :=
  let t1 := s.h + bigSigma1 s.e + ch s.e s.f s.g + constant + word
  let t2 := bigSigma0 s.a + maj s.a s.b s.c
  [s.a, s.b, s.c, s.d, s.e, s.f, s.g, s.h, word, constant, bigSigma0 s.a, bigSigma1 s.e, ch s.e s.f s.g,
    maj s.a s.b s.c, t1, t2].getD w 0

/-- The operands of the schedule addition of round row `i`; none in the first sixteen rounds. -/
def schedOps (words : Vector U64 80) (i : ℕ) : List U64 :=
  if i ≥ 16 then
    [smallSigma1 words[i - 2]!, words[i - 7]!, smallSigma0 words[i - 15]!, words[i - 16]!]
  else []

theorem schedOps_length (words : Vector U64 80) (i : ℕ) : (schedOps words i).length ≤ 4 := by
  unfold schedOps
  split <;> simp

/-- The stored schedule carries of round row `i`. -/
def schedCarriesOf (words : Vector U64 80) (i : ℕ) : Vector (BitVec 16) 4 :=
  if i ≥ 16 then
    (addWithCarries4 (smallSigma1 words[i - 2]!) words[i - 7]! (smallSigma0 words[i - 15]!) words[i - 16]!).2
  else Vector.replicate 4 0

theorem storesSched_schedCarriesOf (words : Vector U64 80) (i : ℕ) :
    StoresSched (schedOps words i) (schedCarriesOf words i) := by
  unfold schedOps schedCarriesOf
  split
  · exact fun l hl => fromU16_addWithCarries _ (by simp) (by simp) hl
  · exact storesSched_nil

/-- A round row before its last two helpers. -/
def roundBase (trace : BlockTrace) (lags : Vector U64 16) (i : ℕ) : Row :=
  let w := roundWords trace.roundStates[i]! trace.words[i]! K[i]!
  layCarries (setHelperBits (setLagSigmaBits (setLagWords
    (((List.range 16).map w).zipIdx.foldl (fun row v => setWordLimbs row v.2 v.1)
      (Vector.replicate airWidth 0)) lags) lags)) w (schedCarriesOf trace.words i)

theorem roundRow_eq (trace : BlockTrace) (lags : Vector U64 16) (i : ℕ) :
    roundRow trace lags i = setRangeBits (setCarryBits (roundBase trace lags i)) := rfl

/-- The delay line as a function of the lag. -/
def lagAt (lags : Vector U64 16) (k : ℕ) : U64 := lags[k]!

theorem bitWords_bounds : ∀ wb ∈ bitWords, wb.1 < 8 ∧ 148 ≤ wb.2 ∧ wb.2 + 64 ≤ 532 := by decide

/-- Words, delay line and bits laid in the order of the builder, before the carries. -/
theorem laid_of_words {row₀ : Row} {w : ℕ → U64} (lags : Vector U64 16)
    (hw : ∀ i < 16, WordAt row₀.cell (limbCol i) (w i)) :
    let row := setHelperBits (setLagSigmaBits (setLagWords row₀ lags) lags)
    (∀ i < 16, WordAt row.cell (limbCol i) (w i)) ∧ (∀ k < 16, WordAt row.cell (lagLimbCol k) (lagAt lags k)) ∧
      (∀ wb ∈ bitWords, BitsAt row.cell wb.2 (w wb.1)) ∧ BitsAt row.cell lag1BitBase (lagAt lags 1) ∧
      BitsAt row.cell lag14BitBase (lagAt lags 14) := by
  have h1 := lag1BitBase_eq
  have h14 := lag14BitBase_eq
  have hsig : ∀ i < 16, WordAt (setLagSigmaBits (setLagWords row₀ lags) lags).cell (limbCol i) (w i) := by
    intro i hi
    refine (hw i hi).of_eq fun l hl => ?_
    rw [limbCol_eq, setLagSigmaBits_frame _ _ (by omega), setLagWords_frame _ _ (by omega)]
  refine ⟨fun i hi => ?_, fun k hk => ?_, fun wb hwb => ?_, fun i hi => ?_, fun i hi => ?_⟩
  · refine (hsig i hi).of_eq fun l hl => setHelperBits_frame _ ?_
    rw [limbCol_eq]; omega
  · refine (setLagWords_wordAt row₀ lags hk).of_eq fun l hl => ?_
    rw [lagLimbCol_eq, setHelperBits_frame _ (by omega), setLagSigmaBits_frame _ _ (by omega)]
  · exact setHelperBits_bitsAt _ (fun i hi => hsig i (by omega)) hwb
  · rw [setHelperBits_frame _ (by omega)]
    exact (setLagSigmaBits_bitsAt _ lags).1 i hi
  · rw [setHelperBits_frame _ (by omega)]
    exact (setLagSigmaBits_bitsAt _ lags).2 i hi

/-- Round row `i` of any recorded trace holds the words, carries and bits of its state. -/
theorem roundRow_filled (trace : BlockTrace) (lags : Vector U64 16) (i : ℕ) :
    Filled (roundRow trace lags i).cell (roundWords trace.roundStates[i]! trace.words[i]! K[i]!) (lagAt lags)
      (rowCarry (roundWords trace.roundStates[i]! trace.words[i]! K[i]!) (schedOps trace.words i)) := by
  rw [roundRow_eq]
  refine Laid.filled ?_ (rowCarry_lt _ (schedOps_length trace.words i))
  unfold roundBase
  dsimp only
  generalize roundWords trace.roundStates[i]! trace.words[i]! K[i]! = w
  have hw : ∀ j < 16, WordAt (Row.cell (((List.range 16).map w).zipIdx.foldl
      (fun row v => setWordLimbs row v.2 v.1) (Vector.replicate airWidth 0))) (limbCol j) (w j) := by
    intro j hj
    have := setWords_wordAt ((List.range 16).map w) 0 (Vector.replicate airWidth 0) (by simp) j (by simpa using hj)
    rw [Nat.zero_add, List.getD_eq_getElem _ _ (by simpa using hj)] at this
    simpa using this
  obtain ⟨h1, h2, h3, h4, h5⟩ := laid_of_words lags hw
  have hframe : ∀ row : Row, ∀ c, ¬ IsCarryCol c → (layCarries row w (schedCarriesOf trace.words i)).cell c = row.cell c :=
    fun row c hc => layCarries_frame row w _ hc
  have l1 := lag1BitBase_eq
  have l14 := lag14BitBase_eq
  constructor
  · intro j hj
    refine (h1 j hj).of_eq fun l hl => hframe _ _ ?_
    rw [limbCol_eq]; unfold IsCarryCol; omega
  · intro k hk
    refine (h2 k hk).of_eq fun l hl => hframe _ _ ?_
    rw [lagLimbCol_eq]; unfold IsCarryCol; omega
  · intro wb hwb j hj
    have := bitWords_bounds wb hwb
    rw [hframe _ _ (by unfold IsCarryCol; omega)]
    exact h3 wb hwb j hj
  · intro j hj
    rw [hframe _ _ (by unfold IsCarryCol; omega)]
    exact h4 j hj
  · intro j hj
    rw [hframe _ _ (by unfold IsCarryCol; omega)]
    exact h5 j hj
  · exact fun c hc => layCarries_cell _ w (storesSched_schedCarriesOf trace.words i) hc

/-! ## Rows from 80 on -/

/-- The words of a row from 80 on: the state and, unless it is the last row, `T1 = H`. -/
def paddingWords (s : State) (seed : Bool) (w : ℕ) : U64 :=
  [s.a, s.b, s.c, s.d, s.e, s.f, s.g, s.h, 0, 0, 0, 0, 0, 0, if seed then s.h else 0, 0].getD w 0

/-- The state and delay line of such a row, before the padding helpers. -/
def stateBase (s : State) (lags : Vector U64 16) : Row :=
  setHelperBits (setLagSigmaBits (setLagWords
    (s.toList.zipIdx.foldl (fun row v => setWordLimbs row v.2 v.1) (Vector.replicate airWidth 0)) lags) lags)

theorem stateRow_eq (s : State) (lags : Vector U64 16) (seed : Bool) :
    stateRow s lags seed = setRangeBits (setCarryBits
      (if seed then seedPaddingHelpers (stateBase s lags) else stateBase s lags)) := rfl

theorem stateBase_laid (s : State) (lags : Vector U64 16) :
    Laid (stateBase s lags).cell (paddingWords s false) (lagAt lags) fun _ => 0 := by
  have hlen : s.toList.length = 8 := by simp
  have hw : ∀ i < 16, WordAt (Row.cell (s.toList.zipIdx.foldl (fun row v => setWordLimbs row v.2 v.1)
      (Vector.replicate airWidth 0))) (limbCol i) (paddingWords s false i) := by
    intro i hi
    by_cases h8 : i < 8
    · have := setWords_wordAt s.toList 0 (Vector.replicate airWidth 0) (by rw [hlen]; omega) i (by omega)
      rw [Nat.zero_add, List.getD_eq_getElem _ _ (by omega)] at this
      have e : s.toList[i] = paddingWords s false i := by
        rw [Vector.getElem_toList]
        interval_cases i <;> rfl
      rwa [e] at this
    · have e : paddingWords s false i = 0 := by
        interval_cases i <;> rfl
      intro l hl
      rw [e, limb_zero, Nat.cast_zero, setWords_frame _ _ _ (by rw [hlen, limbCol_eq]; omega), cell_replicate]
  obtain ⟨h1, h2, h3, h4, h5⟩ := laid_of_words lags hw
  refine ⟨h1, h2, h3, h4, h5, fun c hc => ?_⟩
  have hc : 64 ≤ c ∧ (c < 80 ∨ 144 ≤ c) ∧ c < 148 := by
    rcases hc with h | h <;> omega
  rw [Nat.cast_zero, stateBase, setHelperBits_frame _ (.inl hc.2.2), setLagSigmaBits_frame _ _ (by omega),
    setLagWords_frame _ _ hc.2.1, setWords_frame _ _ _ (by rw [hlen]; omega), cell_replicate]

/-- Words 8 to 15 of a padding row. -/
def seededWords (s : State) : List U64 := [0, 0, 0, 0, 0, 0, s.h, 0]

/-- The padding helpers as one word loop, the helper bits again and the carries of the new words. -/
theorem seedPaddingHelpers_eq {row : Row} {s : State} (h7 : decodeWordFromInline row 7 = s.h)
    (h3 : decodeWordFromInline row 3 = s.d) :
    seedPaddingHelpers row = layCarries (setHelperBits
      (((seededWords s).zipIdx 8).foldl (fun row v => setWordLimbs row v.2 v.1) row))
      (paddingWords s true) (Vector.replicate 4 0) := by
  unfold seedPaddingHelpers
  rw [h7, h3]
  rfl

theorem seedPaddingHelpers_laid (s : State) (lags : Vector U64 16) :
    Laid (seedPaddingHelpers (stateBase s lags)).cell (paddingWords s true) (lagAt lags)
      (rowCarry (paddingWords s true) []) := by
  have hbase := stateBase_laid s lags
  rw [seedPaddingHelpers_eq (s := s) (decodeWordFromInline_eq (hbase.words 7 (by omega)))
    (decodeWordFromInline_eq (hbase.words 3 (by omega)))]
  set row := ((seededWords s).zipIdx 8).foldl (fun row v => setWordLimbs row v.2 v.1) (stateBase s lags)
    with hrow
  have hframe : ∀ c, c < 32 ∨ 64 ≤ c → row.cell c = (stateBase s lags).cell c := fun c hc =>
    setWords_frame _ 8 _ (by simpa [seededWords] using hc)
  have hw : ∀ i < 16, WordAt row.cell (limbCol i) (paddingWords s true i) := by
    intro i hi
    -- the state words are those of the base row, the others are written by the helpers
    by_cases h8 : i < 8
    · have e : paddingWords s true i = paddingWords s false i := by interval_cases i <;> rfl
      rw [e]
      refine (hbase.words i hi).of_eq fun l hl => hframe _ ?_
      rw [limbCol_eq]; omega
    · have := setWords_wordAt (seededWords s) 8 (stateBase s lags) (by simp [seededWords]) (i - 8)
        (by simp [seededWords]; omega)
      rw [Nat.add_sub_cancel' (by omega)] at this
      have e : (seededWords s).getD (i - 8) 0 = paddingWords s true i := by
        interval_cases i <;> rfl
      rwa [e] at this
  have l1 := lag1BitBase_eq
  have l14 := lag14BitBase_eq
  have hout : ∀ c, ¬ IsCarryCol c → (c < 148 ∨ 532 ≤ c) → (layCarries (setHelperBits row) (paddingWords s true)
      (Vector.replicate 4 0)).cell c = row.cell c := fun c h1 h2 => by
    rw [layCarries_frame _ _ _ h1, setHelperBits_frame row h2]
  constructor
  · intro i hi
    refine (hw i hi).of_eq fun l hl => hout _ ?_ ?_
    · rw [limbCol_eq]; unfold IsCarryCol; omega
    · rw [limbCol_eq]; omega
  · intro k hk
    refine (hbase.lags k hk).of_eq fun l hl => ?_
    rw [lagLimbCol_eq, hout _ (by unfold IsCarryCol; omega) (by omega), hframe _ (by omega)]
  · intro wb hwb i hi
    have := bitWords_bounds wb hwb
    rw [layCarries_frame _ _ _ (by unfold IsCarryCol; omega)]
    exact setHelperBits_bitsAt row (fun i hi => hw i (by omega)) hwb i hi
  · intro i hi
    rw [hout _ (by unfold IsCarryCol; omega) (by omega), hframe _ (by omega)]
    exact hbase.lag1 i hi
  · intro i hi
    rw [hout _ (by unfold IsCarryCol; omega) (by omega), hframe _ (by omega)]
    exact hbase.lag14 i hi
  · exact fun c hc => layCarries_cell _ _ storesSched_nil hc

theorem stateRow_filled (s : State) (lags : Vector U64 16) :
    Filled (stateRow s lags true).cell (paddingWords s true) (lagAt lags) (rowCarry (paddingWords s true) []) := by
  rw [stateRow_eq, if_pos rfl]
  exact (seedPaddingHelpers_laid s lags).filled (rowCarry_lt _ (by simp))

theorem lastRow_filled (s : State) (lags : Vector U64 16) :
    Filled (stateRow s lags false).cell (paddingWords s false) (lagAt lags) fun _ => 0 := by
  rw [stateRow_eq, if_neg Bool.false_ne_true]
  exact (stateBase_laid s lags).filled fun _ => by rw [babyBearPrime_eq]; norm_num

/-! ## Matrices of rows -/

section OfRows

variable (rows : List Row)

theorem ofRows_size : (RowMajorMatrix.ofRows rows).values.size = rows.length * airWidth :=
  Bytes.length_flatMap_const fun x _ => x.length_toList

theorem ofRows_height : (RowMajorMatrix.ofRows rows).height = rows.length := by
  have hw : 0 < airWidth := by rw [airWidth_eq]; omega
  show (RowMajorMatrix.ofRows rows).values.size / airWidth = _
  rw [ofRows_size, Nat.mul_div_cancel _ hw]

theorem ofRows_rowSlice {r : ℕ} (hr : r < rows.length) : (RowMajorMatrix.ofRows rows).rowSlice r = rows[r].toArray := by
  have h := Bytes.take_drop_flatMap (f := Vector.toList) (n := airWidth) rows (fun x _ => x.length_toList) r hr
  unfold RowMajorMatrix.rowSlice RowMajorMatrix.ofRows
  dsimp only
  rw [← Array.toList_inj, Array.toList_extract, List.extract_eq_take_drop, Nat.add_mul, Nat.one_mul,
    Nat.add_sub_cancel_left]
  exact h

theorem ofRows_rowView {r : ℕ} (hr : r < rows.length) : (RowMajorMatrix.ofRows rows).rowView r = rows[r].cell := by
  unfold RowMajorMatrix.rowView
  rw [ofRows_rowSlice rows hr]; rfl

theorem ofRows_range_height (n : ℕ) (row : ℕ → Row) : (RowMajorMatrix.ofRows ((List.range n).map row)).height = n := by
  rw [ofRows_height, List.length_map, List.length_range]

theorem ofRows_range_rowView {n r : ℕ} (row : ℕ → Row) (hr : r < n) :
    (RowMajorMatrix.ofRows ((List.range n).map row)).rowView r = (row r).cell := by
  have hr' : r < ((List.range n).map row).length := by rwa [List.length_map, List.length_range]
  rw [ofRows_rowView _ hr', List.getElem_map, List.getElem_range]

end OfRows

/-! ## The delay line -/

theorem advanceLags_loop : ∀ (n : ℕ) (lags : Vector U64 16), n < 16 → ∀ k < 16,
    ((List.range' 1 n).reverse.foldl (fun lags i => lags.set! i lags[i - 1]!) lags)[k]! =
      if 1 ≤ k ∧ k ≤ n then lags[k - 1]! else lags[k]!
  | 0, lags, _, k, _ => by
    rw [if_neg (by omega)]; rfl
  | n + 1, lags, hn, k, hk => by
    rw [List.range'_concat, List.reverse_append, List.reverse_singleton, List.singleton_append, List.foldl_cons,
      advanceLags_loop n _ (by omega) k hk, Nat.one_mul, Bytes.getElem!_set!, Bytes.getElem!_set!,
      Nat.add_sub_cancel_left]
    by_cases h1 : 1 ≤ k ∧ k ≤ n
    · rw [if_pos h1, if_neg (by omega), if_pos (by omega)]
    · rw [if_neg h1]
      by_cases h2 : 1 + n = k
      · subst h2
        rw [if_pos (by omega), if_pos (by omega), Nat.add_sub_cancel_left]
      · rw [if_neg (by omega), if_neg (by omega)]

/-- `advance_lags` shifts the delay line by one word. -/
theorem advanceLags_getElem! (lags : Vector U64 16) (word : U64) {k : ℕ} (hk : k < 16) :
    (advanceLags lags word)[k]! = if k = 0 then word else lags[k - 1]! := by
  unfold advanceLags
  dsimp only
  rw [Bytes.getElem!_set!, advanceLags_loop (lagCount - 1) lags (by decide) k hk, lagCount_eq]
  by_cases h : k = 0
  · rw [if_pos (by omega), if_pos h]
  · rw [if_neg (by omega), if_pos (by omega), if_neg h]

/-- The delay line before row `r` of a trace with words `w`. -/
def lagsBefore (w : ℕ → U64) : ℕ → Vector U64 16
  | 0 => Vector.replicate 16 0
  | r + 1 => advanceLags (lagsBefore w r) (w r)

theorem lagsBefore_getElem! (w : ℕ → U64) (r : ℕ) {k : ℕ} (hk : k < 16) :
    (lagsBefore w r)[k]! = if k < r then w (r - 1 - k) else 0 := by
  induction r generalizing k with
  | zero =>
    rw [if_neg (Nat.not_lt_zero k), lagsBefore, getElem!_pos (Vector.replicate 16 (0 : U64)) k hk,
      Vector.getElem_replicate]
  | succ r ih =>
    rw [lagsBefore, advanceLags_getElem! _ _ hk]
    by_cases h : k = 0
    · subst h
      rw [if_pos rfl, if_pos (Nat.succ_pos r)]; rfl
    · rw [if_neg h, ih (by omega)]
      by_cases hkr : k - 1 < r
      · rw [if_pos hkr, if_pos (by omega)]
        congr 1; omega
      · rw [if_neg hkr, if_neg (by omega)]

/-! ## The main trace -/

/-- The `W` word of row `r`: the schedule in the rounds, zero after. -/
def traceWord (trace : BlockTrace) (r : ℕ) : U64 := if r < 80 then trace.words[r]! else 0

/-- The working state of row `80 + n`. -/
def padState (s : State) : ℕ → State
  | 0 => s
  | n + 1 => paddingNext (padState s n)

/-- Row `r` of the main trace. -/
def traceRow (trace : BlockTrace) (r : ℕ) : Row :=
  if r < 80 then roundRow trace (lagsBefore (traceWord trace) r) r
  else stateRow (padState trace.lastRoundState (r - 80)) (lagsBefore (traceWord trace) r) (r != 127)

theorem roundLoop_rows (trace : BlockTrace) :
    (List.range 80).foldl (fun (st : List Row × Vector U64 16) i =>
      (st.1 ++ [roundRow trace st.2 i], advanceLags st.2 trace.words[i]!)) ([], Vector.replicate 16 0) =
      ((List.range 80).map (traceRow trace), lagsBefore (traceWord trace) 80) := by
  refine Loop.foldl_range_inv (P := fun k (st : List Row × Vector U64 16) =>
    st = ((List.range k).map (traceRow trace), lagsBefore (traceWord trace) k)) 80 rfl ?_
  rintro k hk - rfl
  rw [List.range_succ, List.map_append, List.map_singleton, traceRow, if_pos hk, lagsBefore, traceWord, if_pos hk]

/-- `build_plonky3_air_trace` row by row. -/
theorem buildPlonky3AirTrace_eq (trace : BlockTrace) :
    buildPlonky3AirTrace trace = RowMajorMatrix.ofRows ((List.range 128).map (traceRow trace)) := by
  -- after `k` iterations of the second loop: rows below 81 + k, their delay line, and the state of row 80 + k
  have hpad := Loop.foldl_range'_inv
    (f := fun (st : List Row × Vector U64 16 × State) rowIdx =>
      let nextState := paddingNext st.2.2
      (st.1 ++ [stateRow nextState st.2.1 (rowIdx != traceRows - 1)], advanceLags st.2.1 0, nextState))
    (fun k (st : List Row × Vector U64 16 × State) =>
      st = ((List.range (81 + k)).map (traceRow trace), lagsBefore (traceWord trace) (81 + k),
        padState trace.lastRoundState k)) 81 47
    (s := ((List.range 80).map (traceRow trace) ++
        [stateRow trace.lastRoundState (lagsBefore (traceWord trace) 80) true],
      advanceLags (lagsBefore (traceWord trace) 80) 0, trace.lastRoundState)) ?_ ?_
  · unfold buildPlonky3AirTrace
    rw [roundLoop_rows]
    dsimp only at hpad ⊢
    rw [show traceRows - shaRoundsPlusInit = 47 from rfl, show shaRoundsPlusInit = 81 from rfl, hpad]
  · have h80 : traceRow trace 80 = stateRow trace.lastRoundState (lagsBefore (traceWord trace) 80) true :=
      if_neg (by omega)
    have hrows : (List.range 81).map (traceRow trace) = (List.range 80).map (traceRow trace) ++ [traceRow trace 80] := by
      rw [List.range_succ, List.map_append, List.map_singleton]
    have hlags : lagsBefore (traceWord trace) 81 = advanceLags (lagsBefore (traceWord trace) 80) 0 := by
      rw [lagsBefore, show traceWord trace 80 = 0 from if_neg (by omega)]
    show _ = ((List.range 81).map (traceRow trace), lagsBefore (traceWord trace) 81, trace.lastRoundState)
    rw [hrows, h80, hlags]
  · rintro k hk - rfl
    have h80 : ¬ 81 + k < 80 := by omega
    have hpadk : padState trace.lastRoundState (81 + k - 80) = paddingNext (padState trace.lastRoundState k) := by
      rw [show 81 + k - 80 = k + 1 by omega]; rfl
    rw [show 81 + (k + 1) = 81 + k + 1 from rfl, List.range_succ, List.map_append, List.map_singleton, traceRow,
      if_neg h80, lagsBefore, show traceWord trace (81 + k) = 0 from if_neg h80, hpadk]
    rfl

theorem airTrace_height (trace : BlockTrace) : (buildPlonky3AirTrace trace).height = 128 := by
  rw [buildPlonky3AirTrace_eq, ofRows_height]; simp

theorem airTrace_width (trace : BlockTrace) : (buildPlonky3AirTrace trace).width = airWidth := by
  rw [buildPlonky3AirTrace_eq]; rfl

theorem airTrace_rowView (trace : BlockTrace) {r : ℕ} (hr : r < 128) :
    (buildPlonky3AirTrace trace).rowView r = (traceRow trace r).cell := by
  have hr' : r < ((List.range 128).map (traceRow trace)).length := by simpa using hr
  rw [buildPlonky3AirTrace_eq, ofRows_rowView _ hr', List.getElem_map, List.getElem_range]

end Sha512Circuit
