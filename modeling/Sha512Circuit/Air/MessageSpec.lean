/-
The two matrices of a message: segment `j` carries the honest trace of block `j` from the chaining
value before it, the segments that fill up to a power of two are zero, and only the last real
segment has the final selector.
-/
import Sha512Circuit.Air.Windows
import Mathlib.NumberTheory.Padics.PadicVal.Basic

namespace Sha512Circuit

/-! ## Segments of a message -/

section Message

variable (s : State) (blocks : List Block)

/-- Block `j`. -/
def blockAt (j : ℕ) : Block := blocks.getD j (Vector.replicate 128 0)

/-- The recorded compression of block `j`. -/
def segTrace (j : ℕ) : BlockTrace := compressBlock (chainState s (blocks.take j)) (blockAt blocks j)

/-- The zero row of the dummy segments. -/
def zeroRow : Row := Vector.replicate airWidth 0

/-- Row `i` of the main matrix of a message. -/
def bundleMainRow (i : ℕ) : Row :=
  if i / 128 < blocks.length then traceRow (segTrace s blocks (i / 128)) (i % 128) else zeroRow

/-- The selector rewrite of a preprocessed row. -/
def rewriteSelectors (row : Row) (r : ℕ) (final : Bool) : Row :=
  ((row.set! prepBlockStartSelectorCol (fromBool (r == 0))).set! prepTransitionSelectorCol
    (fromBool (r + 1 < traceRows))).set! prepFinalSelectorCol (fromBool final)

/-- Row `i` of the preprocessed matrix of a message. -/
def bundlePrepRow (i : ℕ) : Row :=
  if i / 128 < blocks.length then
    rewriteSelectors (preprocessedRow (chainState s (blocks.take (i / 128)))
      (traceRow (segTrace s blocks (i / 128)) (i % 128)).cell (i % 128)) (i % 128)
      (i / 128 + 1 == blocks.length && i % 128 == 80)
  else zeroRow

theorem rowOfView_cell (row : Row) : rowOfView row.cell = row := by
  refine Vector.ext fun c hc => ?_
  rw [rowOfView, Vector.getElem_ofFn, Row.cell, Array.getD_eq_getD_getElem?,
    Array.getElem?_eq_getElem (by rw [Vector.size_toArray]; exact hc)]
  rfl

/-- The rows written so far: the first `m` of `f`, zero after. -/
def rowsUpTo (total : ℕ) (f : ℕ → Row) (m : ℕ) : List Row :=
  (List.range total).map fun i => if i < m then f i else zeroRow

theorem rowsUpTo_set (total : ℕ) (f : ℕ → Row) (m : ℕ) :
    (rowsUpTo total f m).set m (f m) = rowsUpTo total f (m + 1) := by
  unfold rowsUpTo
  refine List.ext_getElem (by simp) fun i h1 h2 => ?_
  rw [List.getElem_set]
  simp only [List.getElem_map, List.getElem_range]
  by_cases h : m = i
  · subst h
    rw [if_pos rfl, if_pos (Nat.lt_succ_self m)]
  · rw [if_neg h]
    by_cases hm : i < m
    · rw [if_pos hm, if_pos (by omega)]
    · rw [if_neg hm, if_neg (by omega)]

theorem rowsUpTo_zero (total : ℕ) (f : ℕ → Row) : rowsUpTo total f 0 = List.replicate total zeroRow := by
  unfold rowsUpTo
  simp [List.map_const']

/-- The row-copy loop of block `j`. -/
theorem bundleRow_loop (total : ℕ) {j : ℕ} (hj : j < blocks.length) (st : BundleState)
    (hm : st.mainRows = rowsUpTo total (bundleMainRow s blocks) (j * 128))
    (hp : st.prepRows = rowsUpTo total (bundlePrepRow s blocks) (j * 128)) :
    (List.range traceRows).foldl (bundleRow (buildPlonky3AirTrace (segTrace s blocks j))
      (buildPlonky3PreprocessedTraceFromInstance (chainState s (blocks.take j)) (blockAt blocks j)) j blocks.length) st =
      { st with
        mainRows := rowsUpTo total (bundleMainRow s blocks) ((j + 1) * 128)
        prepRows := rowsUpTo total (bundlePrepRow s blocks) ((j + 1) * 128) } := by
  have key := Loop.foldl_range_inv
    (f := bundleRow (buildPlonky3AirTrace (segTrace s blocks j))
      (buildPlonky3PreprocessedTraceFromInstance (chainState s (blocks.take j)) (blockAt blocks j)) j blocks.length)
    (fun k st' => st' = { st with
      mainRows := rowsUpTo total (bundleMainRow s blocks) (j * 128 + k)
      prepRows := rowsUpTo total (bundlePrepRow s blocks) (j * 128 + k) }) traceRows (s := st) ?_ ?_
  · rw [key, traceRows_eq, Nat.add_mul, Nat.one_mul]
  · rw [Nat.add_zero, ← hm, ← hp]
  · rintro r hr - rfl
    have hr : r < 128 := hr
    have hdiv : (j * 128 + r) / 128 = j := by omega
    have hmod : (j * 128 + r) % 128 = r := by omega
    have hmain : rowOfView ((buildPlonky3AirTrace (segTrace s blocks j)).rowView r) =
        bundleMainRow s blocks (j * 128 + r) := by
      rw [airTrace_rowView _ hr, rowOfView_cell, bundleMainRow, hdiv, hmod, if_pos hj]
    have hprep : rewriteSelectors (rowOfView ((buildPlonky3PreprocessedTraceFromInstance
        (chainState s (blocks.take j)) (blockAt blocks j)).rowView r)) r (j + 1 == blocks.length && r == 80) =
        bundlePrepRow s blocks (j * 128 + r) := by
      rw [prepTrace_rowView _ _ hr, rowOfView_cell, bundlePrepRow, hdiv, hmod, if_pos hj]
      rfl
    -- both matrices have their rows before `j * 128 + r` written and write that row next
    show BundleState.mk ((rowsUpTo total (bundleMainRow s blocks) (j * 128 + r)).set (j * 128 + r) (rowOfView _))
      ((rowsUpTo total (bundlePrepRow s blocks) (j * 128 + r)).set (j * 128 + r) (rewriteSelectors _ r _)) _ _ = _
    rw [hmain, hprep, rowsUpTo_set, rowsUpTo_set]
    rfl

/-- The state of the block loop after `k` blocks. -/
def bundleAfter (total k : ℕ) : BundleState :=
  { mainRows := rowsUpTo total (bundleMainRow s blocks) (k * 128)
    prepRows := rowsUpTo total (bundlePrepRow s blocks) (k * 128)
    state := chainState s (blocks.take k)
    finalPublicValues := if 0 < k ∧ k = blocks.length then publicValuesOf (segTrace s blocks (k - 1))
      else Vector.replicate 8 0 }

theorem bundleSegment_eq (n : ℕ) (st : BundleState) (block : Block) (seg : ℕ) :
    bundleSegment n st (block, seg) =
      let t := compressBlock st.state block
      let st' := (List.range traceRows).foldl (bundleRow (buildPlonky3AirTrace t)
        (buildPlonky3PreprocessedTraceFromInstance st.state block) seg n) st
      ⟨st'.mainRows, st'.prepRows, t.outputState,
        if seg + 1 = n then publicValuesOf t else st'.finalPublicValues⟩ := rfl

theorem bundle_loop (total : ℕ) :
    blocks.zipIdx.foldl (bundleSegment blocks.length) (bundleAfter s blocks total 0) =
      bundleAfter s blocks total blocks.length := by
  refine Loop.foldl_zipIdx_inv (P := fun k st => st = bundleAfter s blocks total k) blocks rfl ?_
  rintro k hk - rfl
  have hblock : blocks[k] = blockAt blocks k := by rw [blockAt, List.getD_eq_getElem _ _ hk]
  have hloop := bundleRow_loop s blocks total hk (bundleAfter s blocks total k) rfl rfl
  have hchain : (segTrace s blocks k).outputState = chainState s (blocks.take (k + 1)) := by
    rw [chainState_take_succ s blocks k hk, segTrace, hblock]
  have hpub : (if k + 1 = blocks.length then publicValuesOf (segTrace s blocks k)
      else (bundleAfter s blocks total k).finalPublicValues) = (bundleAfter s blocks total (k + 1)).finalPublicValues := by
    unfold bundleAfter
    by_cases h : k + 1 = blocks.length
    · rw [if_pos h, if_pos ⟨Nat.succ_pos k, h⟩]; rfl
    · rw [if_neg h, if_neg (by omega), if_neg (by omega)]
  have hstate : (bundleAfter s blocks total k).state = chainState s (blocks.take k) := rfl
  have htrace : compressBlock (chainState s (blocks.take k)) (blockAt blocks k) = segTrace s blocks k := rfl
  rw [bundleSegment_eq]
  dsimp only
  rw [hblock, hstate, htrace, hloop, hchain, hpub]
  rfl

/-- The rewritten preprocessed row of a real segment. -/
theorem bundlePrepRow_prepAt {j r : ℕ} (hj : j < blocks.length) (hr : r < 128) :
    PrepAt (bundlePrepRow s blocks (j * 128 + r)).cell (chainState s (blocks.take j)) (traceWord (segTrace s blocks j))
      r (j + 1 == blocks.length && r == 80) := by
  have hdiv : (j * 128 + r) / 128 = j := by omega
  have hmod : (j * 128 + r) % 128 = r := by omega
  have h1 := prepBlockStartSelectorCol_eq
  have h2 := prepTransitionSelectorCol_eq
  have h3 := prepRoundSelectorCol_eq
  have h4 := prepInitWSelectorCol_eq
  have h5 := prepFinalSelectorCol_eq
  have hw := airWidth_eq
  have hrow := preprocessedRow_prepAt (s := chainState s (blocks.take j)) (traceRow_word (segTrace s blocks j) r).1
    (traceRow_word (segTrace s blocks j) r).2
  rw [bundlePrepRow, hdiv, hmod, if_pos hj]
  generalize preprocessedRow _ _ r = row at hrow ⊢
  -- the rewrite leaves the instance data and the two round selectors alone
  have hout : ∀ c, c < 1071 ∨ 1073 ≤ c ∧ c < 1075 →
      (rewriteSelectors row r (j + 1 == blocks.length && r == 80)).cell c = row.cell c := fun c hc => by
    unfold rewriteSelectors
    rw [cell_set!_ne _ _ (by omega), cell_set!_ne _ _ (by omega), cell_set!_ne _ _ (by omega)]
  constructor
  · exact fun i hi => (hrow.state i hi).of_eq fun l hl => hout _ (.inl (by rw [limbCol_eq]; omega))
  · exact fun h => (hrow.constant h).of_eq fun l hl => hout _ (.inl (by rw [limbCol_eq, wordK]; omega))
  · exact hrow.word.of_eq fun l hl => hout _ (.inl (by rw [limbCol_eq, wordW]; omega))
  · unfold rewriteSelectors
    rw [cell_set!_ne _ _ (by omega), cell_set!_ne _ _ (by omega), cell_set!_self _ _ (by omega)]
  · unfold rewriteSelectors
    rw [cell_set!_ne _ _ (by omega), cell_set!_self _ _ (by omega)]
  · rw [hout _ (by omega)]
    exact hrow.round
  · rw [hout _ (by omega)]
    exact hrow.initW
  · unfold rewriteSelectors
    rw [cell_set!_self _ _ (by omega)]

end Message

/-! ## The bundle -/

section Bundle

variable (s : State) (message : List U8)

/-- The number of rows of the matrices of a message. -/
def totalRows : ℕ := nextPowerOfTwo (paddedBlocks message).length * traceRows

theorem rowsUpTo_full (blocks : List Block) (total : ℕ) {f : ℕ → Row} (hf : ∀ i, ¬ i / 128 < blocks.length → f i = zeroRow) :
    rowsUpTo total f (blocks.length * 128) = (List.range total).map f := by
  unfold rowsUpTo
  refine List.map_congr_left fun i _ => ?_
  split
  · rfl
  · rw [hf i (by omega)]

/-- `build_message_air_bundle`, component by component. -/
theorem buildMessageAirBundle_eq :
    buildMessageAirBundle s message =
      { main := .ofRows ((List.range (totalRows message)).map (bundleMainRow s (paddedBlocks message)))
        preprocessed := .ofRows ((List.range (totalRows message)).map (bundlePrepRow s (paddedBlocks message)))
        finalState := chainState s (paddedBlocks message)
        finalPublicValues := publicValuesOf (segTrace s (paddedBlocks message) ((paddedBlocks message).length - 1))
        degreeBits := trailingZeros (totalRows message) } := by
  have hpos := paddedBlocks_length_pos message
  have hinit : bundleAfter s (paddedBlocks message) (totalRows message) 0 =
      { mainRows := List.replicate (totalRows message) (Vector.replicate airWidth 0)
        prepRows := List.replicate (totalRows message) (Vector.replicate airWidth 0)
        state := s, finalPublicValues := Vector.replicate 8 0 } := by
    unfold bundleAfter
    rw [Nat.zero_mul, rowsUpTo_zero, rowsUpTo_zero, if_neg (by omega)]
    rfl
  have hloop := bundle_loop s (paddedBlocks message) (totalRows message)
  rw [hinit] at hloop
  unfold buildMessageAirBundle
  dsimp only
  rw [← totalRows, hloop]
  unfold bundleAfter
  dsimp only
  rw [rowsUpTo_full _ _ (show ∀ i, _ → bundleMainRow s (paddedBlocks message) i = zeroRow from fun i hi => if_neg hi),
    rowsUpTo_full _ _ (show ∀ i, _ → bundlePrepRow s (paddedBlocks message) i = zeroRow from fun i hi => if_neg hi),
    List.take_length, if_pos ⟨hpos, rfl⟩]

theorem bundle_main_width : (buildMessageAirBundle s message).main.width = airWidth := by
  rw [buildMessageAirBundle_eq]; rfl

theorem bundle_prep_width : (buildMessageAirBundle s message).preprocessed.width = airWidth := by
  rw [buildMessageAirBundle_eq]; rfl

theorem bundle_main_height : (buildMessageAirBundle s message).main.height = totalRows message := by
  rw [buildMessageAirBundle_eq, ofRows_height, List.length_map, List.length_range]

theorem bundle_prep_height : (buildMessageAirBundle s message).preprocessed.height = totalRows message := by
  rw [buildMessageAirBundle_eq, ofRows_height, List.length_map, List.length_range]

theorem bundle_prep_size : (buildMessageAirBundle s message).preprocessed.values.size = totalRows message * airWidth := by
  rw [buildMessageAirBundle_eq, ofRows_size, List.length_map, List.length_range]

theorem bundle_main_rowView {i : ℕ} (hi : i < totalRows message) :
    (buildMessageAirBundle s message).main.rowView i = (bundleMainRow s (paddedBlocks message) i).cell := by
  have hi' : i < ((List.range (totalRows message)).map (bundleMainRow s (paddedBlocks message))).length := by simpa using hi
  rw [buildMessageAirBundle_eq, ofRows_rowView _ hi', List.getElem_map, List.getElem_range]

theorem bundle_prep_rowView {i : ℕ} (hi : i < totalRows message) :
    (buildMessageAirBundle s message).preprocessed.rowView i = (bundlePrepRow s (paddedBlocks message) i).cell := by
  have hi' : i < ((List.range (totalRows message)).map (bundlePrepRow s (paddedBlocks message))).length := by simpa using hi
  rw [buildMessageAirBundle_eq, ofRows_rowView _ hi', List.getElem_map, List.getElem_range]

theorem bundle_finalState : (buildMessageAirBundle s message).finalState = chainState s (paddedBlocks message) := by
  rw [buildMessageAirBundle_eq]

theorem bundle_finalPublicValues : (buildMessageAirBundle s message).finalPublicValues =
    publicValuesOf (segTrace s (paddedBlocks message) ((paddedBlocks message).length - 1)) := by
  rw [buildMessageAirBundle_eq]

theorem bundle_degreeBits : (buildMessageAirBundle s message).degreeBits = trailingZeros (totalRows message) := by
  rw [buildMessageAirBundle_eq]

/-- Every real segment lies within the matrix. -/
theorem segment_le_totalRows {j : ℕ} (hj : j < (paddedBlocks message).length) : j * 128 + 128 ≤ totalRows message := by
  have h := Nat.le_pow_clog (b := 2) (by omega) (paddedBlocks message).length
  have h2 : (j + 1) * 128 ≤ nextPowerOfTwo (paddedBlocks message).length * 128 :=
    Nat.mul_le_mul_right 128 (le_trans hj h)
  rw [totalRows, traceRows_eq]
  omega

/-- Row `r` of block `j` in the honest main matrix. -/
theorem bundle_main_segment {j r : ℕ} (hj : j < (paddedBlocks message).length) (hr : r < 128) :
    (buildMessageAirBundle s message).main.rowView (j * 128 + r) =
      (traceRow (segTrace s (paddedBlocks message) j) r).cell := by
  have hle := segment_le_totalRows message hj
  rw [bundle_main_rowView s message (by omega), bundleMainRow, show (j * 128 + r) / 128 = j by omega,
    show (j * 128 + r) % 128 = r by omega, if_pos hj]

/-- Preprocessed rows of the `j`-th real segment of a message. -/
theorem bundle_prepAt {j r : ℕ} (hj : j < (paddedBlocks message).length) (hr : r < 128) :
    PrepAt ((buildMessageAirBundle s message).preprocessed.rowView (j * 128 + r))
      (chainState s ((paddedBlocks message).take j)) (traceWord (segTrace s (paddedBlocks message) j)) r
      (j + 1 == (paddedBlocks message).length && r == 80) := by
  have hle := segment_le_totalRows message hj
  rw [bundle_prep_rowView s message (by omega)]
  exact bundlePrepRow_prepAt s (paddedBlocks message) hj hr

/-- The rows after the real segments are zero in both matrices. -/
theorem bundle_dummy {i : ℕ} (hn : 128 * (paddedBlocks message).length ≤ i) (hi : i < totalRows message) :
    (buildMessageAirBundle s message).main.rowView i = zeroRow.cell ∧
      (buildMessageAirBundle s message).preprocessed.rowView i = zeroRow.cell := by
  have hj : ¬ i / 128 < (paddedBlocks message).length := by omega
  rw [bundle_main_rowView s message hi, bundle_prep_rowView s message hi, bundleMainRow, bundlePrepRow, if_neg hj,
    if_neg hj]
  exact ⟨rfl, rfl⟩

/-- The number of rows is a power of two, with exponent `degree_bits`. -/
theorem totalRows_eq : totalRows message = 2 ^ (Nat.clog 2 (paddedBlocks message).length + 7) := by
  rw [totalRows, nextPowerOfTwo, pow_add]; rfl

/-- It is the least power of two that fits the real segments. -/
theorem totalRows_le_pow {k : ℕ} (hk : 128 * (paddedBlocks message).length ≤ 2 ^ k) :
    totalRows message ≤ 2 ^ k := by
  have hpos := paddedBlocks_length_pos message
  have h7 : 7 ≤ k := by
    by_contra hlt
    have : 2 ^ k < 2 ^ 7 := Nat.pow_lt_pow_right (by omega) (by omega)
    omega
  have hle : (paddedBlocks message).length ≤ 2 ^ (k - 7) := by
    have e : 2 ^ k = 2 ^ (k - 7) * 128 := by
      rw [show (128 : ℕ) = 2 ^ 7 by norm_num, ← pow_add, Nat.sub_add_cancel h7]
    omega
  have := Nat.clog_le_of_le_pow hle
  rw [totalRows_eq]
  exact Nat.pow_le_pow_right (by omega) (by omega)

/-- There are no dummy segments exactly if the number of blocks is a power of two. -/
theorem totalRows_eq_iff :
    totalRows message = 128 * (paddedBlocks message).length ↔ ∃ k, (paddedBlocks message).length = 2 ^ k := by
  have hrows : totalRows message = nextPowerOfTwo (paddedBlocks message).length * 128 := rfl
  rw [hrows]
  constructor
  · exact fun h => ⟨Nat.clog 2 (paddedBlocks message).length, by rw [nextPowerOfTwo] at h; omega⟩
  · rintro ⟨k, hk⟩
    rw [nextPowerOfTwo, hk, Nat.clog_pow 2 k Nat.one_lt_two, Nat.mul_comm]

theorem trailingZeros_totalRows : trailingZeros (totalRows message) = Nat.clog 2 (paddedBlocks message).length + 7 := by
  rw [totalRows_eq, trailingZeros, padicValNat.prime_pow]

end Bundle

/-- 300 bytes are three blocks, in a matrix of four segments. -/
theorem paddedBlocks_length_threeBlocks : (paddedBlocks (List.replicate 300 0)).length = 3 := by
  rw [paddedBlocks_length, List.length_replicate]

theorem totalRows_threeBlocks : totalRows (List.replicate 300 0) = 4 * 128 := by
  rw [totalRows, paddedBlocks_length_threeBlocks, nextPowerOfTwo, show Nat.clog 2 3 = 2 by decide]
  rfl

/-- 200 bytes are two blocks, which fill their matrix. -/
theorem paddedBlocks_length_twoBlocks : (paddedBlocks (List.replicate 200 0)).length = 2 := by
  rw [paddedBlocks_length, List.length_replicate]

theorem totalRows_twoBlocks : totalRows (List.replicate 200 0) = (1 + 1) * 128 := by
  rw [totalRows, paddedBlocks_length_twoBlocks, nextPowerOfTwo, show Nat.clog 2 2 = 1 by decide]
  rfl

end Sha512Circuit
