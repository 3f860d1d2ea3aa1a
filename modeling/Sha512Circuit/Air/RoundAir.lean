/-
`air.rs`: the constraints of `Sha512RoundAir::eval`, the row-by-row checker, and the builders of
the main and preprocessed matrices of one block and of a whole message.
-/
import Sha512Circuit.Air.TraceBuilder
import Mathlib.Data.Nat.Log
import Mathlib.NumberTheory.Padics.PadicVal.Defs

namespace Sha512Circuit

/-! ## Matrices -/

/-- `RowMajorMatrix<BabyBear>`. -/
structure RowMajorMatrix where
  values : Array BabyBear
  width : ℕ
deriving DecidableEq

namespace RowMajorMatrix

/-- `height`. -/
def height (m : RowMajorMatrix) : ℕ := m.values.size / m.width

/-- `row_slice`. -/
def rowSlice (m : RowMajorMatrix) (row : ℕ) : Array BabyBear :=
  m.values.extract (row * m.width) ((row + 1) * m.width)

/-- A row slice read by column. -/
def rowView (m : RowMajorMatrix) (row : ℕ) : RowView := fun c => (m.rowSlice row).getD c 0

/-- The matrix of a list of rows of the AIR width. -/
def ofRows (rows : List Row) : RowMajorMatrix := ⟨(rows.flatMap Vector.toList).toArray, airWidth⟩

end RowMajorMatrix

/-- `Sha512RoundAir`. -/
structure Sha512RoundAir where
  preprocessed : RowMajorMatrix

/-! ## The constraints -/

/-- What an `AirBuilder` shows `eval`: two main rows, two preprocessed rows, the public values and
the row flags. -/
structure AirWindow where
  loc : RowView
  next : RowView
  locPrep : RowView
  nextPrep : RowView
  publicValues : Vector BabyBear 8
  isFirst : BabyBear
  isLast : BabyBear
  isTransition : BabyBear

/-- `pack_word_from_limbs`. -/
def packWordFromLimbs (row : RowView) (word : ℕ) : BabyBear :=
  row (limbCol word 0) + row (limbCol word 1) * ((2 ^ 16 : ℕ) : BabyBear) +
    row (limbCol word 2) * ((2 ^ 32 : ℕ) : BabyBear) + row (limbCol word 3) * ((2 ^ 48 : ℕ) : BabyBear)

/-- `K` and `W[0..16]` bound limb by limb to the instance; `W` zero outside the rounds. -/
def evalInstance (loc prep : RowView) : Assertions :=
  forLimbs (fun limb => assertZero
    (prep prepRoundSelectorCol * (loc (limbCol wordK limb) - prep (limbCol wordK limb)))) ++
  forLimbs (fun limb => assertZero
    (prep prepInitWSelectorCol * (loc (limbCol wordW limb) - prep (limbCol wordW limb)))) ++
  forLimbs (fun limb => assertZero ((1 - prep prepRoundSelectorCol) * loc (limbCol wordW limb)))

/-- `A..H` bound to the instance on block-start rows. -/
def evalBlockStart (loc prep : RowView) : Assertions :=
  (List.range' wordA 8).flatMap fun word => forLimbs fun limb => assertZero
    (prep prepBlockStartSelectorCol * (loc (limbCol word limb) - prep (limbCol word limb)))

/-- The packed working state bound to the public values on the final row. -/
def evalPublic (loc prep : RowView) (publicValues : Vector BabyBear 8) : Assertions :=
  (List.range 8).flatMap fun i => assertZero
    (prep prepFinalSelectorCol * (publicValues.toArray.getD i 0 - packWordFromLimbs loc i))

/-- The Boolean decomposition of one word. -/
def evalBitWord (loc : RowView) (roundSel : BabyBear) (word base : ℕ) : Assertions :=
  (List.range 64).flatMap (fun bit => assertZero (roundSel * (loc (base + bit) * (1 - loc (base + bit))))) ++
  assertZero (roundSel * (packWordFromLimbs loc word - packBits loc base)) ++
  forLimbs fun limb => assertZero
    (roundSel * (loc (limbCol word limb) - packLe 16 fun bit => loc (base + limb * 16 + bit)))

/-- One bit of `Σ0(a)`. -/
def sigma0BitExpr (loc : RowView) (bitIdx : ℕ) : BabyBear :=
  xor3Expr (loc (bitABase + (bitIdx + 28) % 64)) (loc (bitABase + (bitIdx + 34) % 64))
    (loc (bitABase + (bitIdx + 39) % 64))

/-- One bit of `Σ1(e)`. -/
def sigma1BitExpr (loc : RowView) (bitIdx : ℕ) : BabyBear :=
  xor3Expr (loc (bitEBase + (bitIdx + 14) % 64)) (loc (bitEBase + (bitIdx + 18) % 64))
    (loc (bitEBase + (bitIdx + 41) % 64))

/-- One bit of `Ch(e, f, g)`. -/
def chBitExpr (loc : RowView) (bitIdx : ℕ) : BabyBear :=
  let e := loc (bitEBase + bitIdx)
  let f := loc (bitFBase + bitIdx)
  let g := loc (bitGBase + bitIdx)
  e * f + (1 - e) * g

/-- One bit of `Maj(a, b, c)`. -/
def majBitExpr (loc : RowView) (bitIdx : ℕ) : BabyBear :=
  let a := loc (bitABase + bitIdx)
  let b := loc (bitBBase + bitIdx)
  let c := loc (bitCBase + bitIdx)
  a * b + a * c + b * c - a * b * c * BabyBear.two

/-- One limb packed from a bit expression. -/
def packLimbExpr (bitExpr : ℕ → BabyBear) (limb : ℕ) : BabyBear := packLe 16 fun bit => bitExpr (limb * 16 + bit)

/-- The limbs of `Σ0`, `Σ1`, `Ch` and `Maj` against their bit polynomials. -/
def evalBitwise (loc : RowView) (roundSel : BabyBear) : Assertions :=
  forLimbs fun limb =>
    assertZero (roundSel * (loc (limbCol wordSigma0 limb) - packLimbExpr (sigma0BitExpr loc) limb)) ++
    assertZero (roundSel * (loc (limbCol wordSigma1 limb) - packLimbExpr (sigma1BitExpr loc) limb)) ++
    assertZero (roundSel * (loc (limbCol wordCh limb) - packLimbExpr (chBitExpr loc) limb)) ++
    assertZero (roundSel * (loc (limbCol wordMaj limb) - packLimbExpr (majBitExpr loc) limb))

/-- The generic 16-bit range proofs. -/
def evalRange (loc : RowView) : Assertions :=
  (List.range rangeSources).flatMap fun src =>
    (List.range rangeBitsPerSource).flatMap (fun bit => assertBool (loc (rangeBitCol src bit))) ++
    assertEq (loc (rangeSourceCol src)) (packLe rangeBitsPerSource fun bit => loc (rangeBitCol src bit))

/-- The Boolean decompositions of lag words 1 and 14. -/
def evalLagBits (loc : RowView) : Assertions :=
  [(1, lag1BitBase), (14, lag14BitBase)].flatMap fun lb =>
    (List.range 64).flatMap (fun bit => assertBool (loc (lb.2 + bit))) ++
    forLimbs fun limb => assertEq (loc (lagLimbCol lb.1 limb)) (packLe 16 fun bit => loc (lb.2 + limb * 16 + bit))

/-- The transition constraints, before their two filters. -/
def evalTransition (loc next prep : RowView) : Assertions :=
  constrainAdd5Limbs loc wordH wordSigma1 wordCh wordK wordW wordT1 carryT1Base ++
  constrainAdd2Limbs loc wordSigma0 wordMaj wordT2 carryT2Base ++
  constrainAdd2LimbsAcrossRows loc next wordT1 wordT2 wordA carryABase ++
  constrainAdd2LimbsAcrossRows loc next wordD wordT1 wordE carryEBase ++
  (forLimbs fun limb =>
    assertEq (next (limbCol wordB limb)) (loc (limbCol wordA limb)) ++
    assertEq (next (limbCol wordC limb)) (loc (limbCol wordB limb)) ++
    assertEq (next (limbCol wordD limb)) (loc (limbCol wordC limb)) ++
    assertEq (next (limbCol wordF limb)) (loc (limbCol wordE limb)) ++
    assertEq (next (limbCol wordG limb)) (loc (limbCol wordF limb)) ++
    assertEq (next (limbCol wordH limb)) (loc (limbCol wordG limb))) ++
  ((List.range lagCount).flatMap fun lag => forLimbs fun limb =>
    assertEq (next (lagLimbCol lag limb))
      (if lag = 0 then loc (limbCol wordW limb) else loc (lagLimbCol (lag - 1) limb))) ++
  constrainScheduleRecurrence loc (prep prepRoundSelectorCol * (1 - prep prepInitWSelectorCol))

/-- The last-row constraints, before their filter. -/
def evalLastRow (loc : RowView) : Assertions :=
  ((List.range' wordW (wordCount - wordW)).flatMap fun word => forLimbs fun limb =>
    assertEq (loc (limbCol word limb)) 0) ++
  (List.range' carryT1Base (bitABase - carryT1Base)).flatMap fun col => assertEq (loc col) 0

/-- `Sha512RoundAir::eval`: every value handed to `assert_zero`, in order. -/
def eval (w : AirWindow) : Assertions :=
  let roundSel := w.locPrep prepRoundSelectorCol
  evalInstance w.loc w.locPrep ++
  evalBlockStart w.loc w.locPrep ++
  evalPublic w.loc w.locPrep w.publicValues ++
  bitWords.flatMap (fun wb => evalBitWord w.loc roundSel wb.1 wb.2) ++
  evalBitwise w.loc roundSel ++
  evalRange w.loc ++
  evalLagBits w.loc ++
  filtered w.isTransition
    (filtered (w.locPrep prepTransitionSelectorCol) (evalTransition w.loc w.next w.locPrep)) ++
  filtered w.isLast (evalLastRow w.loc)

/-! ## The row checker -/

/-- `AirConstraintChecker`. -/
structure AirConstraintChecker where
  main : RowMajorMatrix
  preprocessed : RowMajorMatrix
  isFirst : BabyBear
  isLast : BabyBear
  isTransition : BabyBear
  publicValues : Vector BabyBear 8
  violated : Bool

namespace AirConstraintChecker

/-- `AirConstraintChecker::new`. -/
def new (main preprocessed : RowMajorMatrix) (isFirst isLast : Bool) (publicValues : Vector BabyBear 8) :
    AirConstraintChecker :=
  { main, preprocessed, isFirst := fromBool isFirst, isLast := fromBool isLast
    isTransition := fromBool !isLast, publicValues, violated := false }

/-- The two-row window of the checker. -/
def window (c : AirConstraintChecker) : AirWindow :=
  { loc := c.main.rowView 0, next := c.main.rowView 1
    locPrep := c.preprocessed.rowView 0, nextPrep := c.preprocessed.rowView 1
    publicValues := c.publicValues, isFirst := c.isFirst, isLast := c.isLast
    isTransition := c.isTransition }

/-- `assert_zero` of the checker. -/
def assertZero (c : AirConstraintChecker) (x : BabyBear) : AirConstraintChecker :=
  if x ≠ 0 then { c with violated := true } else c

/-- `air.eval(&mut checker)`. -/
def run (c : AirConstraintChecker) : AirConstraintChecker := (eval c.window).foldl assertZero c

end AirConstraintChecker

/-- The index of the row after `row`; after the last row comes row `wrap`. -/
def nextRow (height row wrap : ℕ) : ℕ := if row + 1 < height then row + 1 else wrap

/-- The checker of one row: windows cut from the two matrices, flags from the row's position. -/
def checkerAt (main preprocessed : RowMajorMatrix) (publicValues : Vector BabyBear 8) (row wrap : ℕ) :
    AirConstraintChecker :=
  AirConstraintChecker.new
    ⟨main.rowSlice row ++ main.rowSlice (nextRow main.height row wrap), airWidth⟩
    ⟨preprocessed.rowSlice row ++ preprocessed.rowSlice (nextRow preprocessed.height row wrap), airWidth⟩
    (row == 0) (row + 1 == main.height) publicValues

/-- `eval` reports no violation on `row`. -/
def rowAccepted (main preprocessed : RowMajorMatrix) (publicValues : Vector BabyBear 8) (row wrap : ℕ) : Bool :=
  !(checkerAt main preprocessed publicValues row wrap).run.violated

/-- `verify_with_preprocessed` of `air.rs`: the last row is its own successor. -/
def verifyWithPreprocessed (main preprocessed : RowMajorMatrix) (publicValues : Vector BabyBear 8) : Bool :=
  if preprocessed.width ≠ airWidth ∨ preprocessed.height ≠ traceRows then false
  else (List.range main.height).all fun row => rowAccepted main preprocessed publicValues row row

/-- `eval` vanishes on every row of a trace, whose last row is followed by row `wrap`. -/
def airVanishes (main preprocessed : RowMajorMatrix) (publicValues : Vector BabyBear 8) (wrap : ℕ) : Bool :=
  (List.range main.height).all fun row => rowAccepted main preprocessed publicValues row wrap

/-! ## The main trace -/

/-- Row `i < 80` of `build_plonky3_air_trace`. -/
def roundRow (trace : BlockTrace) (lags : Vector U64 16) (i : ℕ) : Row :=
  let s := trace.roundStates[i]!
  let word := trace.words[i]!
  let constant := K[i]!
  let sigma0 := bigSigma0 s.a
  let sigma1 := bigSigma1 s.e
  let choose := ch s.e s.f s.g
  let majority := maj s.a s.b s.c
  let t1 := s.h + sigma1 + choose + constant + word
  let t2 := sigma0 + majority
  let carryT1 := (addWithCarries5 s.h sigma1 choose constant word).2
  let carryT2 := (addWithCarries2 sigma0 majority).2
  let carryA := (addWithCarries2 t1 t2).2
  let carryE := (addWithCarries2 s.d t1).2
  let schedCarries :=
    if i ≥ 16 then
      let w2 := trace.words[i - 2]!
      let w7 := trace.words[i - 7]!
      let w15 := trace.words[i - 15]!
      let w16 := trace.words[i - 16]!
      (addWithCarries4 (smallSigma1 w2) w7 (smallSigma0 w15) w16).2
    else Vector.replicate 4 0
  let words : List U64 := [s.a, s.b, s.c, s.d, s.e, s.f, s.g, s.h, word, constant, sigma0, sigma1,
    choose, majority, t1, t2]
  let row : Row := Vector.replicate airWidth 0
  let row := words.zipIdx.foldl (fun row v => setWordLimbs row v.2 v.1) row
  let row := setLagWords row lags
  let row := setLagSigmaBits row lags
  let row := setHelperBits row
  let row := setCarries row carryT1Base carryT1
  let row := setCarries row carryT2Base carryT2
  let row := setCarries row carryABase carryA
  let row := setCarries row carryEBase carryE
  let row := setCarries row schedCarryBase schedCarries
  let row := setCarryBits row
  setRangeBits row

/-- A row from 80 on: the working state, the lag history and, if `seed`, the padding helpers. -/
def stateRow (s : State) (lags : Vector U64 16) (seed : Bool) : Row :=
  let row : Row := Vector.replicate airWidth 0
  let row := s.toList.zipIdx.foldl (fun row v => setWordLimbs row v.2 v.1) row
  let row := setLagWords row lags
  let row := setLagSigmaBits row lags
  let row := setHelperBits row
  let row := if seed then seedPaddingHelpers row else row
  let row := setCarryBits row
  setRangeBits row

/-- The degenerate successor state of a padding row. -/
def paddingNext (state : State) : State :=
  #v[state.h, state.a, state.b, state.c, state.d + state.h, state.e, state.f, state.g]

/-- `Sha512Circuit::build_plonky3_air_trace`. -/
def buildPlonky3AirTrace (trace : BlockTrace) : RowMajorMatrix :=
  let (rows, lags) := (List.range 80).foldl
    (fun (st : List Row × Vector U64 16) i =>
      (st.1 ++ [roundRow trace st.2 i], advanceLags st.2 trace.words[i]!))
    ([], Vector.replicate 16 0)
  let rows := rows ++ [stateRow trace.lastRoundState lags true]
  let lags := advanceLags lags 0
  let (rows, _, _) := (List.range' shaRoundsPlusInit (traceRows - shaRoundsPlusInit)).foldl
    (fun (st : List Row × Vector U64 16 × State) rowIdx =>
      let nextState := paddingNext st.2.2
      (st.1 ++ [stateRow nextState st.2.1 (rowIdx != traceRows - 1)], advanceLags st.2.1 0, nextState))
    (rows, lags, trace.lastRoundState)
  RowMajorMatrix.ofRows rows

/-! ## The preprocessed trace -/

/-- One row of `build_plonky3_preprocessed_trace_from_instance`, from the same row of the full
witness. -/
def preprocessedRow (initialState : State) (src : RowView) (row : ℕ) : Row :=
  let dst : Row := Vector.replicate airWidth 0
  let dst := (List.range limbsPerWord).foldl (fun dst limb =>
    (dst.set! (limbCol wordW limb) (src (limbCol wordW limb))).set! (limbCol wordK limb)
      (src (limbCol wordK limb))) dst
  let dst := dst.set! prepRoundSelectorCol (fromBool (row < 80))
  let dst := dst.set! prepInitWSelectorCol (fromBool (row < 16))
  let dst := dst.set! prepBlockStartSelectorCol (fromBool (row == 0))
  let dst := dst.set! prepTransitionSelectorCol (fromBool (row + 1 < traceRows))
  let dst := dst.set! prepFinalSelectorCol (fromBool (row == 80))
  initialState.toList.zipIdx.foldl (fun (dst : Row) (v : U64 × ℕ) =>
    fillRow dst limbsPerWord (limbCol (wordA + v.2)) fun limb =>
      fromU16 (((v.1 >>> (16 * limb)) &&& 0xffff).truncate 16)) dst

/-- `Sha512Circuit::build_plonky3_preprocessed_trace_from_instance`. -/
def buildPlonky3PreprocessedTraceFromInstance (initialState : State) (block : Block) : RowMajorMatrix :=
  let trace := compressBlock initialState block
  let full := buildPlonky3AirTrace trace
  RowMajorMatrix.ofRows ((List.range traceRows).map fun row => preprocessedRow initialState (full.rowView row) row)

/-- The eight public values of a trace: `round_states[80].map(bb)`. -/
def publicValuesOf (trace : BlockTrace) : Vector BabyBear 8 := trace.lastRoundState.map bb

/-- `Sha512Circuit::verify_plonky3_air_trace_with_instance`. -/
def verifyPlonky3AirTraceWithInstance (mainTrace : RowMajorMatrix) (initialState : State) (block : Block) : Bool :=
  if mainTrace.width ≠ airWidth ∨ mainTrace.height ≠ traceRows then false
  else
    let preprocessedTrace := buildPlonky3PreprocessedTraceFromInstance initialState block
    let trace := compressBlock initialState block
    verifyWithPreprocessed mainTrace preprocessedTrace (publicValuesOf trace)

/-! ## The message trace -/

/-- `MessageAirBundle`. -/
structure MessageAirBundle where
  main : RowMajorMatrix
  preprocessed : RowMajorMatrix
  finalState : State
  finalPublicValues : Vector BabyBear 8
  degreeBits : ℕ

/-- The mutable state of the block loop of `build_message_air_bundle`. -/
structure BundleState where
  mainRows : List Row
  prepRows : List Row
  state : State
  finalPublicValues : Vector BabyBear 8

/-- A row slice as a row of its own. -/
def rowOfView (view : RowView) : Row := Vector.ofFn fun c => view c

/-- One row copy of the inner loop, with the three selectors rewritten. -/
def bundleRow (main prep : RowMajorMatrix) (seg realBlockCount : ℕ) (st : BundleState) (row : ℕ) : BundleState :=
  let dst := seg * traceRows + row
  let prepRow := rowOfView (prep.rowView row)
  let prepRow := prepRow.set! prepBlockStartSelectorCol (fromBool (row == 0))
  let prepRow := prepRow.set! prepTransitionSelectorCol (fromBool (row + 1 < traceRows))
  let prepRow := prepRow.set! prepFinalSelectorCol (fromBool (seg + 1 == realBlockCount && row == 80))
  { st with
    mainRows := st.mainRows.set dst (rowOfView (main.rowView row))
    prepRows := st.prepRows.set dst prepRow }

/-- One block of `build_message_air_bundle`. -/
def bundleSegment (realBlockCount : ℕ) (st : BundleState) (sb : Block × ℕ) : BundleState :=
  let ⟨block, seg⟩ := sb
  let trace := compressBlock st.state block
  let main := buildPlonky3AirTrace trace
  let prep := buildPlonky3PreprocessedTraceFromInstance st.state block
  let st := (List.range traceRows).foldl (bundleRow main prep seg realBlockCount) st
  { st with
    finalPublicValues := if seg + 1 = realBlockCount then publicValuesOf trace else st.finalPublicValues
    state := trace.outputState }

/-- `usize::next_power_of_two`: the least power of two at least `n`. -/
def nextPowerOfTwo (n : ℕ) : ℕ := 2 ^ Nat.clog 2 n

/-- `usize::trailing_zeros` of a non-zero number. -/
def trailingZeros (n : ℕ) : ℕ := padicValNat 2 n

/-- `Sha512Circuit::build_message_air_bundle`. -/
def buildMessageAirBundle (initialState : State) (message : List U8) : MessageAirBundle :=
  let blocks := paddedBlocks message
  let realBlockCount := blocks.length
  let segmentCount := nextPowerOfTwo realBlockCount
  let totalRows := segmentCount * traceRows
  let zeroRow : Row := Vector.replicate airWidth 0
  let st := blocks.zipIdx.foldl (bundleSegment realBlockCount)
    { mainRows := List.replicate totalRows zeroRow
      prepRows := List.replicate totalRows zeroRow
      state := initialState
      finalPublicValues := Vector.replicate 8 0 }
  { main := RowMajorMatrix.ofRows st.mainRows
    preprocessed := RowMajorMatrix.ofRows st.prepRows
    finalState := st.state
    finalPublicValues := st.finalPublicValues
    degreeBits := trailingZeros totalRows }

end Sha512Circuit
