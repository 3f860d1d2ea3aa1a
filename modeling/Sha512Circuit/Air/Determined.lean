/-
How far an accepted main trace is determined: in the rounds every cell is the honest one, except in
the rows before the delay line has filled, where the words from before the block, their bits and the
schedule carries are open.
-/
import Sha512Circuit.Air.Message
import Sha512Circuit.Air.SingleBlock

namespace Sha512Circuit

open FieldBits (ofBool)

/-! ## Round rows -/

/-- The columns that round row `r` leaves open: the lags that reach back before row 0 with the bits of
lags 1 and 14, and the schedule carries before row 16. -/
def DelayOpen (r c : ℕ) : Prop :=
  (lagLimbBase + limbsPerWord * r ≤ c ∧ c < schedCarryBase) ∨ (r < 16 ∧ schedCarryBase ≤ c ∧ c < bitABase) ∨
  (r < 2 ∧ lag1BitBase ≤ c ∧ c < lag14BitBase) ∨ (r < 15 ∧ lag14BitBase ≤ c ∧ c < rangeBitBase) ∨
  (r < 16 ∧ carrySchedBitBase ≤ c)

theorem delayOpen_iff {r c : ℕ} : DelayOpen r c ↔ (80 + 4 * r ≤ c ∧ c < 144) ∨ (r < 16 ∧ 144 ≤ c ∧ c < 148) ∨
    (r < 2 ∧ 532 ≤ c ∧ c < 596) ∨ (r < 15 ∧ 596 ≤ c ∧ c < 660) ∨ (r < 16 ∧ 1068 ≤ c) := Iff.rfl

/-- From row 16 on the delay line is full and nothing is open. -/
theorem not_delayOpen {r : ℕ} (hr : 16 ≤ r) (c : ℕ) : ¬ DelayOpen r c := by
  rw [delayOpen_iff]
  omega

/-- A round row that holds words `w`, a delay line `lag` filled up to row `r`, and carries. -/
structure RoundFilled (row : RowView) (r : ℕ) (w lag : ℕ → U64) (carry : ℕ → ℕ) : Prop where
  words : ∀ i < 16, WordAt row (limbCol i) (w i)
  bits : ∀ wb ∈ bitWords, BitsAt row wb.2 (w wb.1)
  range : ∀ k < 6, ∀ l < 4, ∀ i < 16,
    row (rangeBitCol (4 * k + l) i) = ofBool ((limb (w (rangedWords.getD k 0)) l).testBit i)
  carryAt : ∀ c, IsCarryCol c → (c < 80 ∨ 16 ≤ r) → CarryAt row c (carry c)
  lags : ∀ k < 16, k < r → WordAt row (lagLimbCol k) (lag k)
  lag1 : 1 < r → BitsAt row lag1BitBase (lag 1)
  lag14 : 14 < r → BitsAt row lag14BitBase (lag 14)

theorem Filled.roundFilled {row : RowView} {w lag : ℕ → U64} {carry : ℕ → ℕ} (h : Filled row w lag carry) (r : ℕ) :
    RoundFilled row r w lag carry :=
  ⟨h.words, h.bits, h.range, fun c hc _ => h.carryAt c hc, fun k hk _ => h.lags k hk, fun _ => h.lag1, fun _ => h.lag14⟩

/-- Every column from 1044 on is a carry bit. -/
theorem exists_carryBit {c : ℕ} (h1 : 1044 ≤ c) (h2 : c < 1076) :
    ∃ col i, IsCarryCol col ∧ i < carryBitWidth col ∧ carryBitCol col i = c ∧ (col < 80 ∨ 1068 ≤ c) := by
  have hwidth : ∀ col, (64 ≤ col → col < 68 → carryBitWidth col = 3) ∧ (68 ≤ col → col < 80 → carryBitWidth col = 1) ∧
      (144 ≤ col → col < 148 → carryBitWidth col = 2) := by
    intro col
    unfold carryBitWidth
    rw [carryT1Base_eq, carryT2Base_eq, lagLimbBase_eq, schedCarryBase_eq, bitABase_eq]
    refine ⟨fun h h' => if_pos ⟨h, h'⟩, fun h h' => ?_, fun h h' => ?_⟩
    · rw [if_neg (by omega), if_pos ⟨h, h'⟩]
    · rw [if_neg (by omega), if_neg (by omega), if_pos ⟨h, h'⟩]
  -- three bits a cell for `T1`, one for `T2`, `A` and `E`, two for the schedule
  obtain ⟨col, i, hcol, hi, hc⟩ : ∃ col i, IsCarryCol col ∧ i < carryBitWidth col ∧
      ((col < 68 ∧ c = 1044 + (col - 64) * 3 + i) ∨ (68 ≤ col ∧ col < 80 ∧ c = 1056 + (col - 68)) ∨
        (144 ≤ col ∧ c = 1068 + (col - 144) * 2 + i)) := by
    unfold IsCarryCol
    by_cases h3 : c < 1056
    · refine ⟨64 + (c - 1044) / 3, (c - 1044) % 3, by omega, ?_, by omega⟩
      rw [(hwidth _).1 (by omega) (by omega)]
      omega
    · by_cases h4 : c < 1068
      · refine ⟨68 + (c - 1056), 0, by omega, ?_, by omega⟩
        rw [(hwidth _).2.1 (by omega) (by omega)]
        omega
      · refine ⟨144 + (c - 1068) / 2, (c - 1068) % 2, by omega, ?_, by omega⟩
        rw [(hwidth _).2.2 (by omega) (by omega)]
        omega
  have hcases := carryBitCol_cases hi
  exact ⟨col, i, hcol, hi, by omega, by omega⟩

section Agree

variable {row row' : RowView} {r : ℕ} {w lag : ℕ → U64} {carry : ℕ → ℕ}

/-- Two round rows with the same words and carries agree on every column that is not open. -/
theorem RoundFilled.agree (h : RoundFilled row r w lag carry) (h' : RoundFilled row' r w lag carry) {c : ℕ}
    (hc : c < airWidth) (hopen : ¬ DelayOpen r c) : row c = row' c := by
  rw [delayOpen_iff] at hopen
  rw [airWidth_eq] at hc
  -- the column groups of the layout, from left to right
  by_cases h64 : c < 64
  · have hcol : c = limbCol (c / 4) (c % 4) := by rw [limbCol_eq]; omega
    rw [hcol, h.words _ (by omega) _ (by omega), h'.words _ (by omega) _ (by omega)]
  by_cases h80 : c < 80
  · have hcol : IsCarryCol c := .inl ⟨by omega, h80⟩
    rw [(h.carryAt c hcol (.inl h80)).cell, (h'.carryAt c hcol (.inl h80)).cell]
  by_cases h144 : c < 144
  · have hcol : c = lagLimbCol ((c - 80) / 4) ((c - 80) % 4) := by rw [lagLimbCol_eq]; omega
    rw [hcol, h.lags _ (by omega) (by omega) _ (by omega), h'.lags _ (by omega) (by omega) _ (by omega)]
  by_cases h148 : c < 148
  · have hcol : IsCarryCol c := .inr ⟨by omega, h148⟩
    rw [(h.carryAt c hcol (.inr (by omega))).cell, (h'.carryAt c hcol (.inr (by omega))).cell]
  by_cases h532 : c < 532
  · have hbase : ∀ j < 6, ∃ wb ∈ bitWords, wb.2 = 148 + 64 * j := by decide
    obtain ⟨wb, hwb, hj⟩ := hbase ((c - 148) / 64) (by omega)
    have hcol : c = wb.2 + (c - 148) % 64 := by omega
    rw [hcol, h.bits wb hwb _ (Nat.mod_lt _ (by omega)), h'.bits wb hwb _ (Nat.mod_lt _ (by omega))]
  by_cases h596 : c < 596
  · have hcol : c = lag1BitBase + (c - 532) := by rw [lag1BitBase_eq]; omega
    rw [hcol, h.lag1 (by omega) _ (by omega), h'.lag1 (by omega) _ (by omega)]
  by_cases h660 : c < 660
  · have hcol : c = lag14BitBase + (c - 596) := by rw [lag14BitBase_eq]; omega
    rw [hcol, h.lag14 (by omega) _ (by omega), h'.lag14 (by omega) _ (by omega)]
  by_cases h1044 : c < 1044
  · have hcol : c = rangeBitCol (4 * ((c - 660) / 64) + (c - 660) / 16 % 4) ((c - 660) % 16) := by
      rw [rangeBitCol_eq]; omega
    rw [hcol, h.range _ (by omega) _ (by omega) _ (by omega), h'.range _ (by omega) _ (by omega) _ (by omega)]
  · obtain ⟨col, i, hcol, hi, rfl, hside⟩ := exists_carryBit (not_lt.1 h1044) hc
    rw [(h.carryAt col hcol (by omega)).bits i hi, (h'.carryAt col hcol (by omega)).bits i hi]

end Agree

/-! ## Rows of a segment -/

/-- Range bits are the bits of the ranged limbs. -/
theorem rangeBits_of_words {row : RowView} {w : ℕ → U64} (h : Vanish (evalRange row))
    (hw : ∀ i < 16, WordAt row (limbCol i) (w i)) {k l i : ℕ} (hk : k < 6) (hl : l < 4) (hi : i < 16) :
    row (rangeBitCol (4 * k + l) i) = ofBool ((limb (w (rangedWords.getD k 0)) l).testBit i) := by
  have hranged : ∀ k < 6, rangedWords.getD k 0 < 16 := by decide
  obtain ⟨n, hn, hcell, hbits⟩ := (evalRange_iff row).1 h (4 * k + l) (by omega)
  rw [rangeSourceCol_eq hk hl, hw _ (hranged k hk) l hl] at hcell
  have hlimb := (FieldBits.natCast_inj (limb_lt_prime _ l) (lt_of_lt_of_le hn two_pow_16_le_prime)).1 hcell
  rw [hbits i hi, hlimb]

section Segment

variable {M P : ℕ → RowView} {publicValues : Vector BabyBear 8} (h : SegmentHolds M P publicValues)
  {s : State} {b : Block} {final : ℕ → Bool}
  (hP : ∀ r < 128, PrepAt (P r) s (traceWord (compressBlock s b)) r (final r))
include h hP

/-- The filled part of the delay line holds the schedule words before the row. -/
theorem SegmentHolds.traceLags {r : ℕ} (hr : r < 80) {k : ℕ} (hk : k < 16) (hkr : k < r) :
    WordAt (M r) (lagLimbCol k) (traceLag (compressBlock s b) r k) := by
  obtain ⟨X, hX⟩ := h.exists_words
  have hlag := h.lags hX r hr k hk hkr
  rwa [h.words hP hX _ (by omega), ← traceWord_compressBlock s b (by omega), ← traceLag_of_lt _ hk hkr] at hlag

/-- The bits of a filled lag that is decomposed. -/
theorem SegmentHolds.lagBitsAt {r : ℕ} (hr : r < 80) :
    (1 < r → BitsAt (M r) lag1BitBase (traceLag (compressBlock s b) r 1)) ∧
    (14 < r → BitsAt (M r) lag14BitBase (traceLag (compressBlock s b) r 14)) := by
  obtain ⟨⟨x1, hx1, hb1⟩, x14, hx14, hb14⟩ := (evalLagBits_iff _).1 (h.lagBits r (by omega))
  constructor
  · intro h1
    rwa [hx1.inj (h.traceLags hP hr (by omega) h1)] at hb1
  · intro h14
    rwa [hx14.inj (h.traceLags hP hr (by omega) h14)] at hb14

/-- The schedule carries from row 16 on. -/
theorem SegmentHolds.schedCarries {r : ℕ} (h16 : 16 ≤ r) (hr : r < 80) :
    CarriesAt (M r) schedCarryBase (traceSched (compressBlock s b) r) := by
  obtain ⟨hb1, hb14⟩ := h.lagBitsAt hP hr
  obtain ⟨-, -, -, -, -, -, hrec⟩ := (evalTransition_iff _ _ _).1 (h.transition r (by omega))
  have hW : WordAt (M r) (limbCol wordW) _ := (h.run hP).words r hr 8 (by omega)
  rw [(hP r (by omega)).sched_one h16 hr, constrainScheduleRecurrence_one (hb1 (by omega))
    (h.traceLags hP hr (by omega) (by omega)) (hb14 (by omega)) (h.traceLags hP hr (by omega) (by omega)) hW] at hrec
  rw [(traceRow_recurrence s b h16 hr).1]
  exact hrec.2

/-- A round row of an accepted segment holds what the honest row holds. -/
theorem SegmentHolds.roundFilled {r : ℕ} (hr : r < 80) :
    RoundFilled (M r) r (traceWords (compressBlock s b) r) (traceLag (compressBlock s b) r)
      (rowCarry (traceWords (compressBlock s b) r) (traceSched (compressBlock s b) r)) := by
  have hrun := h.run hP
  have hw : traceWords (compressBlock s b) r =
      roundWords (compressBlock s b).roundStates[r]! (compressBlock s b).words[r]! K[r]! := if_pos hr
  have hsched : traceSched (compressBlock s b) r = schedOps (compressBlock s b).words r := if_pos hr
  have hwords : ∀ i < 16, WordAt (M r) (limbCol i) (traceWords (compressBlock s b) r i) := hw ▸ hrun.words r hr
  refine ⟨hwords, fun wb hwb => ?_, fun k hk l hl i hi => rangeBits_of_words (h.range r (by omega)) hwords hk hl hi,
    fun c hc hside => ?_, fun k hk hkr => h.traceLags hP hr hk hkr, (h.lagBitsAt hP hr).1, (h.lagBitsAt hP hr).2⟩
  · have hbits := (h.roundHolds hP hr).bitsAt (hrun.state r (by omega)) hwb
    rwa [← roundWords_state _ (compressBlock s b).words[r]! K[r]! (bitWords_bounds wb hwb).1, ← hw] at hbits
  · by_cases h80 : c < 80
    · rw [hw, hsched]
      exact hrun.carries r hr c (by unfold IsCarryCol at hc; omega) h80
    -- the schedule lane
    · have hc144 : 144 ≤ c ∧ c < 148 := by unfold IsCarryCol at hc; omega
      have hcarry := (h.schedCarries hP (by omega) hr).carryAt hc144.1 hc144.2
      rwa [rowCarry, if_neg (by omega), if_neg (by omega), if_neg (by omega), if_neg h80]

/-- A cell of a round row that is not open is the honest one. -/
theorem SegmentHolds.cell_eq {r : ℕ} (hr : r < 80) {c : ℕ} (hc : c < airWidth) (hopen : ¬ DelayOpen r c) :
    M r c = (traceRow (compressBlock s b) r).cell c :=
  (h.roundFilled hP hr).agree ((traceRow_filled (compressBlock s b) (by omega)).roundFilled r) hc hopen

end Segment

/-! ## Messages -/

/-- A real segment of an accepted matrix, whatever its cells, satisfies the segment's constraints. -/
theorem message_segmentHolds {s : State} {message : List U8} {M : RowMajorMatrix} {publicValues : Vector BabyBear 8}
    {wrap : ℕ} (hw : M.width = (buildMessageAirBundle s message).main.width)
    (hh : M.height = (buildMessageAirBundle s message).main.height)
    (h : airVanishes M (buildMessageAirBundle s message).preprocessed publicValues wrap = true) {j : ℕ}
    (hj : j < (paddedBlocks message).length) :
    SegmentHolds (fun r => M.rowView (j * 128 + r))
      (fun r => (buildMessageAirBundle s message).preprocessed.rowView (j * 128 + r)) publicValues := by
  rw [bundle_main_width] at hw
  rw [bundle_main_height] at hh
  exact segmentHolds_of_airVanishes hw (bundle_prep_width s message) (by rw [bundle_prep_height, hh]) h
    (by rw [hh]; exact segment_le_totalRows message hj) fun r hr => bundle_prepAt s message hj hr

end Sha512Circuit
