/-
The open columns hold the prehistory of a block: the words before it, which leave the delay line before
the schedule recurrence reads it, and the schedule carries of its first rows. Every prehistory makes
one accepted trace of the rounds, and every accepted trace is one of these.
-/
import Sha512Circuit.Air.Determined
import Sha512Circuit.Air.Stacking

namespace Sha512Circuit

/-- What an accepted trace leaves open in a block. The oldest word leaves the delay line before it is
decomposed, so that its limbs are any field elements; a schedule carry is at most 3. -/
@[ext]
structure Prehistory where
  lags : Vector U64 15
  oldest : Vector BabyBear 4
  carries : Vector (Vector (Fin 4) 4) 16

/-- The schedule carry of limb `l` in row `r`. -/
def Prehistory.carry (H : Prehistory) (r l : ℕ) : ℕ := (H.carries[r]!)[l]!.val

theorem Prehistory.carry_le (H : Prehistory) (r l : ℕ) : H.carry r l ≤ 3 := Nat.le_of_lt_succ (H.carries[r]!)[l]!.isLt

theorem Prehistory.carry_lt_prime (H : Prehistory) (r l : ℕ) : H.carry r l < babyBearPrime :=
  lt_of_le_of_lt (H.carry_le r l) (by rw [babyBearPrime_eq]; norm_num)

/-! ## Rows before the delay line has filled -/

/-- Before row 16 the constraints ask of the open columns that lags 1 and 14 have their bits, that the
schedule carries are in range and that the delay line moves on. -/
theorem RoundFilled.vanish {win : AirWindow} {s : State} {b : Block} {r : ℕ} {lag : ℕ → U64} (hr : r < 16)
    (h : RoundFilled win.loc r (traceWords (compressBlock s b) r) lag
      (rowCarry (traceWords (compressBlock s b) r) (traceSched (compressBlock s b) r)))
    (hlag : Vanish (evalLagBits win.loc)) (hcarry : ∀ l < 4, ∃ c ≤ 3, CarryAt win.loc (schedCarryBase + l) c)
    (hnext : ∀ i < 16, WordAt win.next (limbCol i) (traceWords (compressBlock s b) (r + 1) i))
    (hdelay : DelaysTo win.loc win.next) (hP : PrepAt win.locPrep s (traceWord (compressBlock s b)) r false)
    (hlast : win.isLast = 0) : Vanish (eval win) := by
  have hround := hP.round_one (by omega)
  have hw : traceWords (compressBlock s b) r =
      roundWords (compressBlock s b).roundStates[r]! (compressBlock s b).words[r]! K[r]! := if_pos (by omega)
  rw [vanish_eval, hround]
  refine ⟨(evalInstance_iff _ _).2 ⟨fun l hl => ?_, fun l hl => ?_, fun l _ => ?_⟩, (evalBlockStart_iff _ _).2 ?_,
    (evalPublic_iff _ _ _).2 fun i hi => ?_, fun wb hwb => ?_, ?_, vanish_range_of_words h.words h.range, hlag,
    .inr (.inr ?_), .inl hlast⟩
  · rw [h.words wordK (by decide) l hl, hP.constant (by omega) l hl, hw]
    exact mul_eq_zero_of_right _ (sub_self _)
  · rw [h.words wordW (by decide) l hl, hP.word l hl, traceWords_word, sub_self, mul_zero]
  · rw [hround, sub_self, zero_mul]
  -- row 0 holds the initial state
  · intro i hi l hl
    by_cases h0 : r = 0
    · subst h0
      have hs : traceState (compressBlock s b) 0 = s := by
        rw [traceState, if_pos (by omega), compressBlock_roundStates s b (by omega)]; rfl
      rw [h.words i (by omega) l hl, traceWords_state _ _ hi, hs, hP.state i hi l hl, sub_self, mul_zero]
    · rw [hP.blockStart, beq_eq_false_iff_ne.2 h0]; exact zero_mul _
  · rw [hP.final]; exact zero_mul _
  · exact (evalBitWord_one _ wb.1 wb.2).2 ⟨_, h.words _ (by have := bitWords_bounds wb hwb; omega), h.bits wb hwb⟩
  · have hbits := h.bits
    have hwords := h.words
    rw [hw] at hbits hwords
    exact vanish_bitwise_of_words hwords hbits rfl rfl rfl rfl
  · refine vanish_transition_of_words h.words (fun c h1 h2 => h.carryAt c (.inl ⟨h1, h2⟩) (.inl h2)) hnext
      (traceRow_step s b (by omega)) hdelay ?_
    rw [hP.sched_zero (.inl hr)]
    exact constrainScheduleRecurrence_zero hcarry

/-- The delay line before row `r` of a trace with words `w`, from the words `L` before row 0. -/
def lagsFrom (L : Vector U64 16) (w : ℕ → U64) : ℕ → Vector U64 16
  | 0 => L
  | r + 1 => advanceLags (lagsFrom L w r) (w r)

/-- After `r` rows the delay line holds the last `r` words and then the prehistory. -/
theorem lagsFrom_getElem! (L : Vector U64 16) (w : ℕ → U64) (r : ℕ) {k : ℕ} (hk : k < 16) :
    (lagsFrom L w r)[k]! = if k < r then w (r - 1 - k) else L[k - r]! := by
  induction r generalizing k with
  | zero => rw [if_neg (Nat.not_lt_zero k)]; rfl
  | succ r ih =>
    rw [lagsFrom, advanceLags_getElem! _ _ hk]
    by_cases h : k = 0
    · subst h
      rw [if_pos rfl, if_pos (Nat.succ_pos r)]; rfl
    · rw [if_neg h, ih (by omega)]
      by_cases hkr : k - 1 < r
      · rw [if_pos hkr, if_pos (by omega)]
        congr 1; omega
      · rw [if_neg hkr, if_neg (by omega)]
        congr 1; omega

/-- The prehistory has left the delay line by row 16. -/
theorem lagsFrom_eq (L : Vector U64 16) (w : ℕ → U64) {r : ℕ} (hr : 16 ≤ r) : lagsFrom L w r = lagsBefore w r := by
  refine Bytes.ext_getElem! fun k hk => ?_
  rw [lagsFrom_getElem! L w r hk, lagsBefore_getElem! w r hk, if_pos (by omega), if_pos (by omega)]

section Row

variable (t : BlockTrace) (H : Prehistory)

/-- The open cells of row `r`: the limbs of the oldest word, in row 0 only, and the schedule carries. -/
def openCells (row : Row) (r : ℕ) : Row :=
  fillRow (if r = 0 then fillRow row 4 (lagLimbCol 15) fun l => H.oldest[l]! else row) 4 (schedCarryBase + ·)
    fun l => (H.carry r l : BabyBear)

/-- Row `r` of the main trace of a block with a prehistory. -/
def openRow (r : ℕ) : Row :=
  if r < 16 then setCarryBits (openCells H (roundRow t (lagsFrom (H.lags.push 0) (traceWord t) r) r) r)
  else traceRow t r

theorem openCells_frame (row : Row) {r c : ℕ} (h : c < 140 ∨ (r ≠ 0 ∧ c < 144) ∨ 148 ≤ c) :
    (openCells H row r).cell c = row.cell c := by
  have hs := schedCarryBase_eq
  rw [openCells, fillRow_frame _ fun l hl => by omega]
  split
  · refine fillRow_frame _ fun l hl => ?_
    rw [lagLimbCol_eq]; omega
  · rfl

theorem openCells_oldest (row : Row) {l : ℕ} (hl : l < 4) :
    (openCells H row 0).cell (lagLimbCol 15 l) = H.oldest[l]! := by
  have hs := schedCarryBase_eq
  rw [openCells, fillRow_frame _ fun l hl => by rw [lagLimbCol_eq]; omega, if_pos rfl]
  refine fillRow_cell row (fun i _ j _ h => ?_) (fun i hi => ?_) hl
  · rw [lagLimbCol_eq, lagLimbCol_eq] at h; omega
  · rw [lagLimbCol_eq, airWidth_eq]; omega

theorem openCells_carry (row : Row) (r : ℕ) {l : ℕ} (hl : l < 4) :
    (openCells H row r).cell (schedCarryBase + l) = (H.carry r l : BabyBear) := by
  have hs := schedCarryBase_eq
  refine fillRow_cell _ (fun i _ j _ h => Nat.add_left_cancel h) (fun i hi => ?_) hl
  rw [airWidth_eq]; omega

theorem openRow_cell {r c : ℕ} (hr : r < 16) (hc : c < 1044) (h : c < 140 ∨ (r ≠ 0 ∧ c < 144) ∨ 148 ≤ c) :
    (openRow t H r).cell c = (roundRow t (lagsFrom (H.lags.push 0) (traceWord t) r) r).cell c := by
  rw [openRow, if_pos hr, setCarryBits_frame _ hc, openCells_frame H _ h]

theorem openRow_carryAt {r l : ℕ} (hr : r < 16) (hl : l < 4) :
    CarryAt (openRow t H r).cell (schedCarryBase + l) (H.carry r l) := by
  have hs := schedCarryBase_eq
  rw [openRow, if_pos hr]
  exact setCarryBits_carryAt _ (.inr (by omega)) (H.carry_lt_prime r l) (openCells_carry H _ r hl)

/-- The delay line of a row; only the oldest word of row 0 need not be one. -/
theorem openRow_lag {r k : ℕ} (hr : r ≤ 16) (hk : k < 16) (h : r ≠ 0 ∨ k < 15) :
    WordAt (openRow t H r).cell (lagLimbCol k) (lagsFrom (H.lags.push 0) (traceWord t) r)[k]! := by
  by_cases h16 : r < 16
  · refine ((roundRow_filled t _ r).lags k hk).of_eq fun l hl => openRow_cell t H h16 ?_ ?_
    · rw [lagLimbCol_eq]; omega
    · rw [lagLimbCol_eq]; omega
  · rw [openRow, if_neg h16, lagsFrom_eq _ _ (not_lt.1 h16)]
    exact (traceRow_filled t (by omega)).lags k hk

/-- A row with a prehistory is filled like the honest row. -/
theorem openRow_roundFilled {r : ℕ} (hr : r < 80) :
    RoundFilled (openRow t H r).cell r (traceWords t r) (traceLag t r) (rowCarry (traceWords t r) (traceSched t r)) := by
  by_cases h16 : r < 16
  · have hbase := roundRow_filled t (lagsFrom (H.lags.push 0) (traceWord t) r) r
    rw [← show traceWords t r = _ from if_pos hr, ← show traceSched t r = _ from if_pos hr] at hbase
    have hlag : ∀ k < 16, k < r → lagAt (lagsFrom (H.lags.push 0) (traceWord t) r) k = traceLag t r k := by
      intro k hk hkr
      rw [lagAt, lagsFrom_getElem! _ _ _ hk, if_pos hkr, traceLag_of_lt t hk hkr]
    have h1 := lag1BitBase_eq
    have h14 := lag14BitBase_eq
    refine ⟨fun i hi => ?_, fun wb hwb i hi => ?_, fun k hk l hl i hi => ?_, fun c hc hside => ?_, fun k hk hkr => ?_,
      fun hr1 i hi => ?_, fun hr14 i hi => ?_⟩
    · refine (hbase.words i hi).of_eq fun l hl => openRow_cell t H h16 ?_ ?_
      · rw [limbCol_eq]; omega
      · rw [limbCol_eq]; omega
    · have := bitWords_bounds wb hwb
      rw [openRow_cell t H h16 (by omega) (by omega)]
      exact hbase.bits wb hwb i hi
    · have hcol := rangeBitCol_eq (4 * k + l) i
      rw [openRow_cell t H h16 (by omega) (by omega)]
      exact hbase.range k hk l hl i hi
    · have h80 : c < 80 := hside.resolve_right (by omega)
      rw [openRow, if_pos h16]
      refine setCarryBits_carryAt _ hc (rowCarry_lt _ ?_ c) ?_
      · rw [traceSched, if_pos hr]
        exact schedOps_length t.words r
      · rw [openCells_frame H _ (by omega)]
        exact hbase.carries c hc
    · rw [← hlag k hk hkr]
      exact openRow_lag t H (by omega) hk (.inl (by omega))
    · rw [openRow_cell t H h16 (by omega) (by omega), ← hlag 1 (by omega) hr1]
      exact hbase.lag1 i hi
    · rw [openRow_cell t H h16 (by omega) (by omega), ← hlag 14 (by omega) hr14]
      exact hbase.lag14 i hi
  · rw [openRow, if_neg h16]
    exact (traceRow_filled t (by omega)).roundFilled r

/-- Lags 1 and 14 of a row have their bits. -/
theorem openRow_lagBits {r : ℕ} (hr : r < 16) : Vanish (evalLagBits (openRow t H r).cell) := by
  have hbase := roundRow_filled t (lagsFrom (H.lags.push 0) (traceWord t) r) r
  have h1 := lag1BitBase_eq
  have h14 := lag14BitBase_eq
  refine (evalLagBits_iff _).2 ⟨⟨_, openRow_lag t H hr.le (show 1 < 16 by omega) (.inr (by omega)), fun i hi => ?_⟩,
    _, openRow_lag t H hr.le (show 14 < 16 by omega) (.inr (by omega)), fun i hi => ?_⟩
  · rw [openRow_cell t H hr (by omega) (by omega)]
    exact hbase.lag1 i hi
  · rw [openRow_cell t H hr (by omega) (by omega)]
    exact hbase.lag14 i hi

/-- The delay line moves on from row to row. -/
theorem openRow_delays {r : ℕ} (hr : r < 16) : DelaysTo (openRow t H r).cell (openRow t H (r + 1)).cell := by
  intro k hk l hl
  rw [openRow_lag t H (show r + 1 ≤ 16 by omega) hk (.inl (Nat.succ_ne_zero r)) l hl, lagsFrom,
    advanceLags_getElem! _ _ hk]
  split
  · rw [(openRow_roundFilled t H (show r < 80 by omega)).words wordW (by decide) l hl, traceWords_word]
  · exact (openRow_lag t H hr.le (show k - 1 < 16 by omega) (.inr (by omega)) l hl).symm

end Row

/-! ## Prehistories of accepted rows -/

/-- The rows of a segment show a prehistory. -/
structure Shows (M : ℕ → RowView) (H : Prehistory) : Prop where
  lags : ∀ k < 15, WordAt (M 0) (lagLimbCol k) H.lags[k]!
  oldest : ∀ l < 4, M 0 (lagLimbCol 15 l) = H.oldest[l]!
  carries : ∀ r < 16, ∀ l < 4, M r (schedCarryBase + l) = (H.carry r l : BabyBear)

/-- Rows show one prehistory at most. -/
theorem Shows.inj {M : ℕ → RowView} {H H' : Prehistory} (h : Shows M H) (h' : Shows M H') : H = H' := by
  refine Prehistory.ext (Bytes.ext_getElem! fun k hk => (h.lags k hk).inj (h'.lags k hk))
    (Bytes.ext_getElem! fun l hl => (h.oldest l hl).symm.trans (h'.oldest l hl))
    (Bytes.ext_getElem! fun r hr => Bytes.ext_getElem! fun l hl => Fin.ext ?_)
  exact (FieldBits.natCast_inj (H.carry_lt_prime r l) (H'.carry_lt_prime r l)).1
    ((h.carries r hr l hl).symm.trans (h'.carries r hr l hl))

/-- A schedule carry is bounded on every row with a transition, whatever the selectors. -/
theorem schedCarry_of_transition {loc next prep : RowView} (h : Vanish (evalTransition loc next prep)) {l : ℕ}
    (hl : l < 4) : ∃ c ≤ 3, CarryAt loc (schedCarryBase + l) c := by
  obtain ⟨-, -, -, -, -, -, hrec⟩ := (evalTransition_iff _ _ _).1 h
  rw [constrainScheduleRecurrence, constrainAddLimbs_iff] at hrec
  exact (constrainCarryMax_iff (carryLane_sched l hl)).1 (hrec l hl).1

section Segment

variable {M P : ℕ → RowView} {publicValues : Vector BabyBear 8} (h : SegmentHolds M P publicValues)
include h

/-- The delay line carries its cells from row to row. -/
theorem SegmentHolds.lag_shift {r k l : ℕ} (hl : l < 4) : ∀ {d : ℕ}, r + d < 83 → k + d < 16 →
    M (r + d) (lagLimbCol (k + d) l) = M r (lagLimbCol k l)
  | 0, _, _ => rfl
  | d + 1, hr, hk => by
    obtain ⟨-, -, -, -, -, hdelay, -⟩ := (evalTransition_iff _ _ _).1 (h.transition (r + d) (by omega))
    rw [← SegmentHolds.lag_shift hl (show r + d < 83 by omega) (show k + d < 16 by omega)]
    exact (hdelay (k + (d + 1)) hk l hl).trans (if_neg (by omega))

/-- Accepted rows show a prehistory: lag `k < 15` of row 0 is decomposed as lag 14 of row `14 - k`. -/
theorem SegmentHolds.exists_shows : ∃ H, Shows M H := by
  have hlag : ∀ k < 15, ∃ x, WordAt (M 0) (lagLimbCol k) x := fun k hk => by
    obtain ⟨-, x, hx, -⟩ := (evalLagBits_iff _).1 (h.lagBits (14 - k) (by omega))
    refine ⟨x, hx.of_eq fun l hl => ?_⟩
    have hshift := h.lag_shift hl (show 0 + (14 - k) < 83 by omega) (show k + (14 - k) < 16 by omega)
    rw [Nat.zero_add, Nat.add_sub_cancel' (by omega)] at hshift
    exact hshift.symm
  have hcarry : ∀ r < 16, ∀ l < 4, ∃ c : Fin 4, M r (schedCarryBase + l) = (c.val : BabyBear) := fun r hr l hl => by
    obtain ⟨c, hc, hat⟩ := schedCarry_of_transition (h.transition r (by omega)) hl
    exact ⟨⟨c, by omega⟩, hat.cell⟩
  choose! x hx using hlag
  choose! c hc using hcarry
  refine ⟨⟨Vector.ofFn fun k => x k, Vector.ofFn fun l => M 0 (lagLimbCol 15 l),
    Vector.ofFn fun r => Vector.ofFn fun l => c r l⟩, fun k hk => ?_, fun l hl => ?_, fun r hr l hl => ?_⟩
  · rw [getElem!_pos _ k hk, Vector.getElem_ofFn]
    exact hx k hk
  · rw [getElem!_pos _ l hl, Vector.getElem_ofFn]
  · rw [Prehistory.carry, getElem!_pos _ r hr, Vector.getElem_ofFn, getElem!_pos _ l hl, Vector.getElem_ofFn]
    exact hc r hr l hl

/-- The schedule carries of accepted rows with their bits. -/
theorem SegmentHolds.carryAt_of_shows {H : Prehistory} (hH : Shows M H) {r l : ℕ} (hr : r < 16) (hl : l < 4) :
    CarryAt (M r) (schedCarryBase + l) (H.carry r l) := by
  obtain ⟨c, hc, hat⟩ := schedCarry_of_transition (h.transition r (by omega)) hl
  have hlt : c < babyBearPrime := lt_of_le_of_lt hc (by rw [babyBearPrime_eq]; norm_num)
  rwa [(FieldBits.natCast_inj hlt (H.carry_lt_prime r l)).1 (hat.cell.symm.trans (hH.carries r hr l hl))] at hat

variable {M' : ℕ → RowView} {publicValues' : Vector BabyBear 8} (h' : SegmentHolds M' P publicValues') {H : Prehistory}
  (hH : Shows M H) (hH' : Shows M' H)
include h' hH hH'

/-- The delay line of accepted rows is determined by the prehistory and the filled lags. -/
theorem SegmentHolds.lag_eq {s : State} {b : Block} {final : ℕ → Bool}
    (hP : ∀ r < 128, PrepAt (P r) s (traceWord (compressBlock s b)) r (final r)) {r : ℕ} (hr : r < 80) {k l : ℕ}
    (hk : k < 16) (hl : l < 4) : M r (lagLimbCol k l) = M' r (lagLimbCol k l) := by
  by_cases hkr : k < r
  · rw [h.traceLags hP hr hk hkr l hl, h'.traceLags hP hr hk hkr l hl]
  · have hshift := h.lag_shift hl (show 0 + r < 83 by omega) (show k - r + r < 16 by omega)
    have hshift' := h'.lag_shift hl (show 0 + r < 83 by omega) (show k - r + r < 16 by omega)
    rw [Nat.zero_add, Nat.sub_add_cancel (not_lt.1 hkr)] at hshift hshift'
    rw [hshift, hshift']
    by_cases h15 : k - r < 15
    · rw [hH.lags _ h15 l hl, hH'.lags _ h15 l hl]
    · rw [show k - r = 15 by omega, hH.oldest l hl, hH'.oldest l hl]

/-- Accepted rows with one prehistory are equal. -/
theorem SegmentHolds.eq_of_shows {s : State} {b : Block} {final : ℕ → Bool}
    (hP : ∀ r < 128, PrepAt (P r) s (traceWord (compressBlock s b)) r (final r)) {r : ℕ} (hr : r < 80) {c : ℕ}
    (hc : c < airWidth) : M r c = M' r c := by
  by_cases hopen : DelayOpen r c
  · have hlag := fun {k l : ℕ} (hk : k < 16) (hl : l < 4) => h.lag_eq h' hH hH' hP hr hk hl
    obtain ⟨⟨x1, hx1, hb1⟩, x14, hx14, hb14⟩ := (evalLagBits_iff _).1 (h.lagBits r (by omega))
    obtain ⟨⟨y1, hy1, hc1⟩, y14, hy14, hc14⟩ := (evalLagBits_iff _).1 (h'.lagBits r (by omega))
    rw [← hx1.inj (hy1.of_eq fun l hl => hlag (by omega) hl)] at hc1
    rw [← hx14.inj (hy14.of_eq fun l hl => hlag (by omega) hl)] at hc14
    -- the five groups of open columns
    rw [airWidth_eq] at hc
    rcases delayOpen_iff.1 hopen with h1 | h1 | h1 | h1 | h1
    · have hcol : c = lagLimbCol ((c - 80) / 4) ((c - 80) % 4) := by rw [lagLimbCol_eq]; omega
      rw [hcol]
      exact hlag (by omega) (by omega)
    · rw [show c = schedCarryBase + (c - 144) by rw [schedCarryBase_eq]; omega, hH.carries r h1.1 _ (by omega),
        hH'.carries r h1.1 _ (by omega)]
    · rw [show c = lag1BitBase + (c - 532) by rw [lag1BitBase_eq]; omega, hb1 _ (by omega), hc1 _ (by omega)]
    · rw [show c = lag14BitBase + (c - 596) by rw [lag14BitBase_eq]; omega, hb14 _ (by omega), hc14 _ (by omega)]
    · obtain ⟨col, i, -, hi, rfl, -⟩ := exists_carryBit (show 1044 ≤ c by omega) hc
      have hcol := carryBitCol_cases hi
      have hc1 := h.carryAt_of_shows hH h1.1 (show col - 144 < 4 by omega)
      have hc2 := h'.carryAt_of_shows hH' h1.1 (show col - 144 < 4 by omega)
      rw [schedCarryBase_eq, Nat.add_sub_cancel' (by omega)] at hc1 hc2
      rw [hc1.bits i hi, hc2.bits i hi]
  · rw [h.cell_eq hP hr hc hopen, h'.cell_eq hP hr hc hopen]

end Segment

/-! ## Messages -/

section Message

variable (s : State) (message : List U8) (H : ℕ → Prehistory)

/-- Row `i` of the main matrix of a message, with a prehistory for each block. -/
def openMainRow (i : ℕ) : Row :=
  if i / 128 < (paddedBlocks message).length then
    openRow (segTrace s (paddedBlocks message) (i / 128)) (H (i / 128)) (i % 128)
  else zeroRow

/-- The main matrix of a message with a prehistory for each block. -/
def openMain : RowMajorMatrix := .ofRows ((List.range (totalRows message)).map (openMainRow s message H))

theorem openMain_height : (openMain s message H).height = totalRows message := ofRows_range_height _ _

theorem openMain_rowView {i : ℕ} (hi : i < totalRows message) :
    (openMain s message H).rowView i = (openMainRow s message H i).cell := ofRows_range_rowView _ hi

theorem openMain_segment {j r : ℕ} (hj : j < (paddedBlocks message).length) (hr : r < 128) :
    (openMain s message H).rowView (j * 128 + r) = (openRow (segTrace s (paddedBlocks message) j) (H j) r).cell := by
  have hle := segment_le_totalRows message hj
  rw [openMain_rowView s message H (by omega), openMainRow, show (j * 128 + r) / 128 = j by omega,
    show (j * 128 + r) % 128 = r by omega, if_pos hj]

/-- A row of a real segment: rows that reach back before the block, then those of the honest trace. -/
theorem openMain_row {j r : ℕ} (hj : j < (paddedBlocks message).length) (hr : r < 128) (wrap : ℕ) :
    rowAccepted (openMain s message H) (buildMessageAirBundle s message).preprocessed
      (buildMessageAirBundle s message).finalPublicValues (j * 128 + r) wrap = true := by
  have hle := segment_le_totalRows message hj
  have hh := openMain_height s message H
  have hrow := openMain_segment s message H hj hr
  have hP := bundle_prepAt s message hj hr
  rw [rowAccepted_iff]
  by_cases h16 : r < 16
  · have hnext : nextRow (totalRows message) (j * 128 + r) wrap = j * 128 + (r + 1) := if_pos (by omega)
    rw [beq_eq_false_iff_ne.2 (show r ≠ 80 by omega), Bool.and_false] at hP
    rw [window_bundle s message rfl hh _ (by omega), hnext, hrow, openMain_segment s message H hj (by omega)]
    refine (openRow_roundFilled _ (H j) (show r < 80 by omega)).vanish h16 (openRow_lagBits _ _ h16)
      (fun l hl => ⟨_, (H j).carry_le r l, openRow_carryAt _ _ h16 hl⟩)
      (openRow_roundFilled _ (H j) (show r + 1 < 80 by omega)).words (openRow_delays _ _ h16) hP ?_
    dsimp only
    rw [beq_eq_false_iff_ne.2 (by omega)]
    rfl
  · have hopen : ∀ {r : ℕ}, 16 ≤ r → openRow (segTrace s (paddedBlocks message) j) (H j) r =
        traceRow (segTrace s (paddedBlocks message) j) r := fun h => if_neg (not_lt.2 h)
    have hph : (buildMessageAirBundle s message).preprocessed.height = (openMain s message H).height := by
      rw [bundle_prep_height, hh]
    rw [hopen (by omega)] at hrow
    refine vanish_of_traceRow rfl (bundle_prep_width s message) hph (by rw [hh]; omega) hr hrow
      (fun h127 => ⟨by rw [hh]; omega, ?_⟩) hP fun hfinal => ?_
    · rw [Nat.add_assoc, openMain_segment s message H hj (by omega), hopen (by omega)]
      rfl
    · rw [Bool.and_eq_true, beq_iff_eq, beq_iff_eq] at hfinal
      refine ⟨hfinal.2, ?_⟩
      rw [bundle_finalPublicValues, ← hfinal.1, Nat.add_sub_cancel]
      rfl

/-- A trace with any prehistory is accepted. -/
theorem openMain_vanishes (wrap : ℕ) :
    airVanishes (openMain s message H) (buildMessageAirBundle s message).preprocessed
      (buildMessageAirBundle s message).finalPublicValues wrap = true := by
  refine airVanishes_of_segments s message rfl (openMain_height s message H)
    (fun j hj r hr => openMain_row s message H hj hr wrap) fun i hi hn => ?_
  rw [openMain_rowView s message H hi, openMainRow, if_neg hn]

/-- The rows of block `j` show its prehistory. -/
theorem openMain_shows {j : ℕ} (hj : j < (paddedBlocks message).length) :
    Shows (fun r => (openMain s message H).rowView (j * 128 + r)) (H j) := by
  refine ⟨fun k hk => ?_, fun l hl => ?_, fun r hr l hl => ?_⟩
  · have hlag := openRow_lag (segTrace s (paddedBlocks message) j) (H j) (Nat.zero_le 16) (show k < 16 by omega)
      (.inr hk)
    have hpush : ((H j).lags.push 0)[k]! = (H j).lags[k]! := by
      rw [getElem!_pos _ k (by omega), getElem!_pos _ k hk, Vector.getElem_push_lt]
    rw [lagsFrom, hpush] at hlag
    rwa [← openMain_segment s message H hj (by omega)] at hlag
  · have h15 := lagLimbCol_eq 15 l
    rw [openMain_segment s message H hj (by omega), openRow, if_pos (by omega), setCarryBits_frame _ (by omega)]
    exact openCells_oldest _ _ hl
  · rw [openMain_segment s message H hj (by omega)]
    exact (openRow_carryAt _ _ hr hl).cell

end Message

/-! ## Accepted traces -/

/-- Acceptance determines the main trace of a message: every cell of rows 16 to 79 of a real segment
is the honest one, and so is every cell of rows 0 to 15 outside the open columns. -/
theorem messageRows_determined (s : State) (message : List U8) (M : RowMajorMatrix) (publicValues : Vector BabyBear 8)
    (wrap : ℕ) (hw : M.width = (buildMessageAirBundle s message).main.width)
    (hh : M.height = (buildMessageAirBundle s message).main.height)
    (h : airVanishes M (buildMessageAirBundle s message).preprocessed publicValues wrap = true) :
    ∀ j < (paddedBlocks message).length, ∀ r < 80, ∀ c < airWidth, 16 ≤ r ∨ ¬ DelayOpen r c →
      M.rowView (128 * j + r) c = (buildMessageAirBundle s message).main.rowView (128 * j + r) c := by
  intro j hj r hr c hc hside
  have hopen : ¬ DelayOpen r c := hside.elim (fun h16 => not_delayOpen h16 c) id
  rw [Nat.mul_comm, bundle_main_segment s message hj (by omega)]
  exact (message_segmentHolds hw hh h hj).cell_eq (fun r hr => bundle_prepAt s message hj hr) hr hc hopen

/-- A trace of 300 zero bytes, three blocks and a dummy segment, in which every block has a prehistory of
ones: it is accepted and differs from the honest trace in the first row of each block. -/
theorem messageRows_determined_threeBlocks :
    let message : List U8 := List.replicate 300 0
    let bundle := buildMessageAirBundle initialState message
    (paddedBlocks message).length = 3 ∧ bundle.main.height = 4 * 128 ∧
    ∃ M : RowMajorMatrix, airVanishes M bundle.preprocessed bundle.finalPublicValues 0 = true ∧
      (∀ j < 3, M.rowView (128 * j) (lagLimbCol 0 0) ≠ bundle.main.rowView (128 * j) (lagLimbCol 0 0)) ∧
      ∀ j < 3, ∀ r < 80, ∀ c < airWidth, 16 ≤ r ∨ ¬ DelayOpen r c →
        M.rowView (128 * j + r) c = bundle.main.rowView (128 * j + r) c := by
  intro message bundle
  have hn : (paddedBlocks message).length = 3 := paddedBlocks_length_threeBlocks
  have hrows : totalRows message = 4 * 128 := totalRows_threeBlocks
  set H : ℕ → Prehistory := fun _ => ⟨.replicate 15 1, .replicate 4 0, .replicate 16 (.replicate 4 0)⟩ with hH
  have hM := openMain_vanishes initialState message H 0
  refine ⟨hn, (bundle_main_height initialState message).trans hrows, openMain initialState message H, hM,
    fun j hj h => ?_, fun j hj => messageRows_determined initialState message _ _ 0 (by rw [bundle_main_width]; rfl)
      (by rw [openMain_height, bundle_main_height]) hM j (by omega)⟩
  rw [Nat.mul_comm] at h
  -- lag 0 holds 1 in one row and 0 in the other
  have hopen : WordAt ((openMain initialState message H).rowView (j * 128)) (lagLimbCol 0)
      (Vector.replicate 15 (1 : U64))[0]! :=
    (openMain_shows initialState message H (show j < (paddedBlocks message).length by omega)).lags 0 (by omega)
  have hhonest := (traceRow_filled (segTrace initialState (paddedBlocks message) j) (show 0 ≠ 127 by omega)).lags 0
    (by omega)
  rw [← bundle_main_segment initialState message (by omega) (by omega), traceLag, lagAt,
    lagsBefore_getElem! _ _ (by omega), if_neg (by omega)] at hhonest
  have hzero := hhonest 0 (by omega)
  rw [limb_zero, Nat.cast_zero, Nat.add_zero] at hzero
  rw [getElem!_pos _ 0 (by omega), Vector.getElem_replicate] at hopen
  have hone : limb (1 : U64) 0 = 1 := by decide
  rw [hopen 0 (by omega), hone, Nat.cast_one] at h
  exact one_ne_zero (h.trans hzero)

/-- Acceptance leaves the prehistories of the blocks open and nothing else in the rounds: any of them are
shown by an accepted main trace, every accepted main trace shows one for each block, and two that show
the same have the same cells. -/
theorem prehistory_exact (s : State) (message : List U8) :
    (∀ H : ℕ → Prehistory, ∃ M : RowMajorMatrix, M.width = airWidth ∧
      M.height = (buildMessageAirBundle s message).main.height ∧
      (∀ wrap, airVanishes M (buildMessageAirBundle s message).preprocessed
        (buildMessageAirBundle s message).finalPublicValues wrap = true) ∧
      ∀ j < (paddedBlocks message).length, Shows (fun r => M.rowView (j * 128 + r)) (H j)) ∧
    (∀ (M : RowMajorMatrix) (publicValues : Vector BabyBear 8) (wrap : ℕ), M.width = airWidth →
      M.height = (buildMessageAirBundle s message).main.height →
      airVanishes M (buildMessageAirBundle s message).preprocessed publicValues wrap = true →
      ∀ j < (paddedBlocks message).length, ∃! H, Shows (fun r => M.rowView (j * 128 + r)) H) ∧
    ∀ (M M' : RowMajorMatrix) (publicValues publicValues' : Vector BabyBear 8) (wrap wrap' : ℕ),
      M.width = airWidth → M'.width = airWidth → M.height = (buildMessageAirBundle s message).main.height →
      M'.height = (buildMessageAirBundle s message).main.height →
      airVanishes M (buildMessageAirBundle s message).preprocessed publicValues wrap = true →
      airVanishes M' (buildMessageAirBundle s message).preprocessed publicValues' wrap' = true →
      ∀ j < (paddedBlocks message).length, ∀ H, Shows (fun r => M.rowView (j * 128 + r)) H →
        Shows (fun r => M'.rowView (j * 128 + r)) H →
        ∀ r < 80, ∀ c < airWidth, M.rowView (j * 128 + r) c = M'.rowView (j * 128 + r) c := by
  have hseg : ∀ {M : RowMajorMatrix} {publicValues : Vector BabyBear 8} {wrap : ℕ}, M.width = airWidth →
      M.height = (buildMessageAirBundle s message).main.height →
      airVanishes M (buildMessageAirBundle s message).preprocessed publicValues wrap = true →
      ∀ {j : ℕ}, j < (paddedBlocks message).length → SegmentHolds (fun r => M.rowView (j * 128 + r))
        (fun r => (buildMessageAirBundle s message).preprocessed.rowView (j * 128 + r)) publicValues :=
    fun hw hh h j hj => message_segmentHolds (hw.trans (bundle_main_width s message).symm) hh h hj
  refine ⟨fun H => ⟨openMain s message H, rfl, ?_, openMain_vanishes s message H,
    fun j hj => openMain_shows s message H hj⟩, ?_, ?_⟩
  · rw [openMain_height, bundle_main_height]
  · intro M publicValues wrap hw hh h j hj
    obtain ⟨H, hH⟩ := (hseg hw hh h hj).exists_shows
    exact ⟨H, hH, fun H' hH' => hH'.inj hH⟩
  · intro M M' publicValues publicValues' wrap wrap' hw hw' hh hh' h h' j hj H hH hH' r hr c hc
    exact (hseg hw hh h hj).eq_of_shows (hseg hw' hh' h' hj) hH hH' (fun r hr => bundle_prepAt s message hj hr) hr hc

end Sha512Circuit
