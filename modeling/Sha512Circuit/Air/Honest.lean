/-
The honest trace satisfies the constraints: rows whose words obey the round equations make every
group of `eval` vanish, and the rows the builder writes for a compression are such rows, from the
first round through the hand-over at row 80 to the zeroed last row.
-/
import Sha512Circuit.Air.PrepSpec

namespace Sha512Circuit

open FieldBits (IsBit ofBool)

/-! ## Filled rows -/

section Filled

variable {loc next prep : RowView} {w lag w' lag' : ℕ → U64} {carry carry' : ℕ → ℕ}

/-- Words with the bits of their range proofs. -/
theorem vanish_range_of_words (hw : ∀ i < 16, WordAt loc (limbCol i) (w i))
    (hr : ∀ k < 6, ∀ l < 4, ∀ i < 16,
      loc (rangeBitCol (4 * k + l) i) = ofBool ((limb (w (rangedWords.getD k 0)) l).testBit i)) :
    Vanish (evalRange loc) := by
  rw [evalRange_iff]
  intro src hsrc
  have hk : src / 4 < 6 := by omega
  have hl : src % 4 < 4 := by omega
  have hranged : ∀ k < 6, rangedWords.getD k 0 < 16 := by decide
  refine ⟨limb (w (rangedWords.getD (src / 4) 0)) (src % 4), limb_lt _ _, ?_, fun i hi => ?_⟩
  · have := rangeSourceCol_eq hk hl
    rw [Nat.div_add_mod] at this
    rw [this]
    exact hw _ (hranged _ hk) _ hl
  · have := hr _ hk _ hl i hi
    rwa [Nat.div_add_mod] at this

theorem Filled.vanish_range (h : Filled loc w lag carry) : Vanish (evalRange loc) :=
  vanish_range_of_words h.words h.range

theorem Filled.vanish_lagBits (h : Filled loc w lag carry) : Vanish (evalLagBits loc) :=
  (evalLagBits_iff loc).2 ⟨⟨_, h.lags 1 (by omega), h.lag1⟩, _, h.lags 14 (by omega), h.lag14⟩

theorem Filled.vanish_bitWord (h : Filled loc w lag carry) {wb : ℕ × ℕ} (hwb : wb ∈ bitWords) :
    Vanish (evalBitWord loc 1 wb.1 wb.2) :=
  (evalBitWord_one loc wb.1 wb.2).2 ⟨_, h.words _ (by have := bitWords_bounds wb hwb; omega), h.bits wb hwb⟩

/-- Words `Σ0`, `Σ1`, `Ch` and `Maj` over the bits of the state. -/
theorem vanish_bitwise_of_words (hw : ∀ i < 16, WordAt loc (limbCol i) (w i))
    (hb : ∀ wb ∈ bitWords, BitsAt loc wb.2 (w wb.1)) (h0 : w wordSigma0 = bigSigma0 (w wordA))
    (h1 : w wordSigma1 = bigSigma1 (w wordE)) (hch : w wordCh = ch (w wordE) (w wordF) (w wordG))
    (hmaj : w wordMaj = maj (w wordA) (w wordB) (w wordC)) : Vanish (evalBitwise loc 1) := by
  rw [evalBitwise_one (hb (wordA, bitABase) (by decide)) (hb (wordB, bitBBase) (by decide))
    (hb (wordC, bitCBase) (by decide)) (hb (wordE, bitEBase) (by decide))
    (hb (wordF, bitFBase) (by decide)) (hb (wordG, bitGBase) (by decide))]
  refine ⟨?_, ?_, ?_, ?_⟩
  · rw [← h0]; exact hw _ (by decide)
  · rw [← h1]; exact hw _ (by decide)
  · rw [← hch]; exact hw _ (by decide)
  · rw [← hmaj]; exact hw _ (by decide)

theorem Filled.vanish_bitwise (h : Filled loc w lag carry) (h0 : w wordSigma0 = bigSigma0 (w wordA))
    (h1 : w wordSigma1 = bigSigma1 (w wordE)) (hch : w wordCh = ch (w wordE) (w wordF) (w wordG))
    (hmaj : w wordMaj = maj (w wordA) (w wordB) (w wordC)) : Vanish (evalBitwise loc 1) :=
  vanish_bitwise_of_words h.words h.bits h0 h1 hch hmaj

/-- The word equations of a transition from words `w` and delay line `lag` to `w'` and `lag'`. -/
structure RowStep (w lag w' lag' : ℕ → U64) : Prop where
  t1 : w wordT1 = w wordH + w wordSigma1 + w wordCh + w wordK + w wordW
  t2 : w wordT2 = w wordSigma0 + w wordMaj
  a : w' wordA = w wordT1 + w wordT2
  e : w' wordE = w wordD + w wordT1
  shift : ∀ i < 7, i ≠ 3 → w' (i + 1) = w i
  delay : ∀ k < 16, lag' k = if k = 0 then w wordW else lag (k - 1)

/-- The schedule addition of a row: on with the recurrence's operands, or off. -/
def SchedStep (prep : RowView) (w lag : ℕ → U64) (sched : List U64) : Prop :=
  (prep prepRoundSelectorCol * (1 - prep prepInitWSelectorCol) = 1 ∧
    sched = [smallSigma1 (lag 1), lag 6, smallSigma0 (lag 14), lag 15] ∧ w wordW = sched.sum) ∨
  (prep prepRoundSelectorCol * (1 - prep prepInitWSelectorCol) = 0 ∧ sched = [])

/-- The four carry lanes of the round additions. -/
theorem roundLanes {sched : List U64} (hc : ∀ c, 64 ≤ c → c < 80 → CarryAt loc c (rowCarry w sched c)) :
    CarriesAt loc carryT1Base [w wordH, w wordSigma1, w wordCh, w wordK, w wordW] ∧
    CarriesAt loc carryT2Base [w wordSigma0, w wordMaj] ∧
    CarriesAt loc carryABase [w wordT1, w wordT2] ∧
    CarriesAt loc carryEBase [w wordD, w wordT1] := by
  have hlane : ∀ {base : ℕ} {ops : List U64}, 64 ≤ base → base ≤ 76 →
      (∀ l < 4, rowCarry w sched (base + l) = addCarry ops l) → CarriesAt loc base ops :=
    fun h1 h2 hops l hl => hops l hl ▸ hc _ (by omega) (by omega)
  rw [carryT1Base_eq, carryT2Base_eq, carryABase_eq, carryEBase_eq]
  refine ⟨hlane (by omega) (by omega) fun l hl => ?_, hlane (by omega) (by omega) fun l hl => ?_,
    hlane (by omega) (by omega) fun l hl => ?_, hlane (by omega) (by omega) fun l hl => ?_⟩
  · rw [rowCarry, if_pos (by omega), Nat.add_sub_cancel_left]
  · rw [rowCarry, if_neg (by omega), if_pos (by omega), Nat.add_sub_cancel_left]
  · rw [rowCarry, if_neg (by omega), if_neg (by omega), if_pos (by omega), Nat.add_sub_cancel_left]
  · rw [rowCarry, if_neg (by omega), if_neg (by omega), if_neg (by omega), if_pos (by omega), Nat.add_sub_cancel_left]

/-- The five carry lanes of a filled row, one for each addition. -/
theorem Filled.lanes {sched : List U64} (h : Filled loc w lag (rowCarry w sched)) :
    CarriesAt loc carryT1Base [w wordH, w wordSigma1, w wordCh, w wordK, w wordW] ∧
    CarriesAt loc carryT2Base [w wordSigma0, w wordMaj] ∧
    CarriesAt loc carryABase [w wordT1, w wordT2] ∧
    CarriesAt loc carryEBase [w wordD, w wordT1] ∧
    CarriesAt loc schedCarryBase sched := by
  obtain ⟨ht1, ht2, ha, he⟩ := roundLanes fun c h1 h2 => h.carryAt c (.inl ⟨h1, h2⟩)
  refine ⟨ht1, ht2, ha, he, fun l hl => ?_⟩
  have hsched := h.carryAt (schedCarryBase + l) (.inr (by rw [schedCarryBase_eq]; omega))
  rwa [rowCarry, schedCarryBase_eq, if_neg (by omega), if_neg (by omega), if_neg (by omega), if_neg (by omega),
    Nat.add_sub_cancel_left] at hsched

/-- A transition from a row of words and carries, apart from the delay line and the schedule. -/
theorem vanish_transition_of_words {sched : List U64} (hw : ∀ i < 16, WordAt loc (limbCol i) (w i))
    (hc : ∀ c, 64 ≤ c → c < 80 → CarryAt loc c (rowCarry w sched c)) (hw' : ∀ i < 16, WordAt next (limbCol i) (w' i))
    (hstep : RowStep w lag w' lag') (hdelay : DelaysTo loc next)
    (hsched : Vanish (constrainScheduleRecurrence loc (prep prepRoundSelectorCol * (1 - prep prepInitWSelectorCol)))) :
    Vanish (evalTransition loc next prep) := by
  obtain ⟨ht1, ht2, ha, he⟩ := roundLanes hc
  rw [evalTransition_iff]
  -- four additions, each with its own carry lane, then the shifts
  refine ⟨?_, ?_, ?_, ?_, ?_, hdelay, hsched⟩
  · exact (constrainAdd5Limbs_iff carryLane_t1 (hw _ (by decide)) (hw _ (by decide)) (hw _ (by decide))
      (hw _ (by decide)) (hw _ (by decide)) (hw _ (by decide))).2 ⟨hstep.t1, ht1⟩
  · exact (constrainAdd2Limbs_iff (carryLane_one (.inl rfl)) (hw _ (by decide)) (hw _ (by decide))
      (hw _ (by decide))).2 ⟨hstep.t2, ht2⟩
  · exact (constrainAdd2LimbsAcrossRows_iff (carryLane_one (.inr (.inl rfl))) (hw _ (by decide)) (hw _ (by decide))
      (hw' _ (by decide))).2 ⟨hstep.a, ha⟩
  · exact (constrainAdd2LimbsAcrossRows_iff (carryLane_one (.inr (.inr rfl))) (hw _ (by decide)) (hw _ (by decide))
      (hw' _ (by decide))).2 ⟨hstep.e, he⟩
  · intro i hi hi3 l hl
    rw [hw' (i + 1) (by omega) l hl, hw i (by omega) l hl, hstep.shift i hi hi3]

theorem Filled.vanish_transition {sched : List U64} (h : Filled loc w lag (rowCarry w sched))
    (h' : Filled next w' lag' carry') (hstep : RowStep w lag w' lag') (hsched : SchedStep prep w lag sched) :
    Vanish (evalTransition loc next prep) := by
  obtain ⟨-, -, -, -, hat⟩ := h.lanes
  refine vanish_transition_of_words h.words (fun c h1 h2 => h.carryAt c (.inl ⟨h1, h2⟩)) h'.words hstep ?_ ?_
  · intro k hk l hl
    rw [h'.lags k hk l hl, hstep.delay k hk]
    split
    · exact (h.words 8 (by omega) l hl).symm
    · exact (h.lags (k - 1) (by omega) l hl).symm
  · rcases hsched with ⟨hsel, rfl, hsum⟩ | ⟨hsel, rfl⟩
    · rw [hsel]
      rw [sum_four] at hsum
      exact (constrainScheduleRecurrence_one h.lag1 (h.lags 6 (by omega)) h.lag14 (h.lags 15 (by omega))
        (h.words _ (by decide))).2 ⟨hsum, hat⟩
    · rw [hsel]
      refine constrainScheduleRecurrence_zero fun l hl => ⟨addCarry [] l, ?_, hat l hl⟩
      rw [addCarry_nil]; omega

/-- The last-row constraints: words `W` to `T2`, the carries and the delay line are zero. -/
theorem Filled.vanish_lastRow (h : Filled loc w lag carry) (hw : ∀ i, 8 ≤ i → i < 16 → w i = 0)
    (hlag : ∀ k < 16, lag k = 0) (hc : ∀ c, carry c = 0) : Vanish (evalLastRow loc) := by
  rw [evalLastRow_iff]
  constructor
  · intro i h8 hi l hl
    rw [h.words i hi l hl, hw i h8 hi, limb_zero, Nat.cast_zero]
  · intro c h1 h2
    by_cases hcarry : IsCarryCol c
    · rw [h.carries c hcarry, hc, Nat.cast_zero]
    · -- between the two carry groups lie the limbs of the delay line
      have hk : (c - 80) / 4 < 16 := by unfold IsCarryCol at hcarry; omega
      have := h.lags _ hk ((c - 80) % 4) (by omega)
      rw [lagLimbCol_eq, show 80 + (c - 80) / 4 * 4 + (c - 80) % 4 = c by unfold IsCarryCol at hcarry; omega] at this
      rw [this, hlag _ hk, limb_zero, Nat.cast_zero]

end Filled

/-! ## The rows of a trace -/

/-- The words of row `r`. -/
def traceWords (t : BlockTrace) (r : ℕ) : ℕ → U64 :=
  if r < 80 then roundWords t.roundStates[r]! t.words[r]! K[r]!
  else paddingWords (padState t.lastRoundState (r - 80)) (r != 127)

/-- The operands of the schedule addition of row `r`. -/
def traceSched (t : BlockTrace) (r : ℕ) : List U64 := if r < 80 then schedOps t.words r else []

/-- The delay line of row `r`. -/
def traceLag (t : BlockTrace) (r : ℕ) : ℕ → U64 := lagAt (lagsBefore (traceWord t) r)

/-- The working state of row `r`. -/
def traceState (t : BlockTrace) (r : ℕ) : State :=
  if r ≤ 80 then t.roundStates[r]! else padState t.lastRoundState (r - 80)

theorem traceRow_filled (t : BlockTrace) {r : ℕ} (hr : r ≠ 127) :
    Filled (traceRow t r).cell (traceWords t r) (traceLag t r) (rowCarry (traceWords t r) (traceSched t r)) := by
  unfold traceRow traceWords traceSched traceLag
  -- round rows and seeded padding rows; row 127 is left unseeded and is `traceRow_filled_last`
  by_cases h : r < 80
  · rw [if_pos h, if_pos h, if_pos h]
    exact roundRow_filled t _ r
  · rw [if_neg h, if_neg h, if_neg h, bne_iff_ne.2 hr]
    exact stateRow_filled _ _

theorem traceRow_filled_last (t : BlockTrace) :
    Filled (traceRow t 127).cell (traceWords t 127) (traceLag t 127) fun _ => 0 := by
  unfold traceRow traceWords traceLag
  rw [if_neg (by omega), if_neg (by omega), bne_self_eq_false]
  exact lastRow_filled _ _

/-- Every row is filled with its words. -/
theorem exists_traceRow_filled (t : BlockTrace) (r : ℕ) :
    ∃ carry, Filled (traceRow t r).cell (traceWords t r) (traceLag t r) carry := by
  by_cases hr : r = 127
  · subst hr; exact ⟨_, traceRow_filled_last t⟩
  · exact ⟨_, traceRow_filled t hr⟩

theorem traceWords_state (t : BlockTrace) (r : ℕ) {i : ℕ} (hi : i < 8) : traceWords t r i = (traceState t r)[i]! := by
  unfold traceWords traceState
  by_cases h : r < 80
  · rw [if_pos h, if_pos (by omega), getElem!_pos _ i hi]
    interval_cases i <;> rfl
  · rw [if_neg h]
    have e : (if r ≤ 80 then t.roundStates[r]! else padState t.lastRoundState (r - 80)) =
        padState t.lastRoundState (r - 80) := by
      by_cases h80 : r ≤ 80
      · obtain rfl : r = 80 := by omega
        rw [if_pos le_rfl, getElem!_pos _ 80 (by omega)]; rfl
      · rw [if_neg h80]
    rw [e, getElem!_pos _ i hi]
    interval_cases i <;> rfl

theorem traceLag_succ (t : BlockTrace) (r : ℕ) {k : ℕ} (hk : k < 16) :
    traceLag t (r + 1) k = if k = 0 then traceWord t r else traceLag t r (k - 1) :=
  advanceLags_getElem! _ _ hk

theorem traceLag_of_lt (t : BlockTrace) {r k : ℕ} (hk : k < 16) (h : k < r) :
    traceLag t r k = traceWord t (r - 1 - k) := by
  rw [traceLag, lagAt, lagsBefore_getElem! _ _ hk, if_pos h]

theorem traceWords_word (t : BlockTrace) (r : ℕ) : traceWords t r wordW = traceWord t r := by
  unfold traceWords traceWord
  split <;> rfl

/-! ## Transitions of a compression trace -/

section Compression

variable (s : State) (b : Block)

/-- The recorded states of a compression step by rounds. -/
theorem traceState_round {r : ℕ} (hr : r < 80) :
    traceState (compressBlock s b) (r + 1) =
      Fips.step K[r]! (compressBlock s b).words[r]! (compressBlock s b).roundStates[r]! := by
  rw [traceState, if_pos (by omega), compressBlock_roundStates s b (by omega), compressBlock_roundStates s b (by omega),
    compressBlock_words s b hr]
  rfl

theorem traceState_pad (t : BlockTrace) {r : ℕ} (hr : 80 ≤ r) :
    traceState t (r + 1) = paddingNext (padState t.lastRoundState (r - 80)) := by
  rw [traceState, if_neg (by omega), show r + 1 - 80 = r - 80 + 1 by omega]
  rfl

/-- Consecutive rows of the honest trace obey the word equations of a transition. -/
theorem traceRow_step {r : ℕ} (hr : r < 127) :
    RowStep (traceWords (compressBlock s b) r) (traceLag (compressBlock s b) r)
      (traceWords (compressBlock s b) (r + 1)) (traceLag (compressBlock s b) (r + 1)) := by
  have hdelay : ∀ k < 16, traceLag (compressBlock s b) (r + 1) k =
      if k = 0 then traceWords (compressBlock s b) r wordW else traceLag (compressBlock s b) r (k - 1) := fun k hk => by
    rw [traceLag_succ _ _ hk, traceWords_word]
  have hnext : ∀ i < 8, traceWords (compressBlock s b) (r + 1) i = (traceState (compressBlock s b) (r + 1))[i]! :=
    fun i hi => traceWords_state _ _ hi
  by_cases h : r < 80
  -- a round: both rows are what the recorded states give
  · rw [traceState_round s b h] at hnext
    have hw : traceWords (compressBlock s b) r =
        roundWords (compressBlock s b).roundStates[r]! (compressBlock s b).words[r]! K[r]! := if_pos h
    generalize traceWords (compressBlock s b) (r + 1) = w' at hnext hdelay ⊢
    rw [hw] at hdelay ⊢
    generalize (compressBlock s b).roundStates[r]! = S at hnext hdelay ⊢
    refine ⟨rfl, rfl, hnext 0 (by omega), hnext 4 (by omega), fun i hi hi3 => ?_, hdelay⟩
    rw [hnext (i + 1) (by omega)]
    interval_cases i <;> first | rfl | exact absurd rfl hi3
  -- past the rounds `T1` is `H` and `T2` is zero, which makes the next `A` and `E` those of `paddingNext`
  · rw [traceState_pad _ (by omega)] at hnext
    have hw : traceWords (compressBlock s b) r =
        paddingWords (padState (compressBlock s b).lastRoundState (r - 80)) true := by
      rw [traceWords, if_neg h, bne_iff_ne.2 (by omega)]
    generalize traceWords (compressBlock s b) (r + 1) = w' at hnext hdelay ⊢
    rw [hw] at hdelay ⊢
    generalize padState (compressBlock s b).lastRoundState (r - 80) = S at hnext hdelay ⊢
    refine ⟨?_, ?_, ?_, hnext 4 (by omega), fun i hi hi3 => ?_, hdelay⟩
    · show S.h = S.h + 0 + 0 + 0 + 0
      simp
    · show (0 : U64) = 0 + 0
      simp
    · rw [show w' wordA = _ from hnext 0 (by omega)]
      show S.h = S.h + 0
      simp
    · rw [hnext (i + 1) (by omega)]
      interval_cases i <;> first | rfl | exact absurd rfl hi3

/-- From round 16 on a row's word is the sum of the recurrence's operands, which the delay line holds. -/
theorem traceRow_recurrence {r : ℕ} (h16 : 16 ≤ r) (h : r < 80) :
    traceSched (compressBlock s b) r =
        [smallSigma1 (traceLag (compressBlock s b) r 1), traceLag (compressBlock s b) r 6,
          smallSigma0 (traceLag (compressBlock s b) r 14), traceLag (compressBlock s b) r 15] ∧
      traceWords (compressBlock s b) r wordW = (traceSched (compressBlock s b) r).sum := by
  -- all sixteen lags are filled, and those the recurrence reads are `W` of rows r - 2, r - 7, r - 15, r - 16
  have hword : ∀ j < 80, (compressBlock s b).words[j]! = traceWord (compressBlock s b) j := fun j hj =>
    (if_pos hj).symm
  have hlag : ∀ k < 16, traceLag (compressBlock s b) r k = traceWord (compressBlock s b) (r - 1 - k) := fun k hk =>
    traceLag_of_lt _ hk (by omega)
  rw [traceSched, if_pos h, schedOps, if_pos h16, hlag 1 (by omega), hlag 6 (by omega), hlag 14 (by omega),
    hlag 15 (by omega), hword _ (by omega), hword _ (by omega), hword _ (by omega), hword _ (by omega),
    show r - 1 - 1 = r - 2 by omega, show r - 1 - 6 = r - 7 by omega, show r - 1 - 14 = r - 15 by omega,
    show r - 1 - 15 = r - 16 by omega, traceWords_word]
  refine ⟨rfl, ?_⟩
  rw [traceWord_compressBlock s b h, traceWord_compressBlock s b (by omega), traceWord_compressBlock s b (by omega),
    traceWord_compressBlock s b (by omega), traceWord_compressBlock s b (by omega), W_ge _ h16, sum_four]

/-- The schedule addition of a row of the honest trace. -/
theorem traceRow_sched {prep : RowView} {r : ℕ} {final : Bool}
    (hP : PrepAt prep s (traceWord (compressBlock s b)) r final) :
    SchedStep prep (traceWords (compressBlock s b) r) (traceLag (compressBlock s b) r)
      (traceSched (compressBlock s b) r) := by
  by_cases h : r < 80
  · by_cases h16 : 16 ≤ r
    · exact .inl ⟨hP.sched_one h16 h, traceRow_recurrence s b h16 h⟩
    · rw [traceSched, if_pos h, schedOps, if_neg h16]
      exact .inr ⟨hP.sched_zero (.inl (by omega)), rfl⟩
  · rw [traceSched, if_neg h]
    exact .inr ⟨hP.sched_zero (.inr (by omega)), rfl⟩

/-- The last row of the honest trace: zero words from `W` on, an empty delay line. -/
theorem traceRow_last (t : BlockTrace) : Vanish (evalLastRow (traceRow t 127).cell) := by
  refine (traceRow_filled_last t).vanish_lastRow (fun i h8 hi => ?_) (fun k hk => ?_) fun _ => rfl
  · unfold traceWords
    rw [if_neg (by omega), bne_self_eq_false]
    interval_cases i <;> rfl
  · rw [traceLag_of_lt t hk (by omega), traceWord, if_neg (by omega)]

/-- The instance constraints on a row of the honest trace. -/
theorem traceRow_inst {prep : RowView} {r : ℕ} {final : Bool}
    (hP : PrepAt prep s (traceWord (compressBlock s b)) r final) :
    Vanish (evalInstance (traceRow (compressBlock s b) r).cell prep) := by
  obtain ⟨hW, hK⟩ := traceRow_word (compressBlock s b) r
  refine (evalInstance_iff _ _).2 ⟨fun l hl => ?_, fun l hl => ?_, fun l hl => ?_⟩
  · by_cases h : r < 80
    · rw [hK h l hl, hP.constant h l hl, sub_self, mul_zero]
    · rw [hP.round_zero (by omega), zero_mul]
  · rw [hW l hl, hP.word l hl, sub_self, mul_zero]
  · by_cases h : r < 80
    · rw [hP.round_one h, sub_self, zero_mul]
    · rw [hW l hl, traceWord, if_neg h, limb_zero, Nat.cast_zero, mul_zero]

/-- Row `r` of the honest trace of an instance satisfies every constraint, against preprocessed rows
of the instance. -/
theorem traceRow_vanish {win : AirWindow} {r : ℕ} {final : Bool} (hr : r < 128)
    (hloc : win.loc = (traceRow (compressBlock s b) r).cell)
    (hnext : r < 127 → win.next = (traceRow (compressBlock s b) (r + 1)).cell)
    (hP : PrepAt win.locPrep s (traceWord (compressBlock s b)) r final)
    (hfinal : final = true → r = 80 ∧ win.publicValues = publicValuesOf (compressBlock s b))
    (hlast : win.isLast ≠ 0 → r = 127) : Vanish (eval win) := by
  obtain ⟨carry, hfill⟩ := exists_traceRow_filled (compressBlock s b) r
  have hstate : StateAt (traceRow (compressBlock s b) r).cell (traceState (compressBlock s b) r) := fun i hi => by
    rw [← traceWords_state _ _ hi]
    exact hfill.words i (by omega)
  rw [vanish_eval, hloc]
  refine ⟨traceRow_inst s b hP, ?_, ?_, fun wb hwb => ?_, ?_, hfill.vanish_range, hfill.vanish_lagBits, ?_, ?_⟩
  · rw [evalBlockStart_iff, hP.blockStart]
    intro i hi l hl
    by_cases h0 : r = 0
    · have hs : traceState (compressBlock s b) r = s := by
        rw [h0, traceState, if_pos (by omega), compressBlock_roundStates s b (by omega)]; rfl
      rw [hstate i hi l hl, hP.state i hi l hl, hs, sub_self, mul_zero]
    · rw [beq_eq_false_iff_ne.2 h0]; exact zero_mul _
  · rw [evalPublic_iff, hP.final]
    intro i hi
    cases final with
    | false => exact zero_mul _
    | true =>
      obtain ⟨rfl, hpv⟩ := hfinal rfl
      have hlast80 : traceState (compressBlock s b) 80 = (compressBlock s b).lastRoundState := by
        rw [traceState, if_pos le_rfl, getElem!_pos _ 80 (by omega)]
      rw [packWordFromLimbs_eq (hstate i hi), hpv, hlast80, publicValuesOf, Vector.getElem_map, getElem!_pos _ i hi,
        sub_self, mul_zero]
  · by_cases h : r < 80
    · rw [hP.round_one h]
      exact hfill.vanish_bitWord hwb
    · rw [hP.round_zero (by omega)]
      exact evalBitWord_zero _ _ _
  · by_cases h : r < 80
    · rw [hP.round_one h]
      have hw : traceWords (compressBlock s b) r =
          roundWords (compressBlock s b).roundStates[r]! (compressBlock s b).words[r]! K[r]! := if_pos h
      rw [hw] at hfill
      generalize (compressBlock s b).roundStates[r]! = S at hfill
      generalize (traceRow (compressBlock s b) r).cell = row at hfill ⊢
      exact hfill.vanish_bitwise rfl rfl rfl rfl
    · rw [hP.round_zero (by omega)]
      exact evalBitwise_zero _
  -- the last row of the segment has its transition selector off
  · by_cases h : r = 127
    · refine .inr (.inl ?_)
      rw [hP.transition, h]; rfl
    · refine .inr (.inr ?_)
      obtain ⟨carry', hfill'⟩ := exists_traceRow_filled (compressBlock s b) (r + 1)
      rw [hnext (by omega)]
      exact (traceRow_filled _ h).vanish_transition hfill' (traceRow_step s b (by omega)) (traceRow_sched s b hP)
  · by_cases h : win.isLast = 0
    · exact .inl h
    · obtain rfl := hlast h
      exact .inr (traceRow_last _)

end Compression

end Sha512Circuit
