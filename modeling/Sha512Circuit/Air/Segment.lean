/-
One 128-row segment of an arbitrary main trace. If the constraints hold on a segment whose
preprocessed rows carry an instance, its rows 0 to 80 are those of the instance's compression.

The argument has three parts. Rows: `D` and `H` are range-proved on every row, and the register
shifts carry their words back to `A, B, C` and `E, F, G`, so rows 0 to 80 hold states; row 80 is
reached from rows 81 to 83. Rounds: on rows 0 to 79 the bits, bitwise and addition constraints make
one row the round step of the row before. Schedule: the delay line holds the last words from row
`k + 1` on, so from row 16 the recurrence fixes `W`.
-/
import Sha512Circuit.Air.PrepSpec

namespace Sha512Circuit

open FieldBits (IsBit ofBool)

/-! ## States in rows -/

theorem exists_stateAt {row : RowView} (h : ∀ i < 8, ∃ x, WordAt row (limbCol i) x) : ∃ s, StateAt row s := by
  choose! x hx using h
  refine ⟨Vector.ofFn fun i => x i, fun i hi => ?_⟩
  rw [getElem!_pos _ i hi, Vector.getElem_ofFn]
  exact hx i hi

/-- A shifted register holds the word its source held. -/
theorem ShiftsTo.wordAt {loc next : RowView} (h : ShiftsTo loc next) {w : ℕ} {x : U64} (hw : w < 7) (hw3 : w ≠ 3) :
    WordAt next (limbCol (w + 1)) x ↔ WordAt loc (limbCol w) x := by
  constructor
  · exact fun hx => hx.of_eq fun l hl => (h w hw hw3 l hl).symm
  · exact fun hx => hx.of_eq fun l hl => h w hw hw3 l hl

/-- The states of a row and its successor under the register shifts. -/
theorem ShiftsTo.state {loc next : RowView} (h : ShiftsTo loc next) {s s' : State} (hs : StateAt loc s)
    (hs' : StateAt next s') {w : ℕ} (hw : w < 7) (hw3 : w ≠ 3) : s'[w + 1]! = s[w]! :=
  ((h.wordAt hw hw3).1 (hs' (w + 1) (by omega))).inj (hs w (by omega))

/-! ## Round rows -/

theorem roundWords_state (s : State) (x k : U64) {i : ℕ} (hi : i < 8) : roundWords s x k i = s[i]! := by
  rw [getElem!_pos s i hi]
  interval_cases i <;> rfl

/-- The constraints of a round row, except for the schedule and the delay line. -/
structure RoundHolds (loc next : RowView) : Prop where
  bits : ∀ wb ∈ bitWords, Vanish (evalBitWord loc 1 wb.1 wb.2)
  bitwise : Vanish (evalBitwise loc 1)
  range : Vanish (evalRange loc)
  t1 : Vanish (constrainAdd5Limbs loc wordH wordSigma1 wordCh wordK wordW wordT1 carryT1Base)
  t2 : Vanish (constrainAdd2Limbs loc wordSigma0 wordMaj wordT2 carryT2Base)
  a : Vanish (constrainAdd2LimbsAcrossRows loc next wordT1 wordT2 wordA carryABase)
  e : Vanish (constrainAdd2LimbsAcrossRows loc next wordD wordT1 wordE carryEBase)
  shift : ShiftsTo loc next

/-- The bit columns of a round row are the bits of its state. -/
theorem RoundHolds.bitsAt {loc next : RowView} (h : RoundHolds loc next) {s : State} (hs : StateAt loc s)
    {wb : ℕ × ℕ} (hwb : wb ∈ bitWords) : BitsAt loc wb.2 s[wb.1]! := by
  obtain ⟨x, hx, hbits⟩ := (evalBitWord_one loc wb.1 wb.2).1 (h.bits wb hwb)
  rwa [hx.inj (hs wb.1 (bitWords_bounds wb hwb).1)] at hbits

/-- On a round row that holds a state, a schedule word and a round constant, every word is the one
the round computes, the carries are those of its additions, and the next row holds the next state. -/
theorem RoundHolds.sound {loc next : RowView} (h : RoundHolds loc next) {s s' : State} {x k : U64}
    (hs : StateAt loc s) (hs' : StateAt next s') (hx : WordAt loc (limbCol wordW) x)
    (hk : WordAt loc (limbCol wordK) k) (sched : List U64) :
    (∀ i < 16, WordAt loc (limbCol i) (roundWords s x k i)) ∧
      (∀ c, 64 ≤ c → c < 80 → CarryAt loc c (rowCarry (roundWords s x k) sched c)) ∧ s' = Fips.step k x s := by
  have ha := h.bitsAt hs (show (wordA, bitABase) ∈ bitWords by decide)
  have hb := h.bitsAt hs (show (wordB, bitBBase) ∈ bitWords by decide)
  have hc := h.bitsAt hs (show (wordC, bitCBase) ∈ bitWords by decide)
  have he := h.bitsAt hs (show (wordE, bitEBase) ∈ bitWords by decide)
  have hf := h.bitsAt hs (show (wordF, bitFBase) ∈ bitWords by decide)
  have hg := h.bitsAt hs (show (wordG, bitGBase) ∈ bitWords by decide)
  obtain ⟨hσ0, hσ1, hch, hmaj⟩ := (evalBitwise_one ha hb hc he hf hg).1 h.bitwise
  -- `T1` and `T2` are words by their range proofs; only the additions say which
  obtain ⟨t1, ht1⟩ := wordAt_of_range h.range (show wordT1 ∈ rangedWords by decide)
  obtain ⟨t2, ht2⟩ := wordAt_of_range h.range (show wordT2 ∈ rangedWords by decide)
  obtain ⟨et1, c1⟩ := (constrainAdd5Limbs_iff carryLane_t1 (hs 7 (by omega)) hσ1 hch hk hx ht1).1 h.t1
  obtain ⟨et2, c2⟩ := (constrainAdd2Limbs_iff (carryLane_one (.inl rfl)) hσ0 hmaj ht2).1 h.t2
  obtain ⟨ea, cA⟩ := (constrainAdd2LimbsAcrossRows_iff (carryLane_one (.inr (.inl rfl))) ht1 ht2
    (hs' 0 (by omega))).1 h.a
  obtain ⟨ee, cE⟩ := (constrainAdd2LimbsAcrossRows_iff (carryLane_one (.inr (.inr rfl))) (hs 3 (by omega)) ht1
    (hs' 4 (by omega))).1 h.e
  have w14 : t1 = roundWords s x k 14 := et1
  have w15 : t2 = roundWords s x k 15 := et2
  refine ⟨fun i hi => ?_, fun c h1 h2 => ?_, ?_⟩
  · by_cases h8 : i < 8
    · rw [roundWords_state s x k h8]
      exact hs i h8
    · interval_cases i
      exacts [hx, hk, hσ0, hσ1, hch, hmaj, w14 ▸ ht1, w15 ▸ ht2]
  · rw [w14, w15] at cA
    rw [w14] at cE
    -- one lane of four carries for each addition, in column order
    unfold rowCarry
    by_cases h68 : c < 68
    · rw [if_pos h68]
      exact c1.carryAt h1 h68
    rw [if_neg h68]
    by_cases h72 : c < 72
    · rw [if_pos h72]
      exact c2.carryAt (Nat.not_lt.1 h68) h72
    rw [if_neg h72]
    by_cases h76 : c < 76
    · rw [if_pos h76]
      exact cA.carryAt (Nat.not_lt.1 h72) h76
    rw [if_neg h76, if_pos h2]
    exact cE.carryAt (Nat.not_lt.1 h76) h2
  · refine Bytes.ext_getElem! fun i hi => ?_
    interval_cases i
    · rw [ea, w14, w15]; rfl
    · exact h.shift.state hs hs' (show 0 < 7 by omega) (by omega)
    · exact h.shift.state hs hs' (show 1 < 7 by omega) (by omega)
    · exact h.shift.state hs hs' (show 2 < 7 by omega) (by omega)
    · rw [ee, w14]; rfl
    · exact h.shift.state hs hs' (show 4 < 7 by omega) (by omega)
    · exact h.shift.state hs hs' (show 5 < 7 by omega) (by omega)
    · exact h.shift.state hs hs' (show 6 < 7 by omega) (by omega)

/-! ## Segments -/

/-- The constraints of a segment: main rows `M`, preprocessed rows `P`. Only what rows 0 to 83 need
of the transitions is kept. -/
structure SegmentHolds (M P : ℕ → RowView) (publicValues : Vector BabyBear 8) : Prop where
  inst : ∀ r < 128, Vanish (evalInstance (M r) (P r))
  blockStart : Vanish (evalBlockStart (M 0) (P 0))
  publics : Vanish (evalPublic (M 80) (P 80) publicValues)
  bits : ∀ r < 128, ∀ wb ∈ bitWords, Vanish (evalBitWord (M r) (P r prepRoundSelectorCol) wb.1 wb.2)
  bitwise : ∀ r < 128, Vanish (evalBitwise (M r) (P r prepRoundSelectorCol))
  range : ∀ r < 128, Vanish (evalRange (M r))
  lagBits : ∀ r < 128, Vanish (evalLagBits (M r))
  transition : ∀ r < 83, Vanish (evalTransition (M r) (M (r + 1)) (P r))

section Segment

variable {M P : ℕ → RowView} {publicValues : Vector BabyBear 8} (h : SegmentHolds M P publicValues)
include h

/-- The states of rows 0 to 80. `D` and `H` are range-proved; `C`, `B`, `A` and `G`, `F`, `E` of a
row are `D` and `H` one, two and three rows on. -/
theorem SegmentHolds.exists_states : ∃ S : ℕ → State, ∀ r ≤ 80, StateAt (M r) (S r) := by
  have hD : ∀ r < 128, ∃ x, WordAt (M r) (limbCol 3) x := fun r hr => wordAt_of_range (h.range r hr) (by decide)
  have hH : ∀ r < 128, ∃ x, WordAt (M r) (limbCol 7) x := fun r hr => wordAt_of_range (h.range r hr) (by decide)
  -- a word in a shifted register was a word in the register before it, one row earlier
  have back : ∀ r < 83, ∀ w < 7, w ≠ 3 → (∃ x, WordAt (M (r + 1)) (limbCol (w + 1)) x) →
      ∃ x, WordAt (M r) (limbCol w) x := by
    rintro r hr w hw hw3 ⟨x, hx⟩
    obtain ⟨-, -, -, -, hshift, -⟩ := (evalTransition_iff _ _ _).1 (h.transition r hr)
    exact ⟨x, (hshift.wordAt hw hw3).1 hx⟩
  have hC : ∀ r < 83, ∃ x, WordAt (M r) (limbCol 2) x := fun r hr => back r hr 2 (by omega) (by omega) (hD _ (by omega))
  have hB : ∀ r < 82, ∃ x, WordAt (M r) (limbCol 1) x := fun r hr =>
    back r (by omega) 1 (by omega) (by omega) (hC _ (by omega))
  have hA : ∀ r < 81, ∃ x, WordAt (M r) (limbCol 0) x := fun r hr =>
    back r (by omega) 0 (by omega) (by omega) (hB _ (by omega))
  have hG : ∀ r < 83, ∃ x, WordAt (M r) (limbCol 6) x := fun r hr => back r hr 6 (by omega) (by omega) (hH _ (by omega))
  have hF : ∀ r < 82, ∃ x, WordAt (M r) (limbCol 5) x := fun r hr =>
    back r (by omega) 5 (by omega) (by omega) (hG _ (by omega))
  have hE : ∀ r < 81, ∃ x, WordAt (M r) (limbCol 4) x := fun r hr =>
    back r (by omega) 4 (by omega) (by omega) (hF _ (by omega))
  have hS : ∀ r ≤ 80, ∃ s, StateAt (M r) s := by
    intro r hr
    refine exists_stateAt fun i hi => ?_
    interval_cases i
    exacts [hA r (by omega), hB r (by omega), hC r (by omega), hD r (by omega), hE r (by omega), hF r (by omega),
      hG r (by omega), hH r (by omega)]
  choose! S hS using hS
  exact ⟨S, hS⟩

/-- The `W` words of all rows. -/
theorem SegmentHolds.exists_words : ∃ X : ℕ → U64, ∀ r < 128, WordAt (M r) (limbCol wordW) (X r) := by
  have hX : ∀ r < 128, ∃ x, WordAt (M r) (limbCol wordW) x := fun r hr => wordAt_of_range (h.range r hr) (by decide)
  choose! X hX using hX
  exact ⟨X, hX⟩

/-- The delay line: lag `k` of row `r` is `W` of row `r - 1 - k`, once the row is past it. -/
theorem SegmentHolds.lags {X : ℕ → U64} (hX : ∀ r < 128, WordAt (M r) (limbCol wordW) (X r)) :
    ∀ r < 80, ∀ k < 16, k < r → WordAt (M r) (lagLimbCol k) (X (r - 1 - k))
  | 0, _, k, _, hk => absurd hk (Nat.not_lt_zero k)
  | r + 1, hr, k, hk16, hk => by
    obtain ⟨-, -, -, -, -, hdelay, -⟩ := (evalTransition_iff _ _ _).1 (h.transition r (by omega))
    cases k with
    | zero =>
      refine (hX r (by omega)).of_eq fun l hl => ?_
      rw [hdelay 0 (by omega) l hl, if_pos rfl]
    | succ k =>
      have ih := SegmentHolds.lags hX r (by omega) k (by omega) (by omega)
      rw [show r + 1 - 1 - (k + 1) = r - 1 - k by omega]
      refine ih.of_eq fun l hl => ?_
      rw [hdelay (k + 1) hk16 l hl, if_neg (Nat.succ_ne_zero k), Nat.add_sub_cancel]

section Instance

variable {s : State} {b : Block} {final : ℕ → Bool}
  (hP : ∀ r < 128, PrepAt (P r) s (traceWord (compressBlock s b)) r (final r))
include hP

/-- The selectors of a round row. -/
theorem SegmentHolds.roundHolds {r : ℕ} (hr : r < 80) : RoundHolds (M r) (M (r + 1)) := by
  have hsel := (hP r (by omega)).round_one hr
  have hbits := h.bits r (by omega)
  have hbitwise := h.bitwise r (by omega)
  rw [hsel] at hbits hbitwise
  obtain ⟨t1, t2, a, e, shift, -, -⟩ := (evalTransition_iff _ _ _).1 (h.transition r (by omega))
  exact ⟨hbits, hbitwise, h.range r (by omega), t1, t2, a, e, shift⟩

/-- The round constants. -/
theorem SegmentHolds.constant {r : ℕ} (hr : r < 80) : WordAt (M r) (limbCol wordK) K[r]! := by
  have hprep := hP r (by omega)
  obtain ⟨hK, -, -⟩ := (evalInstance_iff _ _).1 (h.inst r (by omega))
  simp only [hprep.round_one hr, one_mul, sub_eq_zero] at hK
  exact (hprep.constant hr).of_eq hK

/-- The first sixteen words are the block's. -/
theorem SegmentHolds.initWord {X : ℕ → U64} (hX : ∀ r < 128, WordAt (M r) (limbCol wordW) (X r)) {r : ℕ}
    (hr : r < 16) : X r = Fips.W (blockWord b) r := by
  have hprep := hP r (by omega)
  obtain ⟨-, hW, -⟩ := (evalInstance_iff _ _).1 (h.inst r (by omega))
  simp only [hprep.initW_one hr, one_mul, sub_eq_zero] at hW
  rw [← traceWord_compressBlock s b (show r < 80 by omega)]
  exact (hX r (by omega)).inj (hprep.word.of_eq hW)

/-- From row 16 on the recurrence fixes the word from the delay line. -/
theorem SegmentHolds.schedWord {X : ℕ → U64} (hX : ∀ r < 128, WordAt (M r) (limbCol wordW) (X r)) {r : ℕ}
    (h16 : 16 ≤ r) (hr : r < 80) :
    X r = smallSigma1 (X (r - 2)) + X (r - 7) + smallSigma0 (X (r - 15)) + X (r - 16) := by
  have hlag : ∀ k < 16, WordAt (M r) (lagLimbCol k) (X (r - 1 - k)) := fun k hk => h.lags hX r hr k hk (by omega)
  obtain ⟨⟨x1, hx1, hb1⟩, x14, hx14, hb14⟩ := (evalLagBits_iff _).1 (h.lagBits r (by omega))
  -- the words decomposed for lags 1 and 14 are those the delay line holds there
  rw [hx1.inj (hlag 1 (by omega)), show r - 1 - 1 = r - 2 by omega] at hb1
  rw [hx14.inj (hlag 14 (by omega)), show r - 1 - 14 = r - 15 by omega] at hb14
  have h6 := hlag 6 (by omega)
  have h15 := hlag 15 (by omega)
  rw [show r - 1 - 6 = r - 7 by omega] at h6
  rw [show r - 1 - 15 = r - 16 by omega] at h15
  obtain ⟨-, -, -, -, -, -, hrec⟩ := (evalTransition_iff _ _ _).1 (h.transition r (by omega))
  rw [(hP r (by omega)).sched_one h16 hr, constrainScheduleRecurrence_one hb1 h6 hb14 h15 (hX r (by omega))] at hrec
  exact hrec.1

/-- The `W` words of the rounds are the block's schedule. -/
theorem SegmentHolds.words {X : ℕ → U64} (hX : ∀ r < 128, WordAt (M r) (limbCol wordW) (X r)) (r : ℕ) :
    r < 80 → X r = Fips.W (blockWord b) r := by
  induction r using Nat.strong_induction_on with
  | _ r ih =>
    intro hr
    by_cases h16 : r < 16
    · exact h.initWord hP hX h16
    · rw [h.schedWord hP hX (by omega) hr, W_ge _ (by omega), ih (r - 2) (by omega) (by omega),
        ih (r - 7) (by omega) (by omega), ih (r - 15) (by omega) (by omega), ih (r - 16) (by omega) (by omega)]

/-- Row 0 holds the initial state. -/
theorem SegmentHolds.start {S : ℕ → State} (hS : ∀ r ≤ 80, StateAt (M r) (S r)) : S 0 = s := by
  have hsel : P 0 prepBlockStartSelectorCol = 1 := (hP 0 (by omega)).blockStart
  have hstart := (evalBlockStart_iff _ _).1 h.blockStart
  simp only [hsel, one_mul, sub_eq_zero] at hstart
  exact (hS 0 (by omega)).inj fun i hi => ((hP 0 (by omega)).state i hi).of_eq (hstart i hi)

/-- The states of rows 0 to 80 are the rounds over the block's schedule. -/
theorem SegmentHolds.states {S : ℕ → State} (hS : ∀ r ≤ 80, StateAt (M r) (S r)) :
    ∀ r ≤ 80, S r = Fips.rounds (Fips.W (blockWord b)) s r
  | 0, _ => h.start hP hS
  | r + 1, hr => by
    obtain ⟨X, hX⟩ := h.exists_words
    obtain ⟨-, -, hstep⟩ := (h.roundHolds hP (show r < 80 by omega)).sound (hS r (by omega)) (hS (r + 1) hr)
      (hX r (by omega)) (h.constant hP (by omega)) []
    rw [hstep, SegmentHolds.states hS r (by omega), h.words hP hX r (by omega)]
    rfl

/-- Rows 0 to 80 of a segment are the run of a recorded trace: its states, and in the rounds the
words and carries computed from them. -/
structure SegmentRun (M : ℕ → RowView) (t : BlockTrace) : Prop where
  state : ∀ r ≤ 80, StateAt (M r) t.roundStates[r]!
  words : ∀ r < 80, ∀ i < 16, WordAt (M r) (limbCol i) (roundWords t.roundStates[r]! t.words[r]! K[r]! i)
  carries : ∀ r < 80, ∀ c, 64 ≤ c → c < 80 →
    CarryAt (M r) c (rowCarry (roundWords t.roundStates[r]! t.words[r]! K[r]!) (schedOps t.words r) c)

/-- Soundness of a segment. -/
theorem SegmentHolds.run : SegmentRun M (compressBlock s b) := by
  obtain ⟨S, hS⟩ := h.exists_states
  obtain ⟨X, hX⟩ := h.exists_words
  have hstate : ∀ r ≤ 80, S r = (compressBlock s b).roundStates[r]! := fun r hr => by
    rw [h.states hP hS r hr, compressBlock_roundStates s b hr]
  have hword : ∀ r < 80, X r = (compressBlock s b).words[r]! := fun r hr => by
    rw [h.words hP hX r hr, compressBlock_words s b hr]
  have hround : ∀ r < 80, _ := fun r (hr : r < 80) => (h.roundHolds hP hr).sound (hS r (by omega)) (hS (r + 1) (by omega))
    (hX r (by omega)) (h.constant hP hr) (schedOps (compressBlock s b).words r)
  refine ⟨fun r hr => hstate r hr ▸ hS r hr, fun r hr i hi => ?_, fun r hr c h1 h2 => ?_⟩
  · have := (hround r hr).1 i hi
    rwa [hstate r (by omega), hword r hr] at this
  · have := (hround r hr).2.1 c h1 h2
    rwa [hstate r (by omega), hword r hr] at this

/-- The public values of a segment with the final selector. -/
theorem SegmentHolds.publicValues_eq (hfinal : final 80 = true) :
    publicValues = publicValuesOf (compressBlock s b) := by
  have hsel : P 80 prepFinalSelectorCol = 1 := by
    rw [(hP 80 (by omega)).final, hfinal]; rfl
  have hpub := (evalPublic_iff _ _ _).1 h.publics
  refine Vector.ext fun i hi => ?_
  have hlast : (compressBlock s b).roundStates[80]! = (compressBlock s b).lastRoundState :=
    getElem!_pos _ 80 (by omega)
  have hi' := hpub i hi
  rw [hsel, one_mul, sub_eq_zero, packWordFromLimbs_eq ((h.run hP).state 80 le_rfl i hi), hlast,
    getElem!_pos _ i hi] at hi'
  rw [publicValuesOf, Vector.getElem_map, hi']

end Instance

end Segment

end Sha512Circuit
