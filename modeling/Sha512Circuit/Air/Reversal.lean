/-
Traces backwards. The schedule recurrence and the rounds can both be solved for the oldest value, so
sixteen consecutive schedule words and one working state, wherever they stand, are recorded by exactly
one validated trace, and the accepted main traces that show them are traces of one instance.
-/
import Sha512Circuit.Air.SingleBlock
import Sha512Circuit.Air.PublicValues

namespace Sha512Circuit

/-! ## The schedule backwards -/

/-- The sixteen schedule words before one step, from the sixteen after it. -/
def backWindow (ws : ℕ → U64) (i : ℕ) : U64 :=
  if i = 0 then ws 15 - (smallSigma1 (ws 13) + ws 8 + smallSigma0 (ws 0)) else ws (i - 1)

/-- The words of a block whose schedule has the words `ws` from `k` on. -/
def windowBack : ℕ → (ℕ → U64) → ℕ → U64
  | 0, ws => ws
  | k + 1, ws => windowBack k (backWindow ws)

theorem W_windowBack : ∀ (k : ℕ) (ws : ℕ → U64) {i : ℕ}, i < 16 → Fips.W (windowBack k ws) (k + i) = ws i
  | 0, ws, i, hi => by rw [Nat.zero_add, windowBack, W_lt _ hi]
  | k + 1, ws, i, hi => by
    have ih : ∀ i < 16, Fips.W (windowBack (k + 1) ws) (k + i) = backWindow ws i := fun i hi =>
      W_windowBack k (backWindow ws) hi
    by_cases h15 : i = 15
    -- the newest word is a step of the recurrence from the window before it
    · subst h15
      rw [show k + 1 + 15 = k + 16 by omega, W_ge _ (by omega), show k + 16 - 2 = k + 14 by omega,
        show k + 16 - 7 = k + 9 by omega, show k + 16 - 15 = k + 1 by omega, show k + 16 - 16 = k + 0 by omega,
        ih 14 (by omega), ih 9 (by omega), ih 1 (by omega), ih 0 (by omega)]
      show smallSigma1 (ws 13) + ws 8 + smallSigma0 (ws 0) +
        (ws 15 - (smallSigma1 (ws 13) + ws 8 + smallSigma0 (ws 0))) = ws 15
      rw [BitVec.add_comm, BitVec.sub_add_cancel]
    · rw [show k + 1 + i = k + (i + 1) by omega, ih (i + 1) (by omega)]
      rfl

/-- Sixteen consecutive words determine the words of the block. -/
theorem W_window_inj {M M' : ℕ → U64} :
    ∀ {k : ℕ}, (∀ i < 16, Fips.W M (k + i) = Fips.W M' (k + i)) → ∀ i < 16, M i = M' i
  | 0, h, i, hi => by
    have := h i hi
    rwa [Nat.zero_add, W_lt _ hi, W_lt _ hi] at this
  | k + 1, h, i, hi => by
    refine W_window_inj (k := k) (fun i hi => ?_) i hi
    by_cases h0 : i = 0
    · subst h0
      have hstep := h 15 (by omega)
      rw [show k + 1 + 15 = k + 16 by omega, W_ge M (by omega), W_ge M' (by omega),
        show k + 16 - 2 = k + 1 + 13 by omega, show k + 16 - 7 = k + 1 + 8 by omega,
        show k + 16 - 15 = k + 1 + 0 by omega, show k + 16 - 16 = k + 0 by omega, h 13 (by omega), h 8 (by omega),
        h 0 (by omega)] at hstep
      exact (BitVec.add_right_inj _).1 hstep
    · have := h (i - 1) (by omega)
      rwa [show k + 1 + (i - 1) = k + i by omega] at this

/-! ## The rounds backwards -/

theorem unstep_step (k w : U64) (v : State) : unstep k w (Fips.step k w v) = v := by
  have ht1 : ∀ t x y z u : U64, t + x + y + z + u - (x + y + z + u) = t := fun t x y z u => by
    have e : t + x + y + z + u = t + (x + y + z + u) := by simp only [BitVec.add_assoc]
    rw [e, BitVec.add_sub_cancel]
  -- `T1` is what remains of the next `A` after `T2`
  have hT1 : v.h + Fips.Sigma1 v.e + Fips.Ch v.e v.f v.g + k + w + (Fips.Sigma0 v.a + Fips.Maj v.a v.b v.c) -
      (Fips.Sigma0 v.a + Fips.Maj v.a v.b v.c) = v.h + Fips.Sigma1 v.e + Fips.Ch v.e v.f v.g + k + w :=
    BitVec.add_sub_cancel _ _
  refine Vector.ext fun i hi => ?_
  obtain rfl | rfl | rfl | rfl | rfl | rfl | rfl | rfl :
      i = 0 ∨ i = 1 ∨ i = 2 ∨ i = 3 ∨ i = 4 ∨ i = 5 ∨ i = 6 ∨ i = 7 := by omega
  · rfl
  · rfl
  · rfl
  · exact (congrArg (v.d + (v.h + Fips.Sigma1 v.e + Fips.Ch v.e v.f v.g + k + w) - ·) hT1).trans
      (BitVec.add_sub_cancel _ _)
  · rfl
  · rfl
  · rfl
  · exact (congrArg (· - (Fips.Sigma1 v.e + Fips.Ch v.e v.f v.g + k + w)) hT1).trans (ht1 _ _ _ _ _)

theorem unrounds_rounds (w : ℕ → U64) : ∀ (t : ℕ) (v : State), unrounds w (Fips.rounds w v t) t = v
  | 0, _ => rfl
  | t + 1, v => by rw [Fips.rounds, unrounds, unstep_step, unrounds_rounds w t]

theorem rounds_injective {w : ℕ → U64} {t : ℕ} {v v' : State} (h : Fips.rounds w v t = Fips.rounds w v' t) : v = v' := by
  rw [← unrounds_rounds w t v, h, unrounds_rounds]

/-! ## Windows of a compression -/

section Compress

variable {s s' : State} {b b' : Block} {k r : ℕ}

/-- A compression is determined by sixteen consecutive words and one state. -/
theorem compressBlock_window_inj (hk : k ≤ 64) (hr : r ≤ 80)
    (hwords : ∀ i < 16, (compressBlock s b).words[k + i]! = (compressBlock s' b').words[k + i]!)
    (hstate : (compressBlock s b).roundStates[r]! = (compressBlock s' b').roundStates[r]!) : s = s' ∧ b = b' := by
  have hb : b = b' := by
    refine blockWord_inj (W_window_inj (k := k) fun i hi => ?_)
    rw [← compressBlock_words s b (by omega), ← compressBlock_words s' b' (by omega)]
    exact hwords i hi
  subst hb
  rw [compressBlock_roundStates _ _ hr, compressBlock_roundStates _ _ hr] at hstate
  exact ⟨rounds_injective hstate, rfl⟩

/-- Every window and every state occur. -/
theorem exists_compressBlock_window (hk : k ≤ 64) (hr : r ≤ 80) (ws : ℕ → U64) (v : State) : ∃ s b,
    (∀ i < 16, (compressBlock s b).words[k + i]! = ws i) ∧ (compressBlock s b).roundStates[r]! = v := by
  have hblock : ∀ i < 16, blockWord (blockOfWords (Vector.ofFn fun j => windowBack k ws j)) i = windowBack k ws i :=
    fun i hi => by rw [blockWord_blockOfWords _ hi, getElem!_pos _ i (by omega), Vector.getElem_ofFn]
  generalize blockOfWords (Vector.ofFn fun j => windowBack k ws j) = b at hblock
  refine ⟨unrounds (Fips.W (blockWord b)) v r, b, fun i hi => ?_, ?_⟩
  · rw [compressBlock_words _ b (by omega), W_congr hblock, W_windowBack k ws hi]
  · rw [compressBlock_roundStates _ b hr, rounds_unrounds]

end Compress

/-- The feed-forward returns the state it was given exactly if the rounds end in zero. -/
theorem feedForward_eq_self_iff {s l : State} : feedForward s l = s ↔ l = Vector.replicate 8 0 := by
  have hword : ∀ (i : ℕ) (hi : i < 8), (feedForward s l)[i] = s[i] ↔ l[i] = (Vector.replicate 8 0 : State)[i] := by
    intro i hi
    rw [feedForward_eq, Vector.getElem_ofFn, Vector.getElem_replicate]
    exact BitVec.add_right_eq_self
  constructor
  · exact fun h => Vector.ext fun i hi => (hword i hi).1 (by rw [h])
  · exact fun h => Vector.ext fun i hi => (hword i hi).2 (by rw [h])

/-! ## Traces -/

/-- The state and the words that a row range of an accepted main trace shows. -/
theorem segmentRun_window {M M' : RowMajorMatrix} {t t' : BlockTrace} (h : SegmentRun M.rowView t)
    (h' : SegmentRun M'.rowView t') {k r : ℕ} (hk : k ≤ 64) (hr : r ≤ 80)
    (hwords : ∀ i < 16, ∀ l < 4, M.rowView (k + i) (limbCol wordW l) = M'.rowView (k + i) (limbCol wordW l))
    (hstate : ∀ w < 8, ∀ l < 4, M.rowView r (limbCol w l) = M'.rowView r (limbCol w l)) :
    (∀ i < 16, t.words[k + i]! = t'.words[k + i]!) ∧ t.roundStates[r]! = t'.roundStates[r]! := by
  constructor
  · intro i hi
    have hword := h.words (k + i) (by omega) 8 (by omega)
    have hword' := h'.words (k + i) (by omega) 8 (by omega)
    exact (hword.of_eq fun l hl => (hwords i hi l hl).symm).inj hword'
  · have hs : StateAt (M'.rowView r) t.roundStates[r]! := fun w hw =>
      (h.state r hr w hw).of_eq fun l hl => (hstate w hw l hl).symm
    exact hs.inj (h'.state r hr)

/-- Traces are reversible: any sixteen consecutive schedule words and any one of the 81 working states
are recorded by exactly one trace that `verify_block_trace` accepts; so every block has exactly one
state that its compression leaves as it is; and main traces that the AIR accepts for two instances
show the same words in sixteen consecutive rounds and the same state in one row only if the instances
are equal. -/
theorem traces_reversible :
    (∀ (k r : ℕ) (ws : ℕ → U64) (v : State), k ≤ 64 → r ≤ 80 →
      ∃! t : BlockTrace, verifyBlockTrace t = true ∧ (∀ i < 16, t.words[k + i]! = ws i) ∧ t.roundStates[r]! = v) ∧
    (∀ b : Block, ∃! s : State, (compressBlock s b).outputState = s) ∧
    ∀ (s s' : State) (b b' : Block) (M M' : RowMajorMatrix) (publicValues publicValues' : Vector BabyBear 8) (k r : ℕ),
      k ≤ 64 → r ≤ 80 → M.width = airWidth → M.height = traceRows → M'.width = airWidth → M'.height = traceRows →
      verifyWithPreprocessed M (buildPlonky3PreprocessedTraceFromInstance s b) publicValues = true →
      verifyWithPreprocessed M' (buildPlonky3PreprocessedTraceFromInstance s' b') publicValues' = true →
      (∀ i < 16, ∀ l < 4, M.rowView (k + i) (limbCol wordW l) = M'.rowView (k + i) (limbCol wordW l)) →
      (∀ w < 8, ∀ l < 4, M.rowView r (limbCol w l) = M'.rowView r (limbCol w l)) → s = s' ∧ b = b' := by
  refine ⟨fun k r ws v hk hr => ?_, fun b => ?_, ?_⟩
  · obtain ⟨s, b, hwords, hstate⟩ := exists_compressBlock_window hk hr ws v
    refine ⟨compressBlock s b, ⟨verifyBlockTrace_compressBlock s b, hwords, hstate⟩, fun t' ⟨haccept, hwords', hstate'⟩ => ?_⟩
    have ht' := eq_compressBlock_of_verifyBlockTrace haccept
    generalize t'.inputState = s', blockOfWords t'.words = b' at ht'
    subst ht'
    have hsame : ∀ i < 16, (compressBlock s' b').words[k + i]! = (compressBlock s b).words[k + i]! := fun i hi =>
      (hwords' i hi).trans (hwords i hi).symm
    obtain ⟨rfl, rfl⟩ := compressBlock_window_inj hk hr hsame (hstate'.trans hstate.symm)
    rfl
  · have hfixed : ∀ s, (compressBlock s b).outputState = s ↔
        Fips.rounds (Fips.W (blockWord b)) s 80 = Vector.replicate 8 0 := fun s => by
      rw [compressBlock_outputState, feedForward_eq_self_iff]
    refine ⟨unrounds (Fips.W (blockWord b)) (Vector.replicate 8 0) 80, (hfixed _).2 (rounds_unrounds _ _ _), fun s hs => ?_⟩
    exact rounds_injective (((hfixed s).1 hs).trans (rounds_unrounds _ _ _).symm)
  · intro s s' b b' M M' publicValues publicValues' k r hk hr hw hh hw' hh' h h' hwords hstate
    obtain ⟨hrun, -⟩ := verifyWithPreprocessed_run hw hh h
    obtain ⟨hrun', -⟩ := verifyWithPreprocessed_run hw' hh' h'
    obtain ⟨hws, hst⟩ := segmentRun_window hrun hrun' hk hr hwords hstate
    exact compressBlock_window_inj hk hr hws hst

/-- The middle of a trace: zero words in rounds 32 to 47 and a zero state after round 40; and the honest
main trace of the zero block is accepted for one instance. -/
theorem traces_reversible_zero :
    (∃! t : BlockTrace, verifyBlockTrace t = true ∧ (∀ i < 16, t.words[32 + i]! = 0) ∧
      t.roundStates[40]! = Vector.replicate 8 0) ∧
    ∀ (s : State) (b : Block), verifyWithPreprocessed
        (buildPlonky3AirTrace (compressBlock initialState (Vector.replicate 128 0)))
        (buildPlonky3PreprocessedTraceFromInstance s b) (publicValuesOf (compressBlock s b)) = true →
      initialState = s ∧ Vector.replicate 128 0 = b := by
  obtain ⟨htrace, -, hmain⟩ := traces_reversible
  refine ⟨htrace 32 40 (fun _ => 0) (Vector.replicate 8 0) (by omega) (by omega), fun s b h => ?_⟩
  exact hmain initialState s (Vector.replicate 128 0) b _ _ _ _ 0 0 (by omega) (by omega) (airTrace_width _)
    (airTrace_height _) (airTrace_width _) (airTrace_height _) (airTrace_verifies _ _) h (fun _ _ _ _ => rfl)
    fun _ _ _ _ => rfl

end Sha512Circuit
