/-
`compress_block` against the standard's compression function: the schedule loop computes `W_t`, the
in-place register rotation computes the rounds, and the recorded trace is the run they define.
-/
import Sha512Circuit.Compress.Fips
import Sha512Circuit.Lib.Loop
import Mathlib.Tactic.IntervalCases

namespace Sha512Circuit

/-! ## The standard's schedule -/

theorem smallSigma0_eq (x : U64) : smallSigma0 x = Fips.sigma0 x := rfl
theorem smallSigma1_eq (x : U64) : smallSigma1 x = Fips.sigma1 x := rfl

theorem W_lt (M : ℕ → U64) {t : ℕ} (h : t < 16) : Fips.W M t = M t := by rw [Fips.W, if_pos h]

theorem W_ge (M : ℕ → U64) {t : ℕ} (h : 16 ≤ t) :
    Fips.W M t = smallSigma1 (Fips.W M (t - 2)) + Fips.W M (t - 7) + smallSigma0 (Fips.W M (t - 15)) +
      Fips.W M (t - 16) := by
  rw [Fips.W, if_neg (by omega), smallSigma0_eq, smallSigma1_eq]

/-- The schedule depends on the first sixteen words only. -/
theorem W_congr {M M' : ℕ → U64} (h : ∀ i < 16, M i = M' i) (t : ℕ) : Fips.W M t = Fips.W M' t := by
  induction t using Nat.strong_induction_on with
  | _ t ih =>
    by_cases ht : t < 16
    · rw [W_lt M ht, W_lt M' ht, h t ht]
    · have ht : 16 ≤ t := by omega
      rw [W_ge M ht, W_ge M' ht, ih (t - 2) (by omega), ih (t - 7) (by omega), ih (t - 15) (by omega),
        ih (t - 16) (by omega)]

theorem rounds_congr {w w' : ℕ → U64} {t : ℕ} (s : State) (h : ∀ i < t, w i = w' i) :
    Fips.rounds w s t = Fips.rounds w' s t := by
  induction t with
  | zero => rfl
  | succ t ih => rw [Fips.rounds, Fips.rounds, ih fun i hi => h i (by omega), h t (Nat.lt_succ_self t)]

/-! ## The schedule loop -/

/-- Big-endian word `i` of a block. -/
def blockWord (block : Block) (i : ℕ) : U64 := u64FromBeBytes ((block.toList.drop (i * 8)).take 8)

theorem parseWords_getElem! (block : Block) {j : ℕ} (hj : j < 80) :
    (parseWords block)[j]! = if j < 16 then blockWord block j else 0 := by
  have hl : (Bytes.chunksExact 8 block.toList).length = 16 := by simp
  rw [parseWords, Bytes.foldl_set!_zipIdx _ _ _ hj]
  by_cases h : j < 16
  · rw [if_pos h, List.getElem?_eq_getElem (by omega), Bytes.chunksExact_getElem]; rfl
  · rw [if_neg h, List.getElem?_eq_none (by omega), getElem!_pos (Vector.replicate 80 (0 : U64)) j hj]
    simp

/-- The schedule loop extends sixteen words to the standard's schedule. -/
theorem expandWords_getElem! (words : Vector U64 80) {t : ℕ} (ht : t < 80) :
    (expandWords words)[t]! = Fips.W (fun i => words[i]!) t := by
  have := Loop.foldl_range'_inv (f := fun (words : Vector U64 80) i => words.set! i (scheduleWord words i))
    (fun k ws => ∀ j < 16 + k, ws[j]! = Fips.W (fun i => words[i]!) j) 16 64 (s := words) ?_ ?_
  · exact this t ht
  · intro j hj; rw [W_lt _ hj]
  · intro k hk ws ih j hj
    rw [Bytes.getElem!_set!]
    by_cases hkj : 16 + k = j
    · subst hkj
      rw [if_pos ⟨rfl, by omega⟩, scheduleWord, W_ge _ (by omega), ih _ (by omega), ih _ (by omega),
        ih _ (by omega), ih _ (by omega)]
    · rw [if_neg (by omega), ih j (by omega)]

theorem compressBlock_words (state : State) (block : Block) {t : ℕ} (ht : t < 80) :
    (compressBlock state block).words[t]! = Fips.W (blockWord block) t := by
  show (expandWords (parseWords block))[t]! = _
  rw [expandWords_getElem! _ ht]
  refine W_congr (fun i hi => ?_) t
  rw [parseWords_getElem! block (by omega), if_pos hi]

/-! ## The rounds -/

/-- The working variables as a state. -/
def Registers.toState (r : Registers) : State := #v[r.a, r.b, r.c, r.d, r.e, r.f, r.g, r.h]

/-- The working variables loaded from a state. -/
def Registers.ofState (s : State) : Registers := ⟨s.a, s.b, s.c, s.d, s.e, s.f, s.g, s.h⟩

theorem Registers.toState_ofState (s : State) : (Registers.ofState s).toState = s := by
  apply Vector.ext
  intro i hi
  interval_cases i <;> rfl

/-- One iteration of the round loop: the registers take the standard's step, which is recorded. -/
theorem compressRound_eq (words : Vector U64 80) (r : Registers) (roundStates : Vector State 81) (i : ℕ) :
    (compressRound words (r, roundStates) i).1.toState = Fips.step K[i]! words[i]! r.toState ∧
    (compressRound words (r, roundStates) i).2 =
      roundStates.set! (i + 1) (Fips.step K[i]! words[i]! r.toState) := ⟨rfl, rfl⟩

/-- The round loop after `k` iterations. -/
theorem rounds_loop (words : Vector U64 80) (r : Registers) (roundStates : Vector State 81)
    (h0 : roundStates[0]! = r.toState) :
    let out := (List.range 80).foldl (compressRound words) (r, roundStates)
    out.1.toState = Fips.rounds (fun i => words[i]!) r.toState 80 ∧
    ∀ j ≤ 80, out.2[j]! = Fips.rounds (fun i => words[i]!) r.toState j := by
  refine Loop.foldl_range_inv (f := compressRound words)
    (fun k st => st.1.toState = Fips.rounds (fun i => words[i]!) r.toState k ∧
      ∀ j ≤ k, st.2[j]! = Fips.rounds (fun i => words[i]!) r.toState j) 80 ⟨rfl, ?_⟩ ?_
  · intro j hj
    obtain rfl := Nat.le_zero.1 hj
    exact h0
  -- iteration `k` writes snapshot `k + 1` and no earlier one
  · rintro k hk ⟨r', rs⟩ ⟨h1, h2⟩
    obtain ⟨e1, e2⟩ := compressRound_eq words r' rs k
    rw [e1, e2, h1]
    refine ⟨rfl, fun j hj => ?_⟩
    rw [Bytes.getElem!_set!]
    by_cases hkj : k + 1 = j
    · subst hkj; rw [if_pos ⟨rfl, by omega⟩]; rfl
    · rw [if_neg (by omega), h2 j (by omega)]

theorem compressBlock_inputState (state : State) (block : Block) :
    (compressBlock state block).inputState = state := rfl

/-- The state of the round loop of `compress_block` when it ends. -/
def roundLoop (state : State) (words : Vector U64 80) : Registers × Vector State 81 :=
  (List.range 80).foldl (compressRound words)
    (Registers.ofState state, (Vector.replicate 81 (Vector.replicate 8 0)).set! 0 state)

theorem compressBlock_roundLoop (state : State) (block : Block) :
    (compressBlock state block).roundStates = (roundLoop state (compressBlock state block).words).2 ∧
    (compressBlock state block).outputState =
      feedForward state (roundLoop state (compressBlock state block).words).1.toState := by
  unfold compressBlock roundLoop Registers.ofState
  dsimp only
  generalize List.foldl _ _ _ = out
  exact ⟨rfl, rfl⟩

theorem roundLoop_spec (state : State) (block : Block) :
    (roundLoop state (compressBlock state block).words).1.toState =
      Fips.rounds (Fips.W (blockWord block)) state 80 ∧
    ∀ j ≤ 80, (roundLoop state (compressBlock state block).words).2[j]! =
      Fips.rounds (Fips.W (blockWord block)) state j := by
  have hw : ∀ j ≤ 80, Fips.rounds (fun i => (compressBlock state block).words[i]!) state j =
      Fips.rounds (Fips.W (blockWord block)) state j := fun j hj =>
    rounds_congr state fun i hi => compressBlock_words state block (by omega)
  obtain ⟨h1, h2⟩ := rounds_loop (compressBlock state block).words (Registers.ofState state)
    ((Vector.replicate 81 (Vector.replicate 8 0)).set! 0 state) (by
      rw [Bytes.getElem!_set!, if_pos ⟨rfl, by omega⟩, Registers.toState_ofState])
  rw [Registers.toState_ofState] at h1 h2
  refine ⟨?_, fun j hj => ?_⟩
  · rw [← hw 80 le_rfl]; exact h1
  · rw [← hw j hj]; exact h2 j hj

/-- The recorded states are those of the standard's rounds over the block's schedule. -/
theorem compressBlock_roundStates (state : State) (block : Block) {r : ℕ} (hr : r ≤ 80) :
    (compressBlock state block).roundStates[r]! = Fips.rounds (Fips.W (blockWord block)) state r := by
  rw [(compressBlock_roundLoop state block).1]
  exact (roundLoop_spec state block).2 r hr

theorem compressBlock_roundStates_last (state : State) (block : Block) :
    (compressBlock state block).lastRoundState = Fips.rounds (Fips.W (blockWord block)) state 80 := by
  rw [← compressBlock_roundStates state block le_rfl, getElem!_pos _ 80 (by omega)]

/-- The chaining output is the feed-forward of the last recorded state. -/
theorem compressBlock_outputState (state : State) (block : Block) :
    (compressBlock state block).outputState =
      feedForward state (Fips.rounds (Fips.W (blockWord block)) state 80) := by
  rw [(compressBlock_roundLoop state block).2, (roundLoop_spec state block).1]

theorem feedForward_eq (s l : State) : feedForward s l = Vector.ofFn fun i => s.get i + l.get i := by
  apply Vector.ext
  intro i hi
  interval_cases i <;> rfl

/-- `compress_block` is the standard's compression function. -/
theorem compressBlock_compress (state : State) (block : Block) :
    (compressBlock state block).outputState = Fips.compress state (blockWord block) := by
  rw [compressBlock_outputState, feedForward_eq]; rfl

end Sha512Circuit
