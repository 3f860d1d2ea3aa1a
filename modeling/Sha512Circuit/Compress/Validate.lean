/-
The word-level validator `verify_block_trace`: it looks at schedule steps, adjacent rounds and the
feed-forward only, and accepts exactly the recorded compressions.
-/
import Sha512Circuit.Compress.Refine
import Sha512Circuit.Compress.Padding

namespace Sha512Circuit

/-! ## The word-level validator -/

theorem expectedNext_eq (words : Vector U64 80) (s : State) (i : ℕ) :
    expectedNext words s i = Fips.step K[i]! words[i]! s := rfl

/-- The checks of `verify_block_trace`. -/
theorem verifyBlockTrace_iff (t : BlockTrace) :
    verifyBlockTrace t = true ↔
      (∀ i, 16 ≤ i → i < 80 → t.words[i]! = scheduleWord t.words i) ∧
      t.roundStates[0]! = t.inputState ∧
      (∀ i < 80, t.roundStates[i + 1]! = Fips.step K[i]! t.words[i]! t.roundStates[i]!) ∧
      t.outputState = feedForward t.inputState t.lastRoundState := by
  rw [getElem!_pos t.roundStates 0 (by omega)]
  unfold verifyBlockTrace BlockTrace.lastRoundState
  simp only [Bool.and_eq_true, List.all_eq_true, List.mem_range'_1, List.mem_range, beq_iff_eq, expectedNext_eq,
    and_imp, and_assoc]

/-- A trace is a run: its words form a schedule and its states are the rounds from its input. -/
structure IsRun (t : BlockTrace) : Prop where
  words : ∀ i < 80, t.words[i]! = Fips.W (fun j => t.words[j]!) i
  states : ∀ r ≤ 80, t.roundStates[r]! = Fips.rounds (Fips.W fun j => t.words[j]!) t.inputState r

/-- Local schedule steps make a schedule. -/
theorem schedule_of_steps {words : Vector U64 80}
    (h : ∀ i, 16 ≤ i → i < 80 → words[i]! = scheduleWord words i) :
    ∀ i < 80, words[i]! = Fips.W (fun j => words[j]!) i := by
  intro i
  induction i using Nat.strong_induction_on with
  | _ i ih =>
    intro hi
    by_cases h16 : i < 16
    · rw [W_lt _ h16]
    · rw [W_ge _ (by omega), h i (by omega) hi, scheduleWord, ih (i - 2) (by omega) (by omega),
        ih (i - 7) (by omega) (by omega), ih (i - 15) (by omega) (by omega), ih (i - 16) (by omega) (by omega)]

/-- `verify_block_trace` accepts exactly the runs with the right feed-forward. -/
theorem verifyBlockTrace_iff_isRun (t : BlockTrace) :
    verifyBlockTrace t = true ↔ IsRun t ∧ t.outputState = feedForward t.inputState t.lastRoundState := by
  rw [verifyBlockTrace_iff]
  constructor
  · rintro ⟨hw, h0, hs, ho⟩
    have words := schedule_of_steps hw
    refine ⟨⟨words, fun r hr => ?_⟩, ho⟩
    -- each recorded state is one step from the one before, back to the input
    induction r with
    | zero => rw [h0]; rfl
    | succ r ih => rw [hs r (by omega), ih (by omega), words r (by omega)]; rfl
  · rintro ⟨⟨words, states⟩, ho⟩
    refine ⟨fun i h16 hi => ?_, ?_, fun i hi => ?_, ho⟩
    · rw [words i hi, W_ge _ h16, scheduleWord, words (i - 2) (by omega), words (i - 7) (by omega),
        words (i - 15) (by omega), words (i - 16) (by omega)]
    · exact states 0 (by omega)
    · rw [states (i + 1) (by omega), states i (by omega), words i hi]; rfl

/-! ## The block of a trace -/

/-- The block whose big-endian words are the first sixteen of `words`. -/
def blockOfWords (words : Vector U64 80) : Block := toBlock ((words.toList.take 16).flatMap u64ToBeBytes)

theorem u64FromBeBytes_toBeBytes (x : U64) : u64FromBeBytes (u64ToBeBytes x) = x := by
  apply BitVec.eq_of_toNat_eq
  rw [u64FromBeBytes, u64ToBeBytes, Bytes.ofBe_toBe, BitVec.toNat_ofNat]
  have := x.isLt
  omega

theorem blockWord_blockOfWords (words : Vector U64 80) {i : ℕ} (hi : i < 16) :
    blockWord (blockOfWords words) i = words[i]! := by
  have hbytes : ∀ x ∈ words.toList.take 16, (u64ToBeBytes x).length = 8 := fun x _ => Bytes.toBe_length 8 x.toNat
  have hlen : ((words.toList.take 16).flatMap u64ToBeBytes).length = 128 := by
    rw [Bytes.length_flatMap_const hbytes, List.length_take, Vector.length_toList]; omega
  have htl : (blockOfWords words).toList = (words.toList.take 16).flatMap u64ToBeBytes := toBlock_toList hlen
  have hi' : i < (words.toList.take 16).length := by
    rw [List.length_take, Vector.length_toList]; omega
  rw [blockWord, htl, Bytes.take_drop_flatMap _ hbytes i hi', u64FromBeBytes_toBeBytes, List.getElem_take,
    Vector.getElem_toList, getElem!_pos words i (by omega)]

/-- A block is determined by its sixteen words. -/
theorem blockWord_inj {b b' : Block} (h : ∀ i < 16, blockWord b i = blockWord b' i) : b = b' := by
  have hlen : ∀ (b : Block) i, i < 16 → ((b.toList.drop (i * 8)).take 8).length = 8 := fun b i hi => by
    rw [List.length_take, List.length_drop, Vector.length_toList]; omega
  have hchunk : ∀ i < 16, (b.toList.drop (i * 8)).take 8 = (b'.toList.drop (i * 8)).take 8 := by
    intro i hi
    refine Bytes.ofBe_inj (by rw [hlen b i hi, hlen b' i hi]) ?_
    have hlt : ∀ b : Block, Bytes.ofBe ((b.toList.drop (i * 8)).take 8) < 2 ^ 64 := fun b => by
      have := Bytes.ofBe_lt ((b.toList.drop (i * 8)).take 8)
      rw [hlen b i hi] at this
      omega
    have := congrArg BitVec.toNat (h i hi)
    rwa [blockWord, blockWord, u64FromBeBytes, u64FromBeBytes, BitVec.toNat_ofNat, BitVec.toNat_ofNat,
      Nat.mod_eq_of_lt (hlt b), Nat.mod_eq_of_lt (hlt b')] at this
  have hchunks : Bytes.chunksExact 8 b.toList = Bytes.chunksExact 8 b'.toList := by
    unfold Bytes.chunksExact
    rw [Vector.length_toList, Vector.length_toList]
    exact List.map_congr_left fun i hi => hchunk i (List.mem_range.1 hi)
  have hflat : ∀ b : Block, (Bytes.chunksExact 8 b.toList).flatten = b.toList := fun b =>
    Bytes.flatten_chunksExact (by rw [Vector.length_toList]; norm_num)
  apply Vector.toList_inj.1
  rw [← hflat b, ← hflat b', hchunks]

/-- A recorded compression is a run. -/
theorem compressBlock_isRun (state : State) (block : Block) : IsRun (compressBlock state block) := by
  have hW : ∀ i, Fips.W (fun j => (compressBlock state block).words[j]!) i = Fips.W (blockWord block) i := fun i =>
    W_congr (fun j hj => by rw [compressBlock_words state block (by omega), W_lt _ hj]) i
  refine ⟨fun i hi => ?_, fun r hr => ?_⟩
  · rw [hW, compressBlock_words state block hi]
  · rw [compressBlock_roundStates state block hr, compressBlock_inputState]
    exact rounds_congr state fun i _ => (hW i).symm

theorem verifyBlockTrace_compressBlock (state : State) (block : Block) :
    verifyBlockTrace (compressBlock state block) = true := by
  rw [verifyBlockTrace_iff_isRun, compressBlock_outputState, compressBlock_roundStates_last]
  exact ⟨compressBlock_isRun state block, rfl⟩

/-- An accepted trace is the recorded compression of its block. -/
theorem eq_compressBlock_of_verifyBlockTrace {t : BlockTrace} (h : verifyBlockTrace t = true) :
    t = compressBlock t.inputState (blockOfWords t.words) := by
  obtain ⟨⟨words, states⟩, hout⟩ := (verifyBlockTrace_iff_isRun t).1 h
  have hW : ∀ i, Fips.W (fun j => t.words[j]!) i = Fips.W (blockWord (blockOfWords t.words)) i := fun i =>
    W_congr (fun j hj => (blockWord_blockOfWords t.words hj).symm) i
  have hwords : t.words = (compressBlock t.inputState (blockOfWords t.words)).words :=
    Bytes.ext_getElem! fun i hi => by rw [words i hi, hW, compressBlock_words _ _ hi]
  have hstates : t.roundStates = (compressBlock t.inputState (blockOfWords t.words)).roundStates :=
    Bytes.ext_getElem! fun r hr => by
      rw [states r (by omega), compressBlock_roundStates _ _ (by omega)]
      exact rounds_congr _ fun i _ => hW i
  have hlast : t.lastRoundState = (compressBlock t.inputState (blockOfWords t.words)).lastRoundState := by
    rw [BlockTrace.lastRoundState, hstates]
  have houtput : t.outputState = (compressBlock t.inputState (blockOfWords t.words)).outputState := by
    rw [hout, compressBlock_outputState, hlast, compressBlock_roundStates_last]
  exact BlockTrace.ext (compressBlock_inputState _ _).symm hwords hstates houtput

/-- The block of a recorded compression is that of its first sixteen words. -/
theorem blockWord_of_eq_compressBlock {t : BlockTrace} {b : Block} (h : t = compressBlock t.inputState b) {i : ℕ}
    (hi : i < 16) : blockWord b i = t.words[i]! := by
  rw [h, compressBlock_words _ b (by omega), W_lt _ hi]

/-- `verify_block_trace` accepts exactly the recorded compressions, and a trace records the
compression of one block only: the one of its first sixteen words. -/
theorem verifyBlockTrace_iff_compressBlock (t : BlockTrace) :
    (verifyBlockTrace t = true ↔ ∃ b, t = compressBlock t.inputState b) ∧
    ∀ b, t = compressBlock t.inputState b →
      (∀ i < 16, blockWord b i = t.words[i]!) ∧ ∀ b', t = compressBlock t.inputState b' → b' = b := by
  refine ⟨⟨fun h => ⟨_, eq_compressBlock_of_verifyBlockTrace h⟩, ?_⟩, fun b h => ⟨?_, fun b' h' => ?_⟩⟩
  · rintro ⟨b, h⟩
    rw [h]
    exact verifyBlockTrace_compressBlock _ b
  · exact fun i hi => blockWord_of_eq_compressBlock h hi
  · refine blockWord_inj fun i hi => ?_
    rw [blockWord_of_eq_compressBlock h' hi, blockWord_of_eq_compressBlock h hi]

/-- The compression of the all-zero block from the standard's initial state. -/
theorem verifyBlockTrace_iff_compressBlock_zeroBlock :
    verifyBlockTrace (compressBlock initialState (Vector.replicate 128 0)) = true ∧
    ∀ b', compressBlock initialState (Vector.replicate 128 0) = compressBlock initialState b' →
      b' = Vector.replicate 128 0 := by
  obtain ⟨hiff, hblock⟩ := verifyBlockTrace_iff_compressBlock (compressBlock initialState (Vector.replicate 128 0))
  exact ⟨hiff.2 ⟨_, rfl⟩, (hblock (Vector.replicate 128 0) rfl).2⟩

end Sha512Circuit
