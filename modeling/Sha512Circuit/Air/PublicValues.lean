/-
What the eight public values say about the final working state. For a fixed block the eighty rounds
are a bijection of states, and `bb` keeps only residues modulo `p`, so for every instance another
one has the same public values and another `round_states[80]`.
-/
import Sha512Circuit.Air.RoundAir
import Sha512Circuit.Compress.Refine

namespace Sha512Circuit

/-! ## Rounds backwards -/

/-- The state before a round, from the state after it. -/
def unstep (k w : U64) (v : State) : State :=
  let a := v.b
  let b := v.c
  let c := v.d
  let e := v.f
  let f := v.g
  let g := v.h
  let t1 := v.a - (bigSigma0 a + maj a b c)
  #v[a, b, c, v.e - t1, e, f, g, t1 - (bigSigma1 e + ch e f g + k + w)]

theorem step_unstep (k w : U64) (v : State) : Fips.step k w (unstep k w v) = v := by
  have ht1 : ∀ t x y z u : U64, t - (x + y + z + u) + x + y + z + u = t := fun t x y z u => by
    have e : t - (x + y + z + u) + x + y + z + u = t - (x + y + z + u) + (x + y + z + u) := by
      simp only [BitVec.add_assoc]
    rw [e, BitVec.sub_add_cancel]
  -- `T1` of the recovered state is what remains of the next `A` after `T2`
  have hT1 : (unstep k w v).h + Fips.Sigma1 (unstep k w v).e +
      Fips.Ch (unstep k w v).e (unstep k w v).f (unstep k w v).g + k + w =
      v.a - (bigSigma0 v.b + maj v.b v.c v.d) := ht1 _ _ _ _ _
  refine Vector.ext fun i hi => ?_
  obtain rfl | rfl | rfl | rfl | rfl | rfl | rfl | rfl :
      i = 0 ∨ i = 1 ∨ i = 2 ∨ i = 3 ∨ i = 4 ∨ i = 5 ∨ i = 6 ∨ i = 7 := by omega
  · exact (congrArg (· + (bigSigma0 v.b + maj v.b v.c v.d)) hT1).trans (BitVec.sub_add_cancel _ _)
  · rfl
  · rfl
  · rfl
  · exact (congrArg (v.e - (v.a - (bigSigma0 v.b + maj v.b v.c v.d)) + ·) hT1).trans (BitVec.sub_add_cancel _ _)
  · rfl
  · rfl
  · rfl

/-- The state `t` rounds before `v`. -/
def unrounds (w : ℕ → U64) (v : State) : ℕ → State
  | 0 => v
  | t + 1 => unrounds w (unstep K[t]! (w t) v) t

/-- Every state is the result of `t` rounds. -/
theorem rounds_unrounds (w : ℕ → U64) : ∀ (t : ℕ) (v : State), Fips.rounds w (unrounds w v t) t = v
  | 0, _ => rfl
  | t + 1, v => by
    rw [Fips.rounds, unrounds, rounds_unrounds w t, step_unstep]

/-! ## Residues -/

/-- Another word with the same residue modulo `p`: `p` up if that does not overflow, else down. -/
def otherWord (x : U64) : U64 :=
  if x.toNat + babyBearPrime < 2 ^ 64 then x + BitVec.ofNat 64 babyBearPrime else x - BitVec.ofNat 64 babyBearPrime

theorem otherWord_ne (x : U64) : otherWord x ≠ x := by
  have hp := babyBearPrime_eq
  have hx := x.isLt
  intro h
  have := congrArg BitVec.toNat h
  unfold otherWord at this
  split at this
  · rw [BitVec.toNat_add, BitVec.toNat_ofNat] at this
    omega
  · rw [BitVec.toNat_sub, BitVec.toNat_ofNat] at this
    omega

theorem bb_otherWord (x : U64) : bb (otherWord x) = bb x := by
  have hp := babyBearPrime_eq
  have hx := x.isLt
  have hcast : ((babyBearPrime : ℕ) : BabyBear) = 0 := ZMod.natCast_self _
  unfold bb otherWord
  split
  · rw [BitVec.toNat_add, BitVec.toNat_ofNat, show (x.toNat + babyBearPrime % 2 ^ 64) % 2 ^ 64 = x.toNat + babyBearPrime by
      omega, Nat.cast_add, hcast, add_zero]
  · have e : (x - BitVec.ofNat 64 babyBearPrime).toNat + babyBearPrime = x.toNat := by
      rw [BitVec.toNat_sub, BitVec.toNat_ofNat]
      omega
    rw [← e, Nat.cast_add, hcast, add_zero]

/-- For every instance, every other block and every word there is an initial state with the same
public values whose final working state differs in exactly that word. -/
theorem exists_same_publicValues (s : State) (b b' : Block) {i : ℕ} (hi : i < 8) :
    ∃ s', publicValuesOf (compressBlock s' b') = publicValuesOf (compressBlock s b) ∧
      (compressBlock s' b').lastRoundState =
        ((compressBlock s b).lastRoundState).set i (otherWord (compressBlock s b).lastRoundState[i]) := by
  generalize (compressBlock s b) = t
  refine ⟨unrounds (Fips.W (blockWord b')) (t.lastRoundState.set i (otherWord t.lastRoundState[i])) 80, ?_⟩
  have hlast : (compressBlock (unrounds (Fips.W (blockWord b'))
      (t.lastRoundState.set i (otherWord t.lastRoundState[i])) 80) b').lastRoundState =
      t.lastRoundState.set i (otherWord t.lastRoundState[i]) := by
    rw [compressBlock_roundStates_last, rounds_unrounds]
  refine ⟨?_, hlast⟩
  unfold publicValuesOf
  rw [hlast]
  refine Vector.ext fun j hj => ?_
  rw [Vector.getElem_map, Vector.getElem_map, Vector.getElem_set]
  split
  · case isTrue h =>
    subst h
    exact bb_otherWord _
  · rfl

/-- The public values of no instance determine its final working state, against any other block. -/
theorem publicValues_never_determine (s : State) (b b' : Block) :
    ¬ ∀ s', publicValuesOf (compressBlock s b) = publicValuesOf (compressBlock s' b') →
      (compressBlock s b).lastRoundState = (compressBlock s' b').lastRoundState := by
  intro h
  obtain ⟨s', hpub, hlast⟩ := exists_same_publicValues s b b' (show 0 < 8 by omega)
  have heq := h s' hpub.symm
  rw [hlast] at heq
  have h0 := congrArg (fun v : State => v[0]) heq
  rw [Vector.getElem_set_self] at h0
  exact otherWord_ne _ h0.symm

/-- Two initial states whose runs of the all-zero block have the same public values: the final `a`
is `0x656e9b6d838e02e0` from the standard's state and `0x656e9b6dfb8e02e1`, one `p` more, from the
other. -/
theorem publicValues_collision :
    let b : Block := Vector.replicate 128 0
    let s' : State := #v[0xd7622a4f8a2eb3bb, 0xc4a020a6a02fd435, 0xdee1ff03dafbc81e, 0xd6e183f0d52769ce,
      0xfc826b9e2aa37580, 0xde19c459ec7badf5, 0x34fb043c2337eed7, 0x4d9859b0118dea37]
    ¬ (publicValuesOf (compressBlock initialState b) = publicValuesOf (compressBlock s' b) →
      (compressBlock initialState b).lastRoundState = (compressBlock s' b).lastRoundState) := by
  decide +kernel

end Sha512Circuit
